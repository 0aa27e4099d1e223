/-
Module: LobbySvr.Proofs.NodeSteps
Layer: Proofs
Purpose: What one step of the process can do.  The protocol of the calls for a connection is an automaton with
  three phases.  A step of the node is nothing, an accept, a step of one connection with the calls that its
  events make, or a call of the broker's connector; the calls are a run of the server, and what the server
  does to a connection is a step of that connection.
Imports: LobbySvr.Lobby.LobbyNode, LobbySvr.Proofs.ClientClosings, LobbySvr.Proofs.ConnectionClose
Trusted boundary: none
Main exports: ClientPhase, ClientPhase.after, ClientPhase.Moves, phase_inside, phase_waiting, afterActions,
  Acted, actionsFor, serve_run, serve_runs, NodeStep, node_step_cases, accept_step, connection_step,
  callsMade, node_serves, Emits, step_emits, AwaitingAccept
Open obligations: none
-/
import Mathlib
import LobbySvr.Lobby.LobbyNode
import LobbySvr.Proofs.ClientClosings
import LobbySvr.Proofs.ConnectionClose

namespace LobbySvr.Proofs

open LobbySvr.Foundation
open LobbySvr.Net
open LobbySvr.Spec
open LobbySvr.Lobby

/-! ### The protocol of the calls for a client -/

inductive ClientPhase where
  | waiting
  | served
  | gone
deriving DecidableEq, Repr

section

variable {C : Type} [DecidableEq C]

/-- The phase of a client behind a call, none when the call may not come in its phase. -/
def ClientPhase.next (conn : C) (phase : ClientPhase) (input : ServerInput C) : Option ClientPhase :=
  if caller input.event = some conn then
    match phase, input.event with
    | .waiting, .onAccept _ => some .served
    | .served, .onClose _ => some .gone
    | .served, .onExpiredSession _ => some .served
    | .served, .noHandler _ => some .served
    | .served, .readJsonPacket _ _ _ => some .served
    | _, _ => none
  else some phase

/-- The phase of a client behind some calls, none when one of them has come out of turn. -/
def ClientPhase.after (conn : C) (inputs : List (ServerInput C)) : Option ClientPhase :=
  inputs.foldlM (ClientPhase.next conn) .waiting

theorem ClientPhase.after_append (conn : C) (inputs more : List (ServerInput C)) :
    ClientPhase.after conn (inputs ++ more) =
      (ClientPhase.after conn inputs).bind fun phase => more.foldlM (ClientPhase.next conn) phase :=
  List.foldlM_append

theorem ClientPhase.after_snoc (conn : C) (inputs : List (ServerInput C)) (input : ServerInput C) :
    ClientPhase.after conn (inputs ++ [input]) =
      (ClientPhase.after conn inputs).bind fun phase => ClientPhase.next conn phase input := by
  simp only [ClientPhase.after_append, List.foldlM_cons, List.foldlM_nil, bind_pure]

theorem ClientPhase.next_other {conn : C} {phase : ClientPhase} {input : ServerInput C}
    (other : caller input.event ≠ some conn) : ClientPhase.next conn phase input = some phase :=
  if_neg other

theorem ClientPhase.next_onAccept (conn : C) (around : Circumstances C) :
    ClientPhase.next conn .waiting ⟨.onAccept conn, around⟩ = some .served := if_pos rfl

theorem ClientPhase.next_onClose (conn : C) (around : Circumstances C) :
    ClientPhase.next conn .served ⟨.onClose conn, around⟩ = some .gone := if_pos rfl

/-- Calls for others leave the phase as it is. -/
theorem ClientPhase.foldlM_others {conn : C} {phase : ClientPhase} {inputs : List (ServerInput C)}
    (others : ∀ input ∈ inputs, caller input.event ≠ some conn) :
    inputs.foldlM (ClientPhase.next conn) phase = some phase := by
  induction inputs with
  | nil => rfl
  | cons input inputs inductionHypothesis =>
      rw [List.foldlM_cons, ClientPhase.next_other (others input List.mem_cons_self)]
      exact inductionHypothesis fun later member => others later (List.mem_cons_of_mem input member)

/-- The moves of a phase. -/
inductive ClientPhase.Moves (conn : C) (event : ServerEvent C) : ClientPhase → ClientPhase → Prop where
  | stays (other : caller event ≠ some conn) (phase : ClientPhase) :
      ClientPhase.Moves conn event phase phase
  | begins (accepted : event = .onAccept conn) : ClientPhase.Moves conn event .waiting .served
  | goesOn (own : caller event = some conn) (notAccepted : event ≠ .onAccept conn)
      (notClosed : event ≠ .onClose conn) : ClientPhase.Moves conn event .served .served
  | ends (closed : event = .onClose conn) : ClientPhase.Moves conn event .served .gone

theorem ClientPhase.next_moves {conn : C} {phase later : ClientPhase} {input : ServerInput C}
    (taken : ClientPhase.next conn phase input = some later) :
    ClientPhase.Moves conn input.event phase later := by
  by_cases own : caller input.event = some conn
  · simp only [ClientPhase.next, if_pos own] at taken
    obtain ⟨event, around⟩ := input
    cases event with
    | onAccept other =>
        cases own
        cases phase with
        | waiting =>
            cases taken
            exact .begins rfl
        | served => cases taken
        | gone => cases taken
    | onClose other =>
        cases own
        cases phase with
        | waiting => cases taken
        | served =>
            cases taken
            exact .ends rfl
        | gone => cases taken
    | brokerLink event => cases own
    | brokerReadJsonPacket msg => cases own
    | brokerNoHandler session => cases own
    | brokerExpiredSession session => cases own
    | _ =>
        cases phase with
        | waiting => cases taken
        | served =>
            cases taken
            exact .goesOn own nofun nofun
        | gone => cases taken
  · rw [ClientPhase.next_other own] at taken
    cases taken
    exact .stays own phase

/-- A client that follows the protocol is in exactly while it is served. -/
theorem phase_inside {conn : C} {inputs : List (ServerInput C)} {phase : ClientPhase}
    (follows : ClientPhase.after conn inputs = some phase) :
    Inside conn inputs ↔ phase = .served := by
  induction inputs using List.reverseRecOn generalizing phase with
  | nil =>
      cases follows
      exact iff_of_false (inside_nil conn) nofun
  | append_singleton inputs input inductionHypothesis =>
      rw [ClientPhase.after_snoc] at follows
      obtain ⟨before, earlier, here⟩ := Option.bind_eq_some_iff.mp follows
      rw [inside_snoc, inductionHypothesis earlier]
      cases ClientPhase.next_moves here with
      | stays other phase =>
          have notAccepted : input.event ≠ .onAccept conn := fun same => other (same ▸ rfl)
          have notClosed : input.event ≠ .onClose conn := fun same => other (same ▸ rfl)
          simp [notAccepted, notClosed]
      | begins accepted => simp [accepted]
      | goesOn own notAccepted notClosed => simp [notAccepted, notClosed]
      | ends closed => simp [closed]

theorem ClientPhase.foldlM_serves {conn : C} {inputs : List (ServerInput C)}
    (own : ∀ input ∈ inputs, caller input.event = some conn ∧ input.event ≠ .onAccept conn ∧
      input.event ≠ .onClose conn) :
    inputs.foldlM (ClientPhase.next conn) .served = some .served := by
  induction inputs with
  | nil => rfl
  | cons input inputs inductionHypothesis =>
      obtain ⟨event, around⟩ := input
      obtain ⟨called, notAccepted, notClosed⟩ := own ⟨event, around⟩ List.mem_cons_self
      have stays : ClientPhase.next conn .served ⟨event, around⟩ = some .served := by
        rw [ClientPhase.next.eq_def, if_pos called]
        cases event with
        | onAccept other =>
            cases called
            exact absurd rfl notAccepted
        | onClose other =>
            cases called
            exact absurd rfl notClosed
        | onExpiredSession other => rfl
        | noHandler other => rfl
        | readJsonPacket other size msg => rfl
        | _ => cases called
      rw [List.foldlM_cons, stays]
      exact inductionHypothesis fun later member => own later (List.mem_cons_of_mem _ member)

/-- A client that waits has had no call. -/
theorem phase_waiting {conn : C} {inputs : List (ServerInput C)}
    (follows : ClientPhase.after conn inputs = some .waiting) :
    ∀ input ∈ inputs, caller input.event ≠ some conn := by
  induction inputs using List.reverseRecOn with
  | nil => exact fun _ member => absurd member List.not_mem_nil
  | append_singleton inputs input inductionHypothesis =>
      rw [ClientPhase.after_snoc] at follows
      obtain ⟨before, earlier, here⟩ := Option.bind_eq_some_iff.mp follows
      cases ClientPhase.next_moves here with
      | stays other _ =>
          intro any member
          rcases List.mem_append.mp member with front | last
          · exact inductionHypothesis earlier any front
          · rw [List.mem_singleton.mp last]
            exact other

end

/-! ### What the server does to the connections -/

section

variable {κ ε : Type}

/-- An action as the call of user code that it is. -/
def actionLabel : Action → Label ε
  | .sendPacket packet => .sendPacket packet
  | .closeReserve _ => .closeReserve

theorem act_step (procedure : MessageProcedure κ ε) (action : Action) {conn : ConnectionImpl κ}
    (running : conn.terminated = none) :
    conn.step procedure (actionLabel action) = some (act action conn) := by
  cases action with
  | sendPacket packet => exact if_neg (not_not.mpr running)
  | closeReserve timeAfterMs => exact if_neg (not_not.mpr running)

/-- Some actions, done to a connection. -/
def afterActions (actions : List Action) (conn : ConnectionImpl κ) : ConnectionImpl κ :=
  actions.foldl (fun conn action => act action conn) conn

@[simp] theorem afterActions_nil (conn : ConnectionImpl κ) : afterActions [] conn = conn := rfl

@[simp] theorem afterActions_cons (action : Action) (actions : List Action) (conn : ConnectionImpl κ) :
    afterActions (action :: actions) conn = afterActions actions (act action conn) := rfl

theorem afterActions_append (actions more : List Action) (conn : ConnectionImpl κ) :
    afterActions (actions ++ more) conn = afterActions more (afterActions actions conn) :=
  List.foldl_append

/-- Some actions have been done to a connection. -/
abbrev Acted (conn later : ConnectionImpl κ) : Prop :=
  Relation.ReflTransGen (fun conn later => ∃ action, later = act action conn) conn later

theorem afterActions_acted (actions : List Action) (conn : ConnectionImpl κ) :
    Acted conn (afterActions actions conn) := by
  induction actions generalizing conn with
  | nil => exact .refl
  | cons action actions inductionHypothesis => exact .head ⟨action, rfl⟩ (inductionHypothesis _)

theorem act_same (action : Action) (conn : ConnectionImpl κ) :
    (act action conn).status = conn.status ∧ (act action conn).log = conn.log ∧
      (act action conn).terminated = conn.terminated := by
  cases action with
  | sendPacket packet =>
      rw [act, ConnectionImpl.sendPacket]
      split
      · exact ⟨rfl, rfl, rfl⟩
      · exact ⟨rfl, rfl, rfl⟩
  | closeReserve timeAfterMs =>
      have same := (OnlyTimers.closeReserve conn).same
      exact ⟨same.status, same.log, same.terminated⟩

theorem Acted.same {conn later : ConnectionImpl κ} (acted : Acted conn later) :
    later.status = conn.status ∧ later.log = conn.log ∧ later.terminated = conn.terminated := by
  induction acted with
  | refl => exact ⟨rfl, rfl, rfl⟩
  | tail _ last inductionHypothesis =>
      obtain ⟨action, rfl⟩ := last
      obtain ⟨status, log, terminated⟩ := act_same action _
      exact ⟨status.trans inductionHypothesis.1, log.trans inductionHypothesis.2.1,
        terminated.trans inductionHypothesis.2.2⟩

/-- Actions are steps of the connection. -/
theorem Acted.reaches (procedure : MessageProcedure κ ε) {conn later : ConnectionImpl κ}
    (acted : Acted conn later) (running : conn.terminated = none) :
    Reaches (ConnectionImpl.step procedure) anyStep conn later := by
  induction acted with
  | refl => exact .start
  | tail earlier last inductionHypothesis =>
      obtain ⟨action, rfl⟩ := last
      exact .step inductionHypothesis rfl
        (act_step procedure action ((Acted.same earlier).2.2.trans running))

end

section

variable {limit : Nat} {conns : Fin limit → ConnectionImpl LobbyHandler}

/-- The outputs that a connection sees, one behind the other. -/
theorem deliver_actions (conns : Fin limit → ConnectionImpl LobbyHandler) (conn : Fin limit)
    (outputs : List (ServerOutput (Fin limit))) :
    deliver conns outputs conn = afterActions (Delivery.clientActions conn outputs) (conns conn) := by
  induction outputs generalizing conns with
  | nil => rfl
  | cons output outputs inductionHypothesis =>
      cases output with
      | client other action =>
          rw [deliver, inductionHypothesis, Delivery.clientActions]
          by_cases same : other = conn
          · subst same
            rw [if_pos rfl, afterActions_cons, Function.update_self]
          · rw [if_neg same, Function.update_of_ne (Ne.symm same)]
      | broker session action => exact inductionHypothesis conns

variable {J : Type} {json : ServerJson J} {ids : Identities (Fin limit)} {clientVersion : Int}
  {keepAliveTime : Nat} {connector : Option ConnectOutcome}

/-- What some calls of the server do to a connection. -/
def actionsFor (conn : Fin limit) (calls : ServerCalls limit) : List Action :=
  calls.flatMap fun call => Delivery.clientActions conn call.2

theorem actionsFor_nil {conn : Fin limit} {calls : ServerCalls limit}
    (untouched : ∀ entry ∈ calls, ∀ action, .client conn action ∉ entry.2) : actionsFor conn calls = [] :=
  List.flatMap_eq_nil_iff.mpr fun entry member =>
    List.eq_nil_iff_forall_not_mem.mpr fun action given =>
      untouched entry member action (mem_clientActions.mp given)

/-- Some calls of the server: they are a run of the server, the acceptor does not see them, and they act on
    connections that they have outputs for. -/
theorem serve_run {node later : LobbyNode limit} {inputs : List (ServerInput (Fin limit))}
    {calls : ServerCalls limit}
    (ran : runTrace (LobbyNode.serve json ids clientVersion) node inputs = .ok (later, calls)) :
    runTrace (LobbyServer.step json ids clientVersion) node.server inputs = .ok (later.server, calls) ∧
      later.acceptor = node.acceptor ∧
      ∀ conn, later.conns conn = afterActions (actionsFor conn calls) (node.conns conn) := by
  induction inputs generalizing node calls with
  | nil =>
      cases ran
      exact ⟨rfl, rfl, fun conn => rfl⟩
  | cons input inputs inductionHypothesis =>
      obtain ⟨next, outputs, rest, stepped, continued, rfl⟩ := runTrace_cons.mp ran
      unfold LobbyNode.serve at stepped
      split at stepped
      · cases stepped
      · rename_i server outputs served
        cases stepped
        obtain ⟨serverRan, acceptor, conns⟩ := inductionHypothesis continued
        refine ⟨runTrace_cons.mpr ⟨_, _, _, served, serverRan, rfl⟩, acceptor, fun conn => ?_⟩
        change later.conns conn = afterActions (_ ++ actionsFor conn rest) (node.conns conn)
        rw [conns conn, afterActions_append, ← deliver_actions]

/-- What the server can do, the node can serve. -/
theorem serve_runs {node : LobbyNode limit} {inputs : List (ServerInput (Fin limit))}
    {server : LobbyServer (Fin limit)} {calls : ServerCalls limit}
    (ran : runTrace (LobbyServer.step json ids clientVersion) node.server inputs = .ok (server, calls)) :
    ∃ later, runTrace (LobbyNode.serve json ids clientVersion) node inputs = .ok (later, calls) := by
  induction inputs generalizing node calls with
  | nil =>
      cases ran
      exact ⟨node, rfl⟩
  | cons input inputs inductionHypothesis =>
      obtain ⟨next, outputs, rest, stepped, continued, rfl⟩ := runTrace_cons.mp ran
      have served : LobbyNode.serve json ids clientVersion node input =
          .ok ({ node with server := next, conns := deliver node.conns outputs }, outputs) := by
        rw [LobbyNode.serve, stepped]
      obtain ⟨later, serves⟩ := @inductionHypothesis
        { node with server := next, conns := deliver node.conns outputs } _ continued
      exact ⟨later, runTrace_cons.mpr ⟨_, _, _, served, serves, rfl⟩⟩

/-! ### Steps of the node -/

/-- What a step of the node can do. -/
inductive NodeStep (json : ServerJson J) (ids : Identities (Fin limit)) (clientVersion : Int)
    (node : LobbyNode limit) : LobbyNode limit → ServerCalls limit → Prop where
  /-- The input is not possible. -/
  | idles : NodeStep json ids clientVersion node node []
  /-- An accept has failed; there will be no other. -/
  | refuses {number : Nat} {others : List Nat} (accepting : node.acceptor.accepting = number :: others) :
      NodeStep json ids clientVersion node
        { node with acceptor := { node.acceptor with accepting := others } } []
  | accepts {conn : Fin limit} {others : List Nat} {around : Circumstances (Fin limit)}
      {acceptor : NetServiceAcceptor} {served : LobbyNode limit}
      {calls : ServerCalls limit}
      (accepting : node.acceptor.accepting = conn.val :: others)
      (next : acceptor.accepting = others ++ [node.acceptor.created])
      (created : acceptor.created = node.acceptor.created + 1)
      (serves : runTrace (LobbyNode.serve json ids clientVersion) { node with acceptor := acceptor }
        [⟨.onAccept conn, around⟩] = .ok (served, calls)) :
      NodeStep json ids clientVersion node
        { served with conns := Function.update served.conns conn (served.conns conn).startAccept } calls
  | happens {conn : Fin limit} {label : Label Unit} {around : Nat → Circumstances (Fin limit)}
      {later : ConnectionImpl LobbyHandler} {served : LobbyNode limit}
      {calls : ServerCalls limit}
      (notUser : isUserCall label = false) (created : conn.val < node.acceptor.created)
      (stepped : (node.conns conn).step nodeProcedure label = some later)
      (serves : runTrace (LobbyNode.serve json ids clientVersion)
        { node with conns := Function.update node.conns conn later }
        (callsAround around ((later.log.drop (node.conns conn).log.length).filterMap (serverCall conn))) =
          .ok (served, calls))
      (running : later.terminated = none) : NodeStep json ids clientVersion node served calls
  | obeys {call : BrokerCall} {around : Circumstances (Fin limit)} {served : LobbyNode limit}
      {calls : ServerCalls limit}
      (serves : runTrace (LobbyNode.serve json ids clientVersion) node [⟨call.event, around⟩] =
        .ok (served, calls)) : NodeStep json ids clientVersion node served calls

/-- Every step that does not fail is one of these. -/
theorem node_step_cases {node next : LobbyNode limit} {input : NodeInput limit}
    {calls : ServerCalls limit}
    (stepped : LobbyNode.step json ids clientVersion node input = .ok (next, calls)) :
    NodeStep json ids clientVersion node next calls := by
  obtain ⟨event, around⟩ := input
  cases event with
  | accept completion =>
      simp only [LobbyNode.step, LobbyNode.accept] at stepped
      split at stepped
      · cases stepped
        exact .idles
      · rename_i number others accepting
        split at stepped
        · rename_i numbered
          have completed : node.acceptor.complete completion =
              NetServiceAcceptor.acceptHandler completion number
                { node.acceptor with accepting := others } := by
            rw [NetServiceAcceptor.complete, accepting]
          by_cases succeeds : completion.ec = noError
          · rw [if_pos succeeds] at stepped
            split at stepped
            · cases stepped
            · rename_i served calls serves
              split at stepped
              · cases stepped
              · rename_i starts
                cases stepped
                have accepting : node.acceptor.accepting =
                    (⟨number, numbered⟩ : Fin limit).val :: others := accepting
                refine .accepts accepting ?_ ?_ serves
                · rw [completed, NetServiceAcceptor.acceptHandler, if_pos succeeds, if_neg starts]
                  rfl
                · rw [completed, NetServiceAcceptor.acceptHandler, if_pos succeeds, if_neg starts]
                  rfl
          · rw [if_neg succeeds, completed, NetServiceAcceptor.acceptHandler, if_neg succeeds] at stepped
            cases stepped
            exact .refuses accepting
        · cases stepped
          exact .idles
  | connection conn label =>
      simp only [LobbyNode.step, LobbyNode.connection] at stepped
      split at stepped
      · cases stepped
        exact .idles
      · rename_i possible
        obtain ⟨notUser, created⟩ := not_or.mp possible
        split at stepped
        · cases stepped
          exact .idles
        · rename_i later taken
          split at stepped
          · cases stepped
          · rename_i served calls serves
            split at stepped
            · cases stepped
            · rename_i running
              cases stepped
              exact .happens (Bool.eq_false_of_not_eq_true notUser) (Nat.lt_of_not_le created) taken
                serves running
  | broker call => exact .obeys stepped

/-- An accept succeeds when the server's `onAccept` does. -/
theorem accept_step {node : LobbyNode limit} {conn : Fin limit} {others : List Nat}
    {around : Nat → Circumstances (Fin limit)} {server : LobbyServer (Fin limit)} {calls : ServerCalls limit}
    (accepting : node.acceptor.accepting = conn.val :: others)
    (ran : runTrace (LobbyServer.step json ids clientVersion) node.server
      (callsAround around [.onAccept conn]) = .ok (server, calls)) :
    ∃ next, LobbyNode.step json ids clientVersion node ⟨.accept ⟨noError, false⟩, around⟩ =
        .ok (next, calls) ∧ next.server = server ∧
      next.acceptor = node.acceptor.complete ⟨noError, false⟩ ∧
      next.conns conn = (afterActions (actionsFor conn calls) (node.conns conn)).startAccept := by
  obtain ⟨served, serves⟩ := @serve_runs limit J json ids clientVersion
    { node with acceptor := node.acceptor.complete ⟨noError, false⟩ } _ _ _ ran
  obtain ⟨serverRan, acceptor, conns⟩ := serve_run serves
  rw [ran] at serverRan
  cases serverRan
  refine ⟨{ served with conns := Function.update served.conns conn (served.conns conn).startAccept },
    ?_, rfl, acceptor, ?_⟩
  · simp only [LobbyNode.step, LobbyNode.accept, accepting, dif_pos conn.isLt, serves]
    rfl
  · change Function.update served.conns conn _ conn = _
    rw [Function.update_self, conns conn]

/-- A step of a connection succeeds when the calls of the server do that its events make. -/
theorem connection_step {node : LobbyNode limit} {conn : Fin limit} {label : Label Unit}
    {around : Nat → Circumstances (Fin limit)} {later : ConnectionImpl LobbyHandler}
    {server : LobbyServer (Fin limit)} {calls : ServerCalls limit} (notUser : isUserCall label = false)
    (created : conn.val < node.acceptor.created)
    (taken : (node.conns conn).step nodeProcedure label = some later) (running : later.terminated = none)
    (ran : runTrace (LobbyServer.step json ids clientVersion) node.server
      (callsAround around ((later.log.drop (node.conns conn).log.length).filterMap (serverCall conn))) =
        .ok (server, calls)) :
    ∃ next, LobbyNode.step json ids clientVersion node ⟨.connection conn label, around⟩ =
        .ok (next, calls) ∧ next.server = server ∧ next.acceptor = node.acceptor ∧
      next.conns conn = afterActions (actionsFor conn calls) later := by
  obtain ⟨served, serves⟩ := @serve_runs limit J json ids clientVersion
    { node with conns := Function.update node.conns conn later } _ _ _ ran
  obtain ⟨serverRan, acceptor, conns⟩ := serve_run serves
  rw [ran] at serverRan
  cases serverRan
  have possible : ¬ (isUserCall label = true ∨ node.acceptor.created ≤ conn.val) := by
    rw [notUser]
    exact not_or.mpr ⟨nofun, Nat.not_le_of_lt created⟩
  refine ⟨served, ?_, rfl, acceptor, ?_⟩
  · simp only [LobbyNode.step, LobbyNode.connection, if_neg possible, taken, serves, running]
  · rw [conns conn]
    exact congrArg _ (Function.update_self ..)

/-- The calls of a step are a run of the server. -/
theorem NodeStep.serves {node next : LobbyNode limit}
    {calls : ServerCalls limit}
    (took : NodeStep json ids clientVersion node next calls) :
    runTrace (LobbyServer.step json ids clientVersion) node.server (calls.map Prod.fst) =
      .ok (next.server, calls) := by
  have served : ∀ {before after : LobbyNode limit} {inputs : List (ServerInput (Fin limit))},
      runTrace (LobbyNode.serve json ids clientVersion) before inputs = .ok (after, calls) →
      runTrace (LobbyServer.step json ids clientVersion) before.server (calls.map Prod.fst) =
        .ok (after.server, calls) := by
    intro before after inputs ran
    rw [runTrace_inputs ran]
    exact (serve_run ran).1
  cases took with
  | idles => rfl
  | refuses accepting => rfl
  | accepts accepting next created serves =>
      have ran := served serves
      exact ran
  | happens notUser created stepped serves running =>
      have ran := served serves
      exact ran
  | obeys serves => exact served serves

/-- The calls that a run of the node makes, each with what it put out. -/
def callsMade (trace : List (NodeInput limit × ServerCalls limit)) : ServerCalls limit :=
  trace.flatMap Prod.snd

theorem callsMade_snoc (trace : List (NodeInput limit × ServerCalls limit)) (input : NodeInput limit)
    (calls : ServerCalls limit) : callsMade (trace ++ [(input, calls)]) = callsMade trace ++ calls := by
  simp [callsMade]

/-- A run of the node is a run of its server. -/
theorem node_serves {inputs : List (NodeInput limit)} {node : LobbyNode limit}
    {trace : List (NodeInput limit × ServerCalls limit)}
    (ran : LobbyNode.run json ids clientVersion keepAliveTime connector inputs = .ok (node, trace)) :
    LobbyServer.run json ids clientVersion connector ((callsMade trace).map Prod.fst) =
      .ok (node.server, callsMade trace) :=
  runTrace_coarse LobbyNode.server (fun stepped => (node_step_cases stepped).serves) ran

/-! ### What a connection tells the server -/

/-- What the events of one step of a connection mean for the server. -/
inductive Emits (conn : Fin limit) (before later : ConnectionImpl LobbyHandler) :
    List (Event LobbyHandler) → Prop where
  | nothing {events : List (Event LobbyHandler)} (quiet : events.filterMap (serverCall conn) = [])
      (status : later.status = .close ↔ before.status = .close) : Emits conn before later events
  | serves {events : List (Event LobbyHandler)} (opened : before.status = .opened)
      (still : later.status = .opened)
      (own : ∀ event ∈ events.filterMap (serverCall conn),
        caller event = some conn ∧ event ≠ .onAccept conn ∧ event ≠ .onClose conn) :
      Emits conn before later events
  | closes (notYet : before.status ≠ .close) (closed : later.status = .close) :
      Emits conn before later [.onClose]

/-- The calls behind the events of a parser run. -/
theorem serverCall_call {conn : Fin limit} {event : ServerEvent (Fin limit)} {call : Call LobbyHandler}
    (isCall : serverCall conn (.call call) = some event) :
    caller event = some conn ∧ event ≠ .onAccept conn ∧ event ≠ .onClose conn := by
  cases call with
  | handler kind size body =>
      cases kind with
      | readJsonPacket =>
          cases isCall
          exact ⟨rfl, nofun, nofun⟩
      | heartBeat => cases isCall
  | noHandler body =>
      cases isCall
      exact ⟨rfl, nofun, nofun⟩

theorem serverCalls_parsed {conn : Fin limit} {event : ServerEvent (Fin limit)} {bytes : List UInt8}
    {calls : List (Call LobbyHandler)}
    (member : event ∈ (Event.parsed bytes :: calls.map Event.call).filterMap (serverCall conn)) :
    caller event = some conn ∧ event ≠ .onAccept conn ∧ event ≠ .onClose conn := by
  obtain ⟨source, inLog, isCall⟩ := List.mem_filterMap.mp member
  rcases List.mem_cons.mp inLog with rfl | inCalls
  · cases isCall
  · obtain ⟨call, -, rfl⟩ := List.mem_map.mp inCalls
    exact serverCall_call isCall

/-- The calls behind an event of a connection are for this connection. -/
theorem serverCall_caller {conn : Fin limit} {event : Event LobbyHandler} {call : ServerEvent (Fin limit)}
    (made : serverCall conn event = some call) : caller call = some conn := by
  cases event with
  | received chunk => cases made
  | parsed bytes => cases made
  | call call => exact (serverCall_call made).1
  | onExpiredSession =>
      cases made
      rfl
  | onClose =>
      cases made
      rfl

theorem callsAround_event {around : Nat → Circumstances (Fin limit)}
    {events : List (ServerEvent (Fin limit))} {input : ServerInput (Fin limit)}
    (member : input ∈ callsAround around events) : input.event ∈ events := by
  obtain ⟨index, inside, rfl⟩ := List.mem_mapIdx.mp member
  exact List.getElem_mem inside

/-- A handler's events. -/
theorem ran_emits (conn : Fin limit) {shutdownOk : Bool} {handler : Handler} {index : Nat}
    {others : List Handler} {before later : ConnectionImpl LobbyHandler} (once : CloseOnce before)
    (picked : pick index before.strand = some (handler, others))
    (ran : Ran nodeProcedure shutdownOk () handler { before with strand := others } later) :
    ∃ events, later.log = before.log ++ events ∧ Emits conn before later events := by
  have unseen : later.log = before.log → (later.status = .close ↔ before.status = .close) →
      ∃ events, later.log = before.log ++ events ∧ Emits conn before later events :=
    fun log status => ⟨[], by rw [log, List.append_nil], .nothing rfl status⟩
  cases ran with
  | reads isRead filled timers =>
      exact ⟨_, timers.same.log, .nothing rfl (by rw [timers.same.status])⟩
  | overruns isRead filled => exact unseen rfl Iff.rfl
  | retries isRead failed pending => exact unseen rfl Iff.rfl
  | beginsClosing failed shutdown opened timers =>
      have wasOpened : before.status = .opened := opened
      refine unseen timers.same.log ?_
      rw [timers.same.status, wasOpened]
      exact iff_of_false nofun nofun
  | staysAsItWas failed reason timers =>
      exact unseen timers.same.log (by rw [timers.same.status])
  | parses isDispatch opened returned =>
      exact ⟨_, rfl, .serves opened opened fun event member => serverCalls_parsed member⟩
  | raises isDispatch opened raised =>
      exact ⟨_, rfl, .serves opened opened fun event member => serverCalls_parsed member⟩
  | drops isDispatch notOpened => exact unseen rfl Iff.rfl
  | closes asked shutdown timers =>
      obtain ⟨-, notNotified, -⟩ := once.asked picked asked
      refine ⟨_, timers.same.log, .closes (fun closed => ?_) timers.same.status⟩
      rw [(once.close closed).2] at notNotified
      cases notNotified
  | closeFails asked failed => exact unseen rfl Iff.rfl
  | expires isExpiry opened =>
      refine ⟨_, rfl, .serves opened opened fun event member => ?_⟩
      cases List.mem_singleton.mp member
      exact ⟨rfl, nofun, nofun⟩
  | idles idle timers => exact unseen timers.same.log (by rw [timers.same.status])

/-- The events of a step. -/
theorem step_emits (conn : Fin limit) {before later : ConnectionImpl LobbyHandler} {label : Label Unit}
    (once : CloseOnce before) (taken : before.step nodeProcedure label = some later) :
    ∃ events, later.log = before.log ++ events ∧ Emits conn before later events := by
  have unseen : later.log = before.log → later.status = before.status →
      ∃ events, later.log = before.log ++ events ∧ Emits conn before later events :=
    fun log status => ⟨[], by rw [log, List.append_nil], .nothing rfl (by rw [status])⟩
  cases (step_took taken).2 with
  | arrives isRead readable => exact unseen rfl rfl
  | breaksOff isRead reading error => exact unseen rfl rfl
  | sends isSend => exact unseen rfl rfl
  | refuses isSend => exact unseen rfl rfl
  | transfers isTransfer outstanding usable => exact unseen rfl rfl
  | finishes isDone picked => exact unseen rfl rfl
  | gives isFailure picked error => exact unseen rfl rfl
  | reserves isReserve timers => exact unseen timers.same.log timers.same.status
  | expires isExpiry timers => exact unseen timers.same.log timers.same.status
  | reserveExpires isExpiry timers => exact unseen timers.same.log timers.same.status
  | queuesClose isPosted waiting => exact unseen rfl rfl
  | runs isRun picked ran => exact ran_emits conn once picked ran

/-! ### Connections that wait to be accepted -/

/-- A connection before its accept: as it was created, but its keep-alive timer may have expired, and the
    expiry may have found nothing to do. -/
inductive AwaitingAccept (keepAliveTime : Nat) : ConnectionImpl LobbyHandler → Prop where
  | created : AwaitingAccept keepAliveTime (.created nodeProcedure keepAliveTime false)
  | expired (timed : keepAliveTime ≠ 0) : AwaitingAccept keepAliveTime (.created nodeProcedure keepAliveTime true)
  | ignored (timed : keepAliveTime ≠ 0) : AwaitingAccept keepAliveTime
      { ConnectionImpl.created nodeProcedure keepAliveTime true with strand := [] }

/-- The three states of a waiting connection, field by field. -/
theorem AwaitingAccept.fields {conn : ConnectionImpl LobbyHandler} (waiting : AwaitingAccept keepAliveTime conn) :
    conn.log = [] ∧ conn.status = .close ∧ conn.terminated = none ∧ conn.reading = false ∧
      conn.writes = [] ∧ conn.posted = 0 ∧ conn.closeReserveTimer = false ∧
      (conn.strand = [] ∨ conn.strand = [.onExpireTime noError]) := by
  cases waiting with
  | created =>
      by_cases forever : keepAliveTime = 0
      · simp [ConnectionImpl.created, ConnectionImpl.renewExpireTime, forever]
      · simp [ConnectionImpl.created, ConnectionImpl.renewExpireTime, ConnectionImpl.cancelKeepTimer, forever]
  | expired timed =>
      simp [ConnectionImpl.created, ConnectionImpl.renewExpireTime, ConnectionImpl.cancelKeepTimer, timed]
  | ignored timed =>
      simp [ConnectionImpl.created, ConnectionImpl.renewExpireTime, ConnectionImpl.cancelKeepTimer, timed]

theorem AwaitingAccept.expires {conn : ConnectionImpl LobbyHandler} (waiting : AwaitingAccept keepAliveTime conn)
    (armed : conn.keepTimer = true) : AwaitingAccept keepAliveTime
      { conn with keepTimer := false, strand := conn.strand ++ [.onExpireTime noError] } := by
  cases waiting with
  | created =>
      by_cases forever : keepAliveTime = 0
      · simp [ConnectionImpl.created, ConnectionImpl.renewExpireTime, forever] at armed
      · have same : AwaitingAccept keepAliveTime (.created nodeProcedure keepAliveTime true) :=
          .expired forever
        simpa [ConnectionImpl.created, ConnectionImpl.renewExpireTime, ConnectionImpl.cancelKeepTimer,
          forever] using same
  | expired timed =>
      simp [ConnectionImpl.created, ConnectionImpl.renewExpireTime, ConnectionImpl.cancelKeepTimer, timed] at armed
  | ignored timed =>
      simp [ConnectionImpl.created, ConnectionImpl.renewExpireTime, ConnectionImpl.cancelKeepTimer, timed] at armed

theorem AwaitingAccept.ignores {conn : ConnectionImpl LobbyHandler} (waiting : AwaitingAccept keepAliveTime conn)
    (queued : conn.strand = [.onExpireTime noError]) :
    AwaitingAccept keepAliveTime { conn with strand := [] } := by
  cases waiting with
  | created =>
      by_cases forever : keepAliveTime = 0
      · simp [ConnectionImpl.created, ConnectionImpl.renewExpireTime, forever] at queued
      · simp [ConnectionImpl.created, ConnectionImpl.renewExpireTime, ConnectionImpl.cancelKeepTimer,
          forever] at queued
  | expired timed => exact .ignored timed
  | ignored timed => cases queued

/-- Only the timer can stir a waiting connection. -/
theorem AwaitingAccept.step {conn later : ConnectionImpl LobbyHandler} {label : Label Unit}
    (waiting : AwaitingAccept keepAliveTime conn) (notUser : isUserCall label = false)
    (stepped : conn.step nodeProcedure label = some later) : AwaitingAccept keepAliveTime later := by
  obtain ⟨-, status, running, reading, writes, posted, reserve, strand⟩ := waiting.fields
  rw [ConnectionImpl.step.eq_def, if_neg (not_not.mpr running)] at stepped
  cases label with
  | readSome chunk => simp [ConnectionImpl.Readable, reading] at stepped
  | readFails ec => simp [reading] at stepped
  | send msg => cases notUser
  | sendRaw sendBuffer => cases notUser
  | sendPacket sendBuffer => cases notUser
  | closeReserve => cases notUser
  | transfer index count => simp [writes] at stepped
  | writeDone index => simp [writes, pick] at stepped
  | writeFails index ec => simp [writes, pick] at stepped
  | keepExpires =>
      simp only at stepped
      split at stepped
      · rename_i armed
        cases stepped
        exact waiting.expires armed
      · cases stepped
  | closeReserveExpires => simp [reserve] at stepped
  | iosRuns => simp [posted] at stepped
  | run index shutdownOk surroundings =>
      rcases strand with nothing | queued
      · simp [nothing, pick] at stepped
      · cases index with
        | zero =>
            simp only [queued, pick, Option.some.injEq] at stepped
            rw [← stepped]
            simpa [ConnectionImpl.runHandler, ConnectionImpl.onExpireTime, status] using
              waiting.ignores queued
        | succ index => simp [queued, pick] at stepped

/-- When it is started, it is a started connection. -/
theorem AwaitingAccept.starts {conn : ConnectionImpl LobbyHandler} (waiting : AwaitingAccept keepAliveTime conn) :
    ∃ expired, Reaches (ConnectionImpl.step nodeProcedure) anyStep
      (ConnectionImpl.started nodeProcedure keepAliveTime expired) conn.startAccept := by
  cases waiting with
  | created => exact ⟨false, .start⟩
  | expired timed => exact ⟨true, .start⟩
  | ignored timed =>
      -- The wait that was cancelled at the start has been run off by then.
      refine ⟨false, .step .start rfl (?_ : ConnectionImpl.step nodeProcedure _
        (.run 0 true ()) = some _)⟩
      simp [ConnectionImpl.step.eq_def, ConnectionImpl.started, ConnectionImpl.created, ConnectionImpl.startAccept,
        ConnectionImpl.renewExpireTime, ConnectionImpl.cancelKeepTimer, timed, pick,
        ConnectionImpl.runHandler, ConnectionImpl.onExpireTime, operationAborted, noError]

/-- It does not matter whether a packet is sent before or behind the start. -/
theorem startAccept_sendPacket (packet : List UInt8) (conn : ConnectionImpl LobbyHandler) :
    (conn.sendPacket packet).startAccept = conn.startAccept.sendPacket packet := by
  have manip : conn.startAccept.msgManipulator = conn.msgManipulator :=
    (OnlyTimers.renewExpireTime _).same.msgManipulator
  rw [ConnectionImpl.sendPacket, ConnectionImpl.sendPacket, manip]
  split
  · rfl
  · by_cases forever : conn.keepAliveTime = 0
    · simp [ConnectionImpl.startAccept, ConnectionImpl.asyncWrite, ConnectionImpl.renewExpireTime,
        forever]
    · by_cases armed : conn.keepTimer = true
      · simp [ConnectionImpl.startAccept, ConnectionImpl.asyncWrite, ConnectionImpl.renewExpireTime,
          ConnectionImpl.cancelKeepTimer, forever, armed]
      · simp [ConnectionImpl.startAccept, ConnectionImpl.asyncWrite, ConnectionImpl.renewExpireTime,
          ConnectionImpl.cancelKeepTimer, forever, armed]

/-- Packets that are sent before the start may as well be sent behind it. -/
theorem startAccept_packets {actions : List Action} (conn : ConnectionImpl LobbyHandler)
    (packets : ∀ action ∈ actions, ∃ packet, action = .sendPacket packet) :
    Acted conn.startAccept (afterActions actions conn).startAccept := by
  induction actions generalizing conn with
  | nil => exact .refl
  | cons action actions inductionHypothesis =>
      obtain ⟨packet, rfl⟩ := packets action List.mem_cons_self
      refine .trans (.single ⟨.sendPacket packet, (startAccept_sendPacket packet conn)⟩) ?_
      exact inductionHypothesis _ fun later member => packets later (List.mem_cons_of_mem _ member)

end

end LobbySvr.Proofs

/-
Module: LobbySvr.Proofs.NodeRuns
Layer: Proofs
Purpose: Runs of the whole process.  What the node does to its server is a run of the server, and what it
  does to a connection is a run of the connection, so that everything that is known of either holds in the
  node.  The calls for a connection follow a protocol: one `onAccept`, then packets and expiries, then at
  most one `onClose`, and nothing behind it.  Hence the registry holds exactly the connections that have
  been accepted and not closed, and no handler ever meets a connection without a user.
Imports: LobbySvr.Proofs.NodeSteps
Trusted boundary: none
Main exports: InPhase, NodeInvariant, nodeInvariant_step, node_invariant, node_protocol,
  node_connections_alone, node_calls_find_user
Open obligations: none
-/
import Mathlib
import LobbySvr.Proofs.NodeSteps

namespace LobbySvr.Proofs

open LobbySvr.Foundation
open LobbySvr.Net
open LobbySvr.Spec
open LobbySvr.Lobby

/-! ### The invariant of the node -/

section

variable {limit : Nat} {J : Type} {json : ServerJson J} {ids : Identities (Fin limit)}
  {clientVersion : Int} {keepAliveTime : Nat} {connector : Option ConnectOutcome}

/-- A connection in a phase of its client. -/
inductive InPhase (keepAliveTime : Nat) (conn : ConnectionImpl LobbyHandler) : Option ClientPhase → Prop where
  | waiting (waits : AwaitingAccept keepAliveTime conn) : InPhase keepAliveTime conn (some .waiting)
  | served {expired : Bool} (reached : Reaches (ConnectionImpl.step nodeProcedure) anyStep
      (ConnectionImpl.started nodeProcedure keepAliveTime expired) conn)
      (running : conn.terminated = none) (notClosed : conn.status ≠ .close) :
      InPhase keepAliveTime conn (some .served)
  | gone {expired : Bool} (reached : Reaches (ConnectionImpl.step nodeProcedure) anyStep
      (ConnectionImpl.started nodeProcedure keepAliveTime expired) conn)
      (running : conn.terminated = none) (closed : conn.status = .close) :
      InPhase keepAliveTime conn (some .gone)

theorem InPhase.phase {conn : ConnectionImpl LobbyHandler} {phase : Option ClientPhase}
    (inPhase : InPhase keepAliveTime conn phase) : ∃ known, phase = some known := by
  cases inPhase with
  | waiting waits => exact ⟨_, rfl⟩
  | served reached running notClosed => exact ⟨_, rfl⟩
  | gone reached running closed => exact ⟨_, rfl⟩

/-- What holds of the node behind some calls. -/
structure NodeInvariant (json : ServerJson J) (ids : Identities (Fin limit)) (clientVersion : Int)
    (keepAliveTime : Nat) (connector : Option ConnectOutcome)
    (calls : ServerCalls limit)
    (node : LobbyNode limit) : Prop where
  serves : LobbyServer.run json ids clientVersion connector (calls.map Prod.fst) =
    .ok (node.server, calls)
  /-- One accept is outstanding, or none. -/
  lone : node.acceptor.accepting.length ≤ 1
  below : ∀ number ∈ node.acceptor.accepting, number < node.acceptor.created
  unaccepted : ∀ conn : Fin limit,
    conn.val ∈ node.acceptor.accepting ∨ node.acceptor.created ≤ conn.val →
      ClientPhase.after conn (calls.map Prod.fst) = some .waiting
  conns : ∀ conn, InPhase keepAliveTime (node.conns conn) (ClientPhase.after conn (calls.map Prod.fst))

theorem nodeInvariant_start :
    NodeInvariant json ids clientVersion keepAliveTime connector []
      (.start keepAliveTime connector) where
  serves := rfl
  lone := Nat.le_refl 1
  below := fun number member => by
    rw [List.mem_singleton.mp member]
    exact Nat.zero_lt_one
  unaccepted := fun _ _ => rfl
  conns := fun _ => .waiting .created

theorem phase_others {calls more : ServerCalls limit}
    {conn : Fin limit} {phase : ClientPhase}
    (follows : ClientPhase.after conn (calls.map Prod.fst) = some phase)
    (others : ∀ entry ∈ more, caller entry.1.event ≠ some conn) :
    ClientPhase.after conn ((calls ++ more).map Prod.fst) = some phase := by
  rw [List.map_append, ClientPhase.after_append, follows]
  refine ClientPhase.foldlM_others fun later inMore => ?_
  obtain ⟨entry, inside, rfl⟩ := List.mem_map.mp inMore
  exact others entry inside

/-- Who is not served gets nothing from calls for others. -/
theorem silent {calls more : ServerCalls limit}
    {server : LobbyServer (Fin limit)} {conn : Fin limit} {phase : ClientPhase}
    (laws : MemberLaws json.toJsonCpp)
    (ran : LobbyServer.run json ids clientVersion connector ((calls ++ more).map Prod.fst) =
      .ok (server, calls ++ more))
    (follows : ClientPhase.after conn (calls.map Prod.fst) = some phase) (notServed : phase ≠ .served)
    (others : ∀ entry ∈ more, caller entry.1.event ≠ some conn) :
    ∀ entry ∈ more, ∀ action, .client conn action ∉ entry.2 := by
  rintro ⟨input, outputs⟩ member action given
  obtain ⟨front, back, rfl⟩ := List.append_of_mem member
  have stepped := server_step_in_run laws ran (List.append_assoc calls front _).symm
  have there : ClientPhase.after conn ((calls ++ front).map Prod.fst) = some phase :=
    phase_others follows fun entry inFront => others entry (List.mem_append_left _ inFront)
  rcases given_by stepped (mem_clientActions.mpr given) with own | ⟨-, present, -⟩
  · exact others _ member own
  · exact notServed ((phase_inside there).mp present)

/-- A connection that no call of a step is for keeps its phase. -/
theorem InPhase.other {calls more : ServerCalls limit}
    {server : LobbyServer (Fin limit)} {conn : Fin limit} {before later : ConnectionImpl LobbyHandler}
    (laws : MemberLaws json.toJsonCpp)
    (ran : LobbyServer.run json ids clientVersion connector ((calls ++ more).map Prod.fst) =
      .ok (server, calls ++ more))
    (others : ∀ entry ∈ more, caller entry.1.event ≠ some conn)
    (acts : later = afterActions (actionsFor conn more) before)
    (inPhase : InPhase keepAliveTime before (ClientPhase.after conn (calls.map Prod.fst))) :
    InPhase keepAliveTime later (ClientPhase.after conn ((calls ++ more).map Prod.fst)) := by
  have acted : Acted before later := acts ▸ afterActions_acted _ _
  obtain ⟨status, -, terminated⟩ := acted.same
  generalize follows : ClientPhase.after conn (calls.map Prod.fst) = phase at inPhase
  obtain ⟨known, rfl⟩ := inPhase.phase
  rw [phase_others follows others]
  cases inPhase with
  | waiting waits =>
      rw [acts, actionsFor_nil (silent laws ran follows nofun others)]
      exact .waiting waits
  | served reached running notClosed =>
      exact .served (reached.trans (acted.reaches nodeProcedure running)) (terminated.trans running)
        (status ▸ notClosed)
  | gone reached running closed =>
      exact .gone (reached.trans (acted.reaches nodeProcedure running)) (terminated.trans running)
        (status.trans closed)

/-- The events of a step of a connection that has been started. -/
theorem started_emits (conn : Fin limit) {expired : Bool} {label : Label Unit}
    {before stepped : ConnectionImpl LobbyHandler}
    (reached : Reaches (ConnectionImpl.step nodeProcedure) anyStep
      (ConnectionImpl.started nodeProcedure keepAliveTime expired) before)
    (taken : before.step nodeProcedure label = some stepped) :
    Emits conn before stepped (stepped.log.drop before.log.length) := by
  have once := (reaches_closeOnce (started_justStarted _ _ expired) reached).1
  obtain ⟨events, log, emits⟩ := step_emits conn once taken
  rw [log, List.drop_left]
  exact emits

/-- The calls of a step of an open connection leave its client served, or end it with the close. -/
theorem Emits.fromServed {conn : Fin limit} {before stepped : ConnectionImpl LobbyHandler}
    {events : List (Event LobbyHandler)} (emitted : Emits conn before stepped events)
    (notClosed : before.status ≠ .close) (around : Nat → Circumstances (Fin limit)) :
    ((callsAround around (events.filterMap (serverCall conn))).foldlM (ClientPhase.next conn) .served =
        some .served ∧ stepped.status ≠ .close) ∨
      ((callsAround around (events.filterMap (serverCall conn))).foldlM (ClientPhase.next conn) .served =
        some .gone ∧ stepped.status = .close) := by
  cases emitted with
  | nothing quiet closes =>
      rw [quiet]
      exact .inl ⟨rfl, fun closed => notClosed (closes.mp closed)⟩
  | serves opened still own =>
      refine .inl ⟨ClientPhase.foldlM_serves fun input member => own _ (callsAround_event member), ?_⟩
      rw [still]
      rintro ⟨⟩
  | closes notYet closed =>
      refine .inr ⟨?_, closed⟩
      change (ClientPhase.next conn .served ⟨.onClose conn, around 0⟩).bind pure = _
      rw [ClientPhase.next_onClose]
      rfl

/-- A closed connection calls the server no more. -/
theorem Emits.fromClosed {conn : Fin limit} {before stepped : ConnectionImpl LobbyHandler}
    {events : List (Event LobbyHandler)} (emitted : Emits conn before stepped events)
    (closed : before.status = .close) :
    events.filterMap (serverCall conn) = [] ∧ stepped.status = .close := by
  cases emitted with
  | nothing quiet closes => exact ⟨quiet, closes.mpr closed⟩
  | serves opened still own => cases opened.symm.trans closed
  | closes notYet closes => exact absurd closed notYet

/-- What happens to a connection takes its client from phase to phase. -/
theorem InPhase.happens {calls more : ServerCalls limit}
    {conn : Fin limit} {label : Label Unit} {around : Nat → Circumstances (Fin limit)}
    {before stepped later : ConnectionImpl LobbyHandler}
    (inPhase : InPhase keepAliveTime before (ClientPhase.after conn (calls.map Prod.fst)))
    (notUser : isUserCall label = false) (taken : before.step nodeProcedure label = some stepped)
    (running : stepped.terminated = none)
    (made : more.map Prod.fst =
      callsAround around ((stepped.log.drop before.log.length).filterMap (serverCall conn)))
    (acts : later = afterActions (actionsFor conn more) stepped) :
    InPhase keepAliveTime later (ClientPhase.after conn ((calls ++ more).map Prod.fst)) ∧
      (ClientPhase.after conn (calls.map Prod.fst) = some .waiting →
        ClientPhase.after conn ((calls ++ more).map Prod.fst) = some .waiting) := by
  have acted : Acted stepped later := acts ▸ afterActions_acted _ _
  obtain ⟨status, -, terminated⟩ := acted.same
  have alive : later.terminated = none := terminated.trans running
  rw [List.map_append, ClientPhase.after_append, made]
  generalize ClientPhase.after conn (calls.map Prod.fst) = phase at inPhase
  -- A connection that has been started takes the step of a connection, and then those of the server.
  have goesOn : ∀ {expired : Bool}, Reaches (ConnectionImpl.step nodeProcedure) anyStep
      (ConnectionImpl.started nodeProcedure keepAliveTime expired) before →
      Reaches (ConnectionImpl.step nodeProcedure) anyStep
        (ConnectionImpl.started nodeProcedure keepAliveTime expired) later :=
    fun reached => (Reaches.step reached rfl taken).trans (acted.reaches nodeProcedure running)
  cases inPhase with
  | waiting waits =>
      have silentStep : stepped.log.drop before.log.length = [] := by
        rw [(waits.step notUser taken).fields.1, List.drop_nil]
      rw [silentStep] at made ⊢
      have none : more = [] := List.map_eq_nil_iff.mp made
      subst none
      rw [acts]
      exact ⟨.waiting (waits.step notUser taken), fun _ => rfl⟩
  | served reached running notClosed =>
      refine ⟨?_, nofun⟩
      rw [Option.bind_some]
      rcases (started_emits conn reached taken).fromServed notClosed around with ⟨stays, opened⟩ | ⟨ends, closed⟩
      · rw [stays]
        exact .served (goesOn reached) alive (status ▸ opened)
      · rw [ends]
        exact .gone (goesOn reached) alive (status.trans closed)
  | gone reached running closed =>
      refine ⟨?_, nofun⟩
      obtain ⟨quiet, still⟩ := (started_emits conn reached taken).fromClosed closed
      rw [quiet]
      exact .gone (goesOn reached) alive (status.trans still)

/-- The connection that is accepted is started, and its client is served from then on. -/
theorem accept_inPhase {calls more : ServerCalls limit}
    {node served : LobbyNode limit} {server : LobbyServer (Fin limit)} {conn : Fin limit}
    {around : Circumstances (Fin limit)} (laws : MemberLaws json.toJsonCpp)
    (ran : LobbyServer.run json ids clientVersion connector ((calls ++ more).map Prod.fst) =
      .ok (server, calls ++ more))
    (waits : ClientPhase.after conn (calls.map Prod.fst) = some .waiting)
    (serves : runTrace (LobbyNode.serve json ids clientVersion) node [⟨.onAccept conn, around⟩] =
      .ok (served, more))
    (inPhase : InPhase keepAliveTime (node.conns conn) (ClientPhase.after conn (calls.map Prod.fst))) :
    InPhase keepAliveTime (served.conns conn).startAccept
      (ClientPhase.after conn ((calls ++ more).map Prod.fst)) := by
  obtain ⟨next, outputs, rest, stepped, continued, rfl⟩ := runTrace_cons.mp serves
  cases continued
  rw [waits] at inPhase
  cases inPhase with
  | waiting waiting =>
      -- All that `onAccept` does to the connection is to send it the welcome.
      have packets : ∀ action ∈ Delivery.clientActions conn outputs,
          ∃ packet, action = .sendPacket packet := by
        rcases accept_cases (server_step_in_run laws ran rfl) with
          ⟨-, nothing⟩ | ⟨-, actions, welcomes, given⟩
        · rw [outputs_nil_of_sorted nothing]
          exact fun _ member => absurd member List.not_mem_nil
        · intro action member
          have own : action ∈ (Delivery.sorted outputs).toClient conn := member
          rw [given] at own
          exact welcome_packets welcomes action (mem_forClient.mp own).2
      have conns : served.conns conn = deliver node.conns outputs conn := by
        unfold LobbyNode.serve at stepped
        split at stepped
        · cases stepped
        · cases stepped
          rfl
      have acted : Acted (node.conns conn).startAccept (served.conns conn).startAccept := by
        rw [conns, deliver_actions]
        exact startAccept_packets (node.conns conn) packets
      obtain ⟨status, -, terminated⟩ := acted.same
      have started := (OnlyTimers.renewExpireTime { node.conns conn with
        msg := newMessageBuffer (node.conns conn).msgManipulator
        reading := true
        status := .opened }).same
      have alive : (node.conns conn).startAccept.terminated = none :=
        started.terminated.trans waiting.fields.2.2.1
      have follows : ClientPhase.after conn
          ((calls ++ [(ServerInput.mk (.onAccept conn) around, outputs)]).map Prod.fst) =
            some .served := by
        rw [List.map_append, ClientPhase.after_append, waits]
        change (ClientPhase.next conn .waiting ⟨.onAccept conn, around⟩).bind pure = _
        rw [ClientPhase.next_onAccept]
        rfl
      obtain ⟨expired, reached⟩ := waiting.starts
      rw [follows]
      refine .served (reached.trans (acted.reaches nodeProcedure alive)) (terminated.trans alive) ?_
      rw [status, ConnectionImpl.startAccept, started.status]
      rintro ⟨⟩

/-- An accept takes the connection that waited into its service, and lets the next one wait. -/
theorem NodeInvariant.accepts {calls more : ServerCalls limit} {node served : LobbyNode limit}
    {acceptor : NetServiceAcceptor} {conn : Fin limit} {others : List Nat}
    {around : Circumstances (Fin limit)} (laws : MemberLaws json.toJsonCpp)
    (invariant : NodeInvariant json ids clientVersion keepAliveTime connector calls node)
    (ran : LobbyServer.run json ids clientVersion connector ((calls ++ more).map Prod.fst) =
      .ok (served.server, calls ++ more))
    (accepting : node.acceptor.accepting = conn.val :: others)
    (next : acceptor.accepting = others ++ [node.acceptor.created])
    (created : acceptor.created = node.acceptor.created + 1)
    (serves : runTrace (LobbyNode.serve json ids clientVersion) { node with acceptor := acceptor }
      [⟨.onAccept conn, around⟩] = .ok (served, more)) :
    NodeInvariant json ids clientVersion keepAliveTime connector (calls ++ more)
      { served with conns := Function.update served.conns conn (served.conns conn).startAccept } := by
  obtain ⟨-, sameAcceptor, each⟩ := serve_run serves
  have made := runTrace_inputs serves
  obtain ⟨-, lone, below, unaccepted, conns⟩ := invariant
  rw [accepting] at lone below unaccepted
  have noOther : others = [] := List.length_eq_zero_iff.mp (by simpa using lone)
  subst noOther
  have waits := unaccepted conn (.inl List.mem_cons_self)
  -- The calls are for the connection that is accepted.
  have foreign : ∀ other, other ≠ conn → ∀ entry ∈ more, caller entry.1.event ≠ some other := by
    intro other different entry member own
    have single : entry.1 ∈ [⟨.onAccept conn, around⟩] := made ▸ List.mem_map_of_mem member
    rw [List.mem_singleton.mp single] at own
    exact different (Option.some.inj own).symm
  refine ⟨ran, ?_, ?_, ?_, ?_⟩
  · change served.acceptor.accepting.length ≤ 1
    rw [sameAcceptor, next]
    exact Nat.le_refl 1
  · change ∀ number ∈ served.acceptor.accepting, number < served.acceptor.created
    rw [sameAcceptor, next, created]
    intro number member
    rw [List.mem_singleton.mp member]
    exact Nat.lt_succ_self _
  · change ∀ other : Fin limit, other.val ∈ served.acceptor.accepting ∨
      served.acceptor.created ≤ other.val → _
    rw [sameAcceptor, next, created]
    intro other waiting
    have beyond : node.acceptor.created ≤ other.val := by
      rcases waiting with member | later
      · exact Nat.le_of_eq (List.mem_singleton.mp member).symm
      · exact Nat.le_of_succ_le later
    have different : other ≠ conn := by
      rintro rfl
      exact absurd (below other.val List.mem_cons_self) (Nat.not_lt.mpr beyond)
    exact phase_others (unaccepted other (.inr beyond)) (foreign other different)
  · intro other
    change InPhase keepAliveTime
      (Function.update served.conns conn (served.conns conn).startAccept other) _
    by_cases same : other = conn
    · subst same
      rw [Function.update_self]
      exact accept_inPhase laws ran waits serves (conns other)
    · rw [Function.update_of_ne same]
      exact (conns other).other laws ran (foreign other same) (each other)

/-- A step of one connection, with the calls that its events make, leaves the others in their phases. -/
theorem NodeInvariant.happens {calls more : ServerCalls limit} {node served : LobbyNode limit}
    {conn : Fin limit} {label : Label Unit} {around : Nat → Circumstances (Fin limit)}
    {stepped : ConnectionImpl LobbyHandler} (laws : MemberLaws json.toJsonCpp)
    (invariant : NodeInvariant json ids clientVersion keepAliveTime connector calls node)
    (ran : LobbyServer.run json ids clientVersion connector ((calls ++ more).map Prod.fst) =
      .ok (served.server, calls ++ more))
    (notUser : isUserCall label = false)
    (taken : (node.conns conn).step nodeProcedure label = some stepped)
    (serves : runTrace (LobbyNode.serve json ids clientVersion)
      { node with conns := Function.update node.conns conn stepped }
      (callsAround around ((stepped.log.drop (node.conns conn).log.length).filterMap (serverCall conn))) =
        .ok (served, more))
    (running : stepped.terminated = none) :
    NodeInvariant json ids clientVersion keepAliveTime connector (calls ++ more) served := by
  obtain ⟨-, sameAcceptor, each⟩ := serve_run serves
  have made := runTrace_inputs serves
  obtain ⟨-, lone, below, unaccepted, conns⟩ := invariant
  have foreign : ∀ other, other ≠ conn → ∀ entry ∈ more, caller entry.1.event ≠ some other := by
    intro other different entry member own
    have inside : entry.1 ∈ callsAround around _ := made ▸ List.mem_map_of_mem member
    obtain ⟨event, -, isCall⟩ := List.mem_filterMap.mp (callsAround_event inside)
    exact different (Option.some.inj (own.symm.trans (serverCall_caller isCall)))
  have ownStep : Function.update node.conns conn stepped conn = stepped := Function.update_self ..
  have otherStep : ∀ other, other ≠ conn →
      Function.update node.conns conn stepped other = node.conns other :=
    fun other different => Function.update_of_ne different ..
  simp only at each
  have subject := each conn
  rw [ownStep] at subject
  have subject := (conns conn).happens notUser taken running made subject
  refine ⟨ran, sameAcceptor ▸ lone, sameAcceptor ▸ below, ?_, ?_⟩
  · rw [sameAcceptor]
    intro other waiting
    by_cases same : other = conn
    · subst same
      exact subject.2 (unaccepted other waiting)
    · exact phase_others (unaccepted other waiting) (foreign other same)
  · intro other
    by_cases same : other = conn
    · subst same
      exact subject.1
    · have around := each other
      rw [otherStep other same] at around
      exact (conns other).other laws ran (foreign other same) around

/-- A call of the broker's connector is for no client. -/
theorem NodeInvariant.obeys {calls more : ServerCalls limit} {node served : LobbyNode limit}
    {call : BrokerCall} {around : Circumstances (Fin limit)} (laws : MemberLaws json.toJsonCpp)
    (invariant : NodeInvariant json ids clientVersion keepAliveTime connector calls node)
    (ran : LobbyServer.run json ids clientVersion connector ((calls ++ more).map Prod.fst) =
      .ok (served.server, calls ++ more))
    (serves : runTrace (LobbyNode.serve json ids clientVersion) node [⟨call.event, around⟩] =
      .ok (served, more)) :
    NodeInvariant json ids clientVersion keepAliveTime connector (calls ++ more) served := by
  obtain ⟨-, sameAcceptor, each⟩ := serve_run serves
  have made := runTrace_inputs serves
  obtain ⟨-, lone, below, unaccepted, conns⟩ := invariant
  have foreign : ∀ conn, ∀ entry ∈ more, caller entry.1.event ≠ some conn := by
    intro conn entry member own
    have single : entry.1 ∈ [⟨call.event, around⟩] := made ▸ List.mem_map_of_mem member
    rw [List.mem_singleton.mp single] at own
    cases call with
    | _ => cases own
  exact ⟨ran, sameAcceptor ▸ lone, sameAcceptor ▸ below,
    fun conn waiting => phase_others (unaccepted conn (sameAcceptor ▸ waiting)) (foreign conn),
    fun conn => (conns conn).other laws ran (foreign conn) (each conn)⟩

/-- One step of the node. -/
theorem nodeInvariant_step {calls more : ServerCalls limit}
    {node next : LobbyNode limit} (laws : MemberLaws json.toJsonCpp)
    (invariant : NodeInvariant json ids clientVersion keepAliveTime connector calls node)
    (took : NodeStep json ids clientVersion node next more) :
    NodeInvariant json ids clientVersion keepAliveTime connector (calls ++ more) next := by
  have ran : LobbyServer.run json ids clientVersion connector ((calls ++ more).map Prod.fst) =
      .ok (next.server, calls ++ more) := by
    rw [List.map_append]
    exact runTrace_append.mpr ⟨_, _, _, invariant.serves, took.serves, rfl⟩
  cases took with
  | idles =>
      rw [List.append_nil]
      exact invariant
  | refuses accepting =>
      obtain ⟨-, lone, below, unaccepted, conns⟩ := invariant
      rw [List.append_nil] at ran ⊢
      rw [accepting] at lone below unaccepted
      refine ⟨ran, Nat.le_trans (Nat.le_succ _) lone, fun number member =>
        below number (List.mem_cons_of_mem _ member), fun conn waits => ?_, conns⟩
      exact unaccepted conn (waits.imp (List.mem_cons_of_mem _) id)
  | accepts accepting next created serves => exact invariant.accepts laws ran accepting next created serves
  | happens notUser _ taken serves running => exact invariant.happens laws ran notUser taken serves running
  | obeys serves => exact invariant.obeys laws ran serves

end

/-! ### Runs of the node -/

section

variable {limit : Nat} {J : Type} {json : ServerJson J} {ids : Identities (Fin limit)}
  {clientVersion : Int} {keepAliveTime : Nat} {connector : Option ConnectOutcome}
  {inputs : List (NodeInput limit)} {node : LobbyNode limit}
  {trace : List (NodeInput limit × ServerCalls limit)}

/-- The invariant holds behind every run. -/
theorem node_invariant (laws : MemberLaws json.toJsonCpp)
    (ran : LobbyNode.run json ids clientVersion keepAliveTime connector inputs = .ok (node, trace)) :
    NodeInvariant json ids clientVersion keepAliveTime connector (callsMade trace) node := by
  refine runTrace_invariant (fun trace node =>
    NodeInvariant json ids clientVersion keepAliveTime connector (callsMade trace) node)
    nodeInvariant_start ?_ ran
  intro earlier state input next calls holds stepped
  rw [callsMade_snoc]
  exact nodeInvariant_step laws holds (node_step_cases stepped)

/-- A connection is gone when its close has been notified. -/
theorem InPhase.gone_iff {conn : ConnectionImpl LobbyHandler} {phase : ClientPhase}
    (inPhase : InPhase keepAliveTime conn (some phase)) : phase = .gone ↔ .onClose ∈ conn.log := by
  cases inPhase with
  | waiting waits =>
      rw [waits.fields.1]
      exact iff_of_false nofun List.not_mem_nil
  | served reached running notClosed =>
      have once := (reaches_closeOnce (started_justStarted _ _ _) reached).1
      refine iff_of_false nofun fun notified => (onClose_mem_iff _).mp notified ?_
      cases status : conn.status with
      | opened => exact (once.opened status).2
      | closing => exact (once.closing status).2
      | close => exact absurd status notClosed
  | gone reached running closed =>
      have once := (reaches_closeOnce (started_justStarted _ _ _) reached).1
      refine iff_of_true rfl ((onClose_mem_iff _).mpr ?_)
      rw [(once.close closed).2]
      exact Nat.one_ne_zero

/-- In every run of the process, the calls for a connection follow the protocol: one `onAccept`, then JSON
    packets, unknown packets and expiries, at most one `onClose`, and nothing behind it.  The registry holds
    exactly the connections that are served, and a connection is gone exactly when it has notified its
    close. -/
theorem node_protocol (laws : MemberLaws json.toJsonCpp)
    (ran : LobbyNode.run json ids clientVersion keepAliveTime connector inputs = .ok (node, trace)) :
    LobbyServer.run json ids clientVersion connector ((callsMade trace).map Prod.fst) =
        .ok (node.server, callsMade trace) ∧
      ∀ conn, ∃ phase, ClientPhase.after conn ((callsMade trace).map Prod.fst) = some phase ∧
        (ids.identity conn ∈ node.server.manager.users ↔ phase = .served) ∧
        (.onClose ∈ (node.conns conn).log ↔ phase = .gone) := by
  have invariant := node_invariant laws ran
  refine ⟨invariant.serves, fun conn => ?_⟩
  have inPhase := invariant.conns conn
  obtain ⟨phase, follows⟩ := inPhase.phase
  rw [follows] at inPhase
  exact ⟨phase, follows, (registered_iff_inside laws invariant.serves conn).trans (phase_inside follows),
    inPhase.gone_iff.symm⟩

/-- In every run of the process, a connection that has had any call, seen alone, is a run of the connection:
    whatever holds in every state that a started connection reaches holds of it, whatever the others, the
    server and the broker do. -/
theorem node_connections_alone (laws : MemberLaws json.toJsonCpp)
    (ran : LobbyNode.run json ids clientVersion keepAliveTime connector inputs = .ok (node, trace))
    {conn : Fin limit} {call : ServerInput (Fin limit) × List (ServerOutput (Fin limit))}
    (called : call ∈ callsMade trace) (own : caller call.1.event = some conn) :
    ∃ expired, Reaches (ConnectionImpl.step nodeProcedure) anyStep
      (ConnectionImpl.started nodeProcedure keepAliveTime expired) (node.conns conn) := by
  have inPhase := (node_invariant laws ran).conns conn
  generalize follows : ClientPhase.after conn ((callsMade trace).map Prod.fst) = phase at inPhase
  cases inPhase with
  | waiting waits => exact absurd own (phase_waiting follows _ (List.mem_map_of_mem called))
  | served reached running notClosed => exact ⟨_, reached⟩
  | gone reached running closed => exact ⟨_, reached⟩

/-- In every run of the process, `onAccept` finds its connection without a user, and every other call for a
    connection finds the user: the handlers' tests for a missing or a second user never fire. -/
theorem node_calls_find_user (laws : MemberLaws json.toJsonCpp)
    (ran : LobbyNode.run json ids clientVersion keepAliveTime connector inputs = .ok (node, trace))
    {before : ServerCalls limit}
    {input : ServerInput (Fin limit)} {outputs : List (ServerOutput (Fin limit))} {conn : Fin limit}
    (call : CallIn (callsMade trace) before input outputs) (own : caller input.event = some conn) :
    ∃ server next, LobbyServer.run json ids clientVersion connector (before.map Prod.fst) =
        .ok (server, before) ∧
      LobbyServer.step json ids clientVersion server input = .ok (next, outputs) ∧
      (server.manager.tag conn = none ↔ input.event = .onAccept conn) := by
  obtain ⟨behind, split⟩ := call
  have invariant := node_invariant laws ran
  have serverRan := invariant.serves
  obtain ⟨phase, follows⟩ := (invariant.conns conn).phase
  rw [split] at serverRan follows
  obtain ⟨server, next, early, stepped⟩ := runTrace_split serverRan
  refine ⟨server, next, early, stepped, ?_⟩
  rw [List.map_append, List.map_cons, ClientPhase.after_append] at follows
  obtain ⟨earlier, there, moved⟩ := Option.bind_eq_some_iff.mp follows
  rw [List.foldlM_cons] at moved
  obtain ⟨later, here, -⟩ := Option.bind_eq_some_iff.mp moved
  have tagged := not_congr ((tag_iff_inside laws early conn).trans (phase_inside there))
  rw [not_not] at tagged
  rw [tagged]
  cases ClientPhase.next_moves here with
  | stays other _ => exact absurd own other
  | begins accepted => exact iff_of_true nofun accepted
  | goesOn _ notAccepted notClosed => exact iff_of_false (not_not.mpr rfl) notAccepted
  | ends closed =>
      rw [closed]
      exact iff_of_false (not_not.mpr rfl) nofun

end

/-! ### A short run of the process -/

/-- The identities of two connections. -/
def firstIdentities : Identities (Fin 2) where
  identity conn := UInt64.ofNat (conn.val + 1)
  distinct := by decide

/-- One packet, whose one byte is no code of the lobby. -/
def unknownPacket : List UInt8 := [5, 0, 0, 0, 1, 0, 0, 0, 99]

/-- A connection is accepted and receives the packet; `read_handler` and `dispatch` run, the server asks for the
    close, and its wait is over. -/
def visit : List (NodeInput 2) :=
  [⟨.accept ⟨noError, false⟩, fun _ => calm⟩, ⟨.connection 0 (.readSome unknownPacket), fun _ => calm⟩,
    ⟨.connection 0 (.run 0 true ()), fun _ => calm⟩, ⟨.connection 0 (.run 0 true ()), fun _ => calm⟩,
    ⟨.connection 0 .closeReserveExpires, fun _ => calm⟩, ⟨.connection 0 (.run 0 true ()), fun _ => calm⟩]

/-- What the connection has seen when its packet has been parsed. -/
def parsedLog : List (Event LobbyHandler) :=
  [.received unknownPacket, .parsed unknownPacket, .call (.noHandler [99])]

/-- The room with the one client. -/
def oneIn : LobbyRoom (Fin 2) := ⟨insert 0 ∅, 0, .fresh⟩

/-- The server takes the connection in, with packets only, and lets it go. -/
theorem visitCalls_succeed : ∃ served gone welcoming closing,
    LobbyServer.step announcer firstIdentities 7 (.start none) ⟨.onAccept 0, calm⟩ =
      .ok (served, welcoming) ∧
    (∀ action ∈ Delivery.clientActions 0 welcoming, ∃ packet, action = .sendPacket packet) ∧
    LobbyServer.step announcer firstIdentities 7 served ⟨.onClose 0, calm⟩ = .ok (gone, closing) := by
  obtain ⟨welcomed, welcomes⟩ := announcer_welcomes
  have enters : LobbyRoom.step announcer firstIdentities 7 (.start none) ⟨.onAccept 0, calm⟩ =
      .ok (oneIn, .forClient 0 welcomed) :=
    step_newcomer (Set.notMem_empty 0) rfl welcomes
  have leaves : ∃ room delivery, LobbyRoom.step announcer firstIdentities 7 oneIn ⟨.onClose 0, calm⟩ =
      .ok (room, delivery) := by
    have there : 0 ∈ oneIn.present := Set.mem_insert 0 ∅
    simp only [LobbyRoom.step, LobbyServer.withEndpoint, calm, LobbyRoom.leave, if_pos there]
    exact ⟨_, _, rfl⟩
  obtain ⟨room, delivery, leaves⟩ := leaves
  have accepted := step_refines announcer_laws 7 (represents_start firstIdentities none)
    ⟨.onAccept 0, calm⟩
  rw [enters] at accepted
  obtain ⟨served, welcoming, stepped, represents, sorted⟩ := accepted.of_ok_right
  have closed := step_refines announcer_laws 7 represents ⟨.onClose 0, calm⟩
  rw [leaves] at closed
  obtain ⟨gone, closing, closes, -, -⟩ := closed.of_ok_right
  refine ⟨served, gone, welcoming, closing, stepped, fun action given => ?_, closes⟩
  have own : Delivery.clientActions 0 welcoming = (Delivery.forClient (0 : Fin 2) welcomed).toClient 0 :=
    congrFun (congrArg Delivery.toClient sorted) 0
  rw [own] at given
  exact welcome_packets welcomes action (mem_forClient.mp given).2

/-- The connection during the visit, whatever it has been sent. -/
def visitor (pending : UInt32) (writes frames : List (List UInt8)) (strand : List Handler)
    (log : List (Event LobbyHandler)) : ConnectionImpl LobbyHandler :=
  { ConnectionImpl.started nodeProcedure 0 false with
    readHandlerPending := pending, writes := writes, frames := frames, strand := strand, log := log }

/-- The receive buffer with the packet. -/
def unknownMessage : MessageBuffer :=
  { newMessageBuffer manipulatorJsonParserTest with
    buffer := writeRange MessageBuffer.empty.buffer 0 unknownPacket, writePos := unknownPacket.length }

theorem unknownMessage_bytes : unknownMessage.bytes = unknownPacket := by decide

theorem unknownMessage_parsed :
    (nodeProcedure.packetParsingFunction () unknownMessage).calls = [.noHandler [99]] ∧
      (nodeProcedure.packetParsingFunction () unknownMessage).ending = .returned false := by decide

/-- `dispatch` on an open connection, when the parser returns. -/
theorem dispatch_returned {κ ε : Type} {procedure : MessageProcedure κ ε} {surroundings : ε}
    {msg : MessageBuffer} {fine : Bool} {conn : ConnectionImpl κ} (opened : conn.status = .opened)
    (ending : (procedure.packetParsingFunction surroundings msg).ending = .returned fine) :
    conn.dispatch procedure surroundings msg =
      { conn with
        readHandlerPending := conn.readHandlerPending - 1
        log := conn.log ++ (Event.parsed msg.bytes ::
          (procedure.packetParsingFunction surroundings msg).calls.map Event.call) } := by
  simp only [ConnectionImpl.dispatch, opened, ending, ne_eq, not_true_eq_false, if_false]

/-- The packet is parsed. -/
theorem visitor_parses (writes frames : List (List UInt8)) :
    (visitor 1 writes frames [.dispatch unknownMessage] [.received unknownPacket]).step nodeProcedure
        (.run 0 true ()) =
      some (visitor 0 writes frames [] parsedLog) := by
  have settled : (visitor 1 writes frames [] [.received unknownPacket]).readHandlerPending - 1 = 0 :=
    (rfl : (1 : UInt32) - 1 = 0)
  have dispatched : ConnectionImpl.dispatch nodeProcedure () unknownMessage
      (visitor 1 writes frames [] [.received unknownPacket]) = visitor 0 writes frames [] parsedLog := by
    rw [dispatch_returned rfl unknownMessage_parsed.2, unknownMessage_parsed.1, unknownMessage_bytes,
      settled]
    rfl
  exact congrArg some dispatched

/-- Packets that are sent change the writes and the frames only. -/
theorem afterActions_sends {κ : Type} {actions : List Action} (conn : ConnectionImpl κ)
    (sends : ∀ action ∈ actions, ∃ packet, action = .sendPacket packet) :
    ∃ writes frames, afterActions actions conn = { conn with writes := writes, frames := frames } := by
  induction actions generalizing conn with
  | nil => exact ⟨conn.writes, conn.frames, rfl⟩
  | cons action actions inductionHypothesis =>
      obtain ⟨packet, rfl⟩ := sends action List.mem_cons_self
      have others := fun later member => sends later (List.mem_cons_of_mem _ member)
      rw [afterActions_cons, act, ConnectionImpl.sendPacket]
      split
      · exact inductionHypothesis conn others
      · exact inductionHypothesis (conn.asyncWrite _) others

/-- The node in the middle of the visit. -/
structure VisitedBy (conn : ConnectionImpl LobbyHandler) (server : LobbyServer (Fin 2))
    (node : LobbyNode 2) : Prop where
  created : 0 < node.acceptor.created
  conn : node.conns 0 = conn
  server : node.server = server

/-- The next thing that happens to the connection, with the calls that its events make. -/
theorem VisitedBy.happens {conn : ConnectionImpl LobbyHandler} {server served : LobbyServer (Fin 2)}
    {node : LobbyNode 2} {calls : ServerCalls 2} (visited : VisitedBy conn server node)
    (label : Label Unit) (later : ConnectionImpl LobbyHandler) (notUser : isUserCall label = false)
    (taken : conn.step nodeProcedure label = some later) (running : later.terminated = none)
    (ran : runTrace (LobbyServer.step announcer firstIdentities 7) server
      (callsAround (fun _ => calm) ((later.log.drop conn.log.length).filterMap (serverCall 0))) =
        .ok (served, calls)) :
    ∃ next, LobbyNode.step announcer firstIdentities 7 node ⟨.connection 0 label, fun _ => calm⟩ =
        .ok (next, calls) ∧ VisitedBy (afterActions (actionsFor 0 calls) later) served next := by
  obtain ⟨created, rfl, rfl⟩ := visited
  obtain ⟨next, stepped, same, acceptor, conns⟩ := connection_step notUser created taken running ran
  exact ⟨next, stepped, acceptor ▸ created, conns, same⟩

/-- The visit succeeds; it makes three calls and leaves the close behind the parsed packet in the log. -/
theorem visit_succeeds : ∃ node trace welcoming closing,
    LobbyNode.run announcer firstIdentities 7 0 none visit = .ok (node, trace) ∧
      callsMade trace = [(⟨.onAccept 0, calm⟩, welcoming),
        (⟨.noHandler 0, calm⟩, [.client 0 (.closeReserve 0)]), (⟨.onClose 0, calm⟩, closing)] ∧
      (node.conns 0).log = parsedLog ++ [.onClose] := by
  obtain ⟨served, gone, welcoming, closing, accepts, sends, closes⟩ := visitCalls_succeed
  obtain ⟨node, accepted, server, acceptor, conn⟩ := @accept_step 2 _ announcer firstIdentities 7
    (.start 0 none) 0 [] (fun _ => calm) served [(⟨.onAccept 0, calm⟩, welcoming)] rfl
    (runTrace_cons.mpr ⟨_, _, _, accepts, rfl, rfl⟩)
  obtain ⟨writes, frames, sent⟩ := afterActions_sends (ConnectionImpl.created nodeProcedure 0 false) sends
  have visited : VisitedBy (visitor 0 writes frames [] []) served node := by
    refine ⟨acceptor ▸ Nat.zero_lt_two, ?_, server⟩
    rw [conn, actionsFor, List.flatMap_singleton]
    exact (congrArg ConnectionImpl.startAccept sent).trans rfl
  obtain ⟨node, reads, visited⟩ := visited.happens (.readSome unknownPacket)
    { visitor 0 writes frames [.readHandler noError unknownPacket] [] with reading := false }
    rfl rfl rfl rfl
  obtain ⟨node, handles, visited⟩ := visited.happens (.run 0 true ())
    (visitor 1 writes frames [.dispatch unknownMessage] [.received unknownPacket]) rfl rfl rfl rfl
  obtain ⟨node, parses, visited⟩ := visited.happens (.run 0 true ()) _ rfl
    (visitor_parses writes frames) rfl rfl
  obtain ⟨node, expires, visited⟩ := visited.happens .closeReserveExpires
    (visitor 0 writes frames [.onCloseReserveTime noError] parsedLog) rfl rfl rfl rfl
  obtain ⟨node, ends, visited⟩ := visited.happens (.run 0 true ())
    { visitor 0 writes frames [] (parsedLog ++ [Event.onClose]) with status := .close } rfl rfl rfl
    (runTrace_cons.mpr ⟨_, _, _, closes, rfl, rfl⟩)
  refine ⟨node, _, welcoming, closing, runTrace_cons.mpr ⟨_, _, _, accepted, runTrace_cons.mpr
    ⟨_, _, _, reads, runTrace_cons.mpr ⟨_, _, _, handles, runTrace_cons.mpr ⟨_, _, _, parses,
      runTrace_cons.mpr ⟨_, _, _, expires, runTrace_cons.mpr ⟨_, _, _, ends, rfl, rfl⟩, rfl⟩, rfl⟩, rfl⟩,
      rfl⟩, rfl⟩, rfl, ?_⟩
  rw [visited.conn, (afterActions_acted _ _).same.2.1]
  rfl

/-- The protocol in the visit: the connection has come, and has gone. -/
theorem node_protocol_visit : ∃ node trace,
    LobbyNode.run announcer firstIdentities 7 0 none visit = .ok (node, trace) ∧
    .onClose ∈ (node.conns 0).log ∧
    LobbyServer.run announcer firstIdentities 7 none ((callsMade trace).map Prod.fst) =
        .ok (node.server, callsMade trace) ∧
      ∀ conn, ∃ phase, ClientPhase.after conn ((callsMade trace).map Prod.fst) = some phase ∧
        (firstIdentities.identity conn ∈ node.server.manager.users ↔ phase = .served) ∧
        (.onClose ∈ (node.conns conn).log ↔ phase = .gone) := by
  obtain ⟨node, trace, welcoming, closing, ran, -, log⟩ := visit_succeeds
  have closed : .onClose ∈ (node.conns 0).log := log ▸ List.mem_append_right _ (List.mem_singleton_self _)
  exact ⟨node, trace, ran, closed, node_protocol announcer_laws ran⟩

/-- The accepted connection, seen alone. -/
theorem node_connections_alone_visit : ∃ node trace,
    LobbyNode.run announcer firstIdentities 7 0 none visit = .ok (node, trace) ∧
    ∃ expired, Reaches (ConnectionImpl.step nodeProcedure) anyStep
      (ConnectionImpl.started nodeProcedure 0 expired) (node.conns 0) := by
  obtain ⟨node, trace, welcoming, closing, ran, made, -⟩ := visit_succeeds
  have called : (⟨.onAccept 0, calm⟩, welcoming) ∈ callsMade trace := made ▸ List.mem_cons_self
  exact ⟨node, trace, ran, node_connections_alone announcer_laws ran called rfl⟩

/-- The first call finds no user, and the second one finds the user that the first has made. -/
theorem node_calls_find_user_visit : ∃ node trace welcoming reserving,
    LobbyNode.run announcer firstIdentities 7 0 none visit = .ok (node, trace) ∧
    (∃ server next, LobbyServer.run announcer firstIdentities 7 none [] = .ok (server, []) ∧
      LobbyServer.step announcer firstIdentities 7 server ⟨.onAccept 0, calm⟩ = .ok (next, welcoming) ∧
      server.manager.tag 0 = none) ∧
    ∃ server next, LobbyServer.run announcer firstIdentities 7 none [⟨.onAccept 0, calm⟩] =
        .ok (server, [(⟨.onAccept 0, calm⟩, welcoming)]) ∧
      LobbyServer.step announcer firstIdentities 7 server ⟨.noHandler 0, calm⟩ = .ok (next, reserving) ∧
      server.manager.tag 0 ≠ none := by
  obtain ⟨node, trace, welcoming, closing, ran, made, -⟩ := visit_succeeds
  have first : CallIn (callsMade trace) [] ⟨.onAccept 0, calm⟩ welcoming := ⟨_, made⟩
  have second : CallIn (callsMade trace) [(⟨.onAccept 0, calm⟩, welcoming)] ⟨.noHandler 0, calm⟩
    [.client 0 (.closeReserve 0)] := ⟨_, made⟩
  obtain ⟨fresh, next, early, steps, empty⟩ := node_calls_find_user announcer_laws ran first rfl
  obtain ⟨server, later, before, serves, known⟩ := node_calls_find_user announcer_laws ran second rfl
  exact ⟨node, trace, welcoming, _, ran, ⟨fresh, next, early, steps, empty.mpr rfl⟩,
    server, later, before, serves, fun none => nomatch known.mp none⟩

end LobbySvr.Proofs

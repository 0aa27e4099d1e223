/-
Module: LobbySvr.Proofs.ServerRuns
Layer: Proofs
Purpose: Runs of the lobby server.  The room behind the server is a function of the calls so far: who has been
  accepted and not closed since, the index in the last answer to `/auth`, and the events of the broker link.
  So what a call does is known from the calls before it: who gets packets and when, and what stands in a
  message that goes on to the broker.
Imports: LobbySvr.Proofs.ClientIsolation
Trusted boundary: none
Main exports: Inside, lastIndex, linkAfter, roomAfter, room_step_effect, server_step_in_run, CallIn,
  ClientLife, client_lifecycle, request_to_broker, chat_provenance
Open obligations: none
-/
import Mathlib
import LobbySvr.Proofs.ClientIsolation

namespace LobbySvr.Proofs

open LobbySvr.Foundation
open LobbySvr.Net
open LobbySvr.Spec
open LobbySvr.Lobby

variable {C J : Type}

/-! ### The room as a function of the calls -/

/-- A client is in: it has been accepted, and not closed since. -/
def Inside (conn : C) (inputs : List (ServerInput C)) : Prop :=
  ∃ before accept after, inputs = before ++ accept :: after ∧ accept.event = .onAccept conn ∧
    ∀ input ∈ after, input.event ≠ .onClose conn

/-- The server's index behind a call: an answer to `/auth` sets it. -/
def indexBehind (json : ServerJson J) (index : UInt32) (input : ServerInput C) : UInt32 :=
  match input.event with
  | .brokerReadJsonPacket msg =>
      match BrokerConnector.readJsonPacket json.parse input.around.beyond msg with
      | .ok (.dispatched url _ jv) =>
          match BrokerOrder.read json.toBrokerJson url jv with
          | .setServerIDX index => index
          | _ => index
      | _ => index
  | _ => index

/-- The index in the last answer to `/auth`, 0 before there is one. -/
def lastIndex (json : ServerJson J) (inputs : List (ServerInput C)) : UInt32 :=
  inputs.foldl (indexBehind json) 0

/-- The broker link behind a call that succeeds. -/
def linkBehind (link : BrokerLink) (input : ServerInput C) : BrokerLink :=
  match input.event with
  | .brokerLink event =>
      match link.step event with
      | .ok later => later
      | .error _ => link
  | _ => link

/-- The broker link after the events among some calls. -/
def linkAfter (connector : Option ConnectOutcome) (inputs : List (ServerInput C)) : BrokerLink :=
  inputs.foldl linkBehind (LobbyServer.startLink connector)

/-- The room after some calls. -/
def roomAfter (json : ServerJson J) (connector : Option ConnectOutcome) (inputs : List (ServerInput C)) :
    LobbyRoom C where
  present := {conn | Inside conn inputs}
  serverIDX := lastIndex json inputs
  link := linkAfter connector inputs

theorem inside_nil (conn : C) : ¬ Inside conn ([] : List (ServerInput C)) := by
  rintro ⟨before, accept, after, split, -⟩
  exact absurd (congrArg List.length split) (by simp)

/-- One more call: it takes the client in, or leaves it in unless it closes it. -/
theorem inside_snoc (conn : C) (inputs : List (ServerInput C)) (input : ServerInput C) :
    Inside conn (inputs ++ [input]) ↔
      input.event = .onAccept conn ∨ (Inside conn inputs ∧ input.event ≠ .onClose conn) := by
  constructor
  · rintro ⟨before, accept, after, split, accepted, still⟩
    rcases List.eq_nil_or_concat' after with rfl | ⟨front, last, rfl⟩
    · obtain ⟨-, same⟩ := List.append_inj' split rfl
      cases same
      exact .inl accepted
    · have regrouped : inputs ++ [input] = (before ++ accept :: front) ++ [last] := by
        rw [split]
        simp
      obtain ⟨rfl, same⟩ := List.append_inj' regrouped rfl
      cases same
      exact .inr ⟨⟨before, accept, front, rfl, accepted,
        fun other member => still other (List.mem_append_left _ member)⟩,
        still input (List.mem_append_right _ (List.mem_singleton_self input))⟩
  · rintro (accepted | ⟨⟨before, accept, after, rfl, accepted, still⟩, remains⟩)
    · exact ⟨inputs, input, [], rfl, accepted, fun _ member => absurd member List.not_mem_nil⟩
    · refine ⟨before, accept, after ++ [input], by simp, accepted, fun other member => ?_⟩
      rcases List.mem_append.mp member with earlier | last
      · exact still other earlier
      · rw [List.mem_singleton.mp last]
        exact remains

section

variable {json : ServerJson J} {ids : Identities C} {clientVersion : Int}
  {connector : Option ConnectOutcome} {room later : LobbyRoom C}
  {delivery : Delivery C}

/-- Who is in the room behind a call. -/
def presentBehind (present : Set C) (input : ServerInput C) : Set C :=
  match input.event with
  | .onAccept conn => insert conn present
  | .onClose conn => present \ {conn}
  | _ => present

/-- A step that succeeds leaves the room that the call says. -/
theorem room_step_effect {input : ServerInput C}
    (stepped : LobbyRoom.step json ids clientVersion room input = .ok (later, delivery)) :
    later = ⟨presentBehind room.present input, indexBehind json room.serverIDX input,
      linkBehind room.link input⟩ := by
  cases room_step_cases.mp stepped with
  | alreadyIn _ there =>
      simp only [presentBehind, Set.insert_eq_of_mem there]
      rfl
  | links _ goesOn =>
      simp only [linkBehind, goesOn]
      rfl
  | alreadyOut _ absent =>
      simp only [presentBehind, Set.sdiff_singleton_eq_self absent]
      rfl
  | obeys arrived obeyed =>
      simp only [indexBehind, arrived]
      generalize BrokerOrder.read json.toBrokerJson _ _ = order at obeyed
      cases obeyed with
      | _ => rfl
  | @ignores around msg exit arrived undispatched =>
      simp only [indexBehind, arrived]
      cases exit with
      | dispatched url text jv => exact absurd rfl (undispatched url text jv)
      | _ => rfl
  | _ => rfl

/-- One more call in terms of the calls before it. -/
theorem roomAfter_snoc (json : ServerJson J) (connector : Option ConnectOutcome)
    (inputs : List (ServerInput C)) (input : ServerInput C) :
    roomAfter json connector (inputs ++ [input]) =
      ⟨presentBehind (roomAfter json connector inputs).present input,
        indexBehind json (roomAfter json connector inputs).serverIDX input,
        linkBehind (roomAfter json connector inputs).link input⟩ := by
  have present : {conn | Inside conn (inputs ++ [input])} =
      presentBehind {conn | Inside conn inputs} input := by
    ext conn
    rw [Set.mem_ofPred_eq, inside_snoc]
    obtain ⟨event, around⟩ := input
    cases event with
    | onAccept other =>
        simp only [presentBehind, ServerEvent.onAccept.injEq, reduceCtorEq, ne_eq, not_false_eq_true,
          and_true, Set.mem_insert_iff, Set.mem_ofPred_eq, eq_comm]
    | onClose other =>
        simp only [presentBehind, reduceCtorEq, false_or, ServerEvent.onClose.injEq, ne_eq,
          Set.mem_sdiff, Set.mem_ofPred_eq, Set.mem_singleton_iff, eq_comm]
    | _ => simp [presentBehind]
  simp only [roomAfter, present, lastIndex, linkAfter, List.foldl_append, List.foldl_cons, List.foldl_nil]

/-- The room after a run is that of its calls. -/
theorem room_run {inputs : List (ServerInput C)} {trace : List (ServerInput C × Delivery C)}
    (ran : LobbyRoom.run json ids clientVersion connector inputs = .ok (room, trace)) :
    room = roomAfter json connector inputs := by
  have along : room = roomAfter json connector (trace.map Prod.fst) := by
    refine runTrace_invariant
      (fun trace room => room = roomAfter json connector (trace.map Prod.fst)) ?_ ?_ ran
    · have nobody : {conn : C | Inside conn []} = ∅ :=
        Set.eq_empty_of_forall_notMem inside_nil
      simp only [List.map_nil, roomAfter, nobody]
      rfl
    · rintro earlier room input later delivery rfl stepped
      rw [List.map_append, List.map_cons, List.map_nil, roomAfter_snoc]
      exact room_step_effect stepped
  rw [along, runTrace_inputs ran]

end

/-! ### Calls in the middle of a run -/

variable [DecidableEq C]

section

variable {json : ServerJson J} {ids : Identities C} {clientVersion : Int}
  {connector : Option ConnectOutcome}
  {inputs : List (ServerInput C)} {server : LobbyServer C}
  {trace before after : List (ServerInput C × List (ServerOutput C))} {input : ServerInput C}
  {outputs : List (ServerOutput C)}

/-- The server behind a run represents the room that its calls have left. -/
theorem server_represents (laws : MemberLaws json.toJsonCpp)
    (ran : LobbyServer.run json ids clientVersion connector inputs = .ok (server, trace)) :
    Represents ids server (roomAfter json connector inputs) := by
  have agrees := server_simulates laws ids clientVersion connector inputs
  rw [ran] at agrees
  obtain ⟨room, deliveries, roomRan, represents, -⟩ := agrees.of_ok
  rw [← room_run roomRan]
  exact represents

/-- A call in a run is a step of the room that the calls before it have left. -/
theorem server_step_in_run (laws : MemberLaws json.toJsonCpp)
    (ran : LobbyServer.run json ids clientVersion connector inputs = .ok (server, trace))
    (split : trace = before ++ (input, outputs) :: after) :
    LobbyRoom.step json ids clientVersion (roomAfter json connector (before.map Prod.fst)) input =
      .ok (roomAfter json connector (before.map Prod.fst ++ [input]), Delivery.sorted outputs) := by
  subst split
  obtain ⟨state, next, prefixRan, stepped⟩ := runTrace_split ran
  have here := step_refines laws clientVersion (server_represents laws prefixRan) input
  rw [stepped] at here
  obtain ⟨later, delivery, roomStepped, -, same⟩ := here.of_ok
  rw [roomAfter_snoc, same, roomStepped, room_step_effect roomStepped]

/-- The clients with a user behind a run are those that are in. -/
theorem tag_iff_inside (laws : MemberLaws json.toJsonCpp)
    (ran : LobbyServer.run json ids clientVersion connector inputs = .ok (server, trace))
    (conn : C) : server.manager.tag conn ≠ none ↔ Inside conn inputs :=
  ((server_represents laws ran).present conn).symm

/-- The registered clients behind a run are those that are in. -/
theorem registered_iff_inside (laws : MemberLaws json.toJsonCpp)
    (ran : LobbyServer.run json ids clientVersion connector inputs = .ok (server, trace))
    (conn : C) : ids.identity conn ∈ server.manager.users ↔ Inside conn inputs :=
  ((server_represents laws ran).consistent.registered conn).trans (tag_iff_inside laws ran conn)

end

theorem mem_clientActions {conn : C} {action : Action} {outputs : List (ServerOutput C)} :
    action ∈ Delivery.clientActions conn outputs ↔ .client conn action ∈ outputs := by
  induction outputs with
  | nil => simp [Delivery.clientActions]
  | cons output outputs inductionHypothesis =>
      cases output with
      | client other kind =>
          rw [Delivery.clientActions]
          split
          · rename_i same
            subst same
            simp [inductionHypothesis]
          · rename_i different
            simp [inductionHypothesis, Ne.symm different]
      | broker session kind => simp [Delivery.clientActions, inductionHypothesis]

omit [DecidableEq C] in
theorem mem_brokerActions {session : Nat} {action : Action} {outputs : List (ServerOutput C)} :
    (session, action) ∈ Delivery.brokerActions outputs ↔ .broker session action ∈ outputs := by
  induction outputs with
  | nil => simp [Delivery.brokerActions]
  | cons output outputs inductionHypothesis =>
      cases output with
      | client other kind => simp [Delivery.brokerActions, inductionHypothesis]
      | broker other kind => simp [Delivery.brokerActions, inductionHypothesis]

theorem outputs_nil_of_sorted {outputs : List (ServerOutput C)}
    (nothing : Delivery.sorted outputs = .nothing) : outputs = [] := by
  cases outputs with
  | nil => rfl
  | cons output outputs =>
      cases output with
      | client conn action =>
          have given := congrFun (congrArg Delivery.toClient nothing) conn
          simp [Delivery.sorted, Delivery.clientActions, Delivery.nothing] at given
      | broker session action =>
          have given := congrArg Delivery.toBroker nothing
          simp [Delivery.sorted, Delivery.brokerActions, Delivery.nothing] at given

/-! ### Who gets packets -/

section

variable {json : ServerJson J} {ids : Identities C} {clientVersion : Int} {conn other : C}
  {room later : LobbyRoom C} {delivery : Delivery C}

/-- What a client gets comes from a call for it, or is a packet of the broker for a client in the room. -/
theorem given_by {input : ServerInput C} {action : Action}
    (stepped : LobbyRoom.step json ids clientVersion room input = .ok (later, delivery))
    (given : action ∈ delivery.toClient conn) :
    caller input.event = some conn ∨
      ((∃ msg, input.event = .brokerReadJsonPacket msg) ∧ conn ∈ room.present ∧
        ∃ packet, action = .sendPacket packet) := by
  have own : ∀ {other actions}, action ∈ (Delivery.forClient other actions).toClient conn →
      some other = some conn := fun given => congrArg some (mem_forClient.mp given).1.symm
  cases room_step_cases.mp stepped with
  | enters => exact .inl (own given)
  | leaves _ _ _ sends =>
      rw [toBroker_private sends] at given
      exact absurd given List.not_mem_nil
  | expires => exact .inl (own given)
  | noHandler => exact .inl (own given)
  | @requests other around size msg delivery _ requested =>
      by_cases same : other = conn
      · exact .inl (congrArg some same)
      · rw [requested.answered (Ne.symm same)] at given
        exact absurd given List.not_mem_nil
  | obeys _ obeyed => exact .inr ⟨⟨_, rfl⟩, obeyed.member given⟩
  | _ => exact absurd given List.not_mem_nil

/-- A client that gets a packet is in the room behind the call. -/
theorem packet_needs_presence {input : ServerInput C} {packet : List UInt8}
    (stepped : LobbyRoom.step json ids clientVersion room input = .ok (later, delivery))
    (given : .sendPacket packet ∈ delivery.toClient conn) : conn ∈ later.present := by
  cases room_step_cases.mp stepped with
  | enters =>
      rw [(mem_forClient.mp given).1]
      exact Set.mem_insert ..
  | leaves _ _ _ sends =>
      rw [toBroker_private sends] at given
      exact absurd given List.not_mem_nil
  | expires => cases List.mem_singleton.mp (mem_forClient.mp given).2
  | noHandler => cases List.mem_singleton.mp (mem_forClient.mp given).2
  | @requests other around size msg delivery there requested =>
      by_cases same : other = conn
      · exact same ▸ there
      · rw [requested.answered (Ne.symm same)] at given
        exact absurd given List.not_mem_nil
  | obeys _ obeyed =>
      have there := (obeyed.member given).1
      generalize BrokerOrder.read json.toBrokerJson _ _ = order at obeyed
      cases obeyed with
      | _ => exact there
  | _ => exact absurd given List.not_mem_nil

end

/-! ### The life of a client -/

section

variable {json : ServerJson J} {ids : Identities C} {clientVersion : Int}
  {connector : Option ConnectOutcome}
  {inputs : List (ServerInput C)} {server : LobbyServer C}
  {trace : List (ServerInput C × List (ServerOutput C))}

/-- A call in a trace, with what it puts out and the trace before it. -/
def CallIn (trace before : List (ServerInput C × List (ServerOutput C))) (input : ServerInput C)
    (outputs : List (ServerOutput C)) : Prop :=
  ∃ after, trace = before ++ (input, outputs) :: after

/-- What the server does for a client from its acceptance to its close. -/
structure ClientLife (json : ServerJson J) (connector : Option ConnectOutcome)
    (trace : List (ServerInput C × List (ServerOutput C))) : Prop where
  /-- The first acceptance is answered by the welcome, and by nothing else. -/
  welcomed : ∀ before input outputs conn, CallIn trace before input outputs →
    input.event = .onAccept conn → ¬ Inside conn (before.map Prod.fst) →
    ∃ actions, LobbyServer.welcome json (0, fun _ => 0) = .ok actions ∧
      Delivery.sorted outputs = .forClient conn actions
  /-- Another one does nothing. -/
  acceptedAgain : ∀ before input outputs conn, CallIn trace before input outputs →
    input.event = .onAccept conn → Inside conn (before.map Prod.fst) → outputs = []
  /-- Packets go to clients that are in, the packets of the call itself included. -/
  packets : ∀ before input outputs conn packet, CallIn trace before input outputs →
    .client conn (.sendPacket packet) ∈ outputs → Inside conn (before.map Prod.fst ++ [input])
  /-- The close of a client that is in goes to the broker, through the link as it is then. -/
  reported : ∀ before input outputs conn, CallIn trace before input outputs →
    input.event = .onClose conn → Inside conn (before.map Prod.fst) →
    ∃ brokerReq, LobbyServer.logoutReq json 0 [] = some brokerReq ∧
      LobbyRoom.toBroker json userLogoutUrl brokerReq (linkAfter connector (before.map Prod.fst)) =
        .ok (Delivery.sorted outputs)
  /-- The close of any other does nothing. -/
  closedAgain : ∀ before input outputs conn, CallIn trace before input outputs →
    input.event = .onClose conn → ¬ Inside conn (before.map Prod.fst) → outputs = []

/-- In every run, the registered clients are those that were accepted and not closed since, and each of them
    is welcomed once when it comes, gets packets only while it is in, and is reported to the broker once
    when it goes. -/
theorem client_lifecycle (laws : MemberLaws json.toJsonCpp)
    (ran : LobbyServer.run json ids clientVersion connector inputs = .ok (server, trace)) :
    (∀ conn, ids.identity conn ∈ server.manager.users ↔ Inside conn inputs) ∧
      ClientLife json connector trace := by
  refine ⟨registered_iff_inside laws ran, ?_⟩
  constructor
  · rintro before ⟨event, around⟩ outputs conn ⟨after, split⟩ rfl absent
    rcases accept_cases (server_step_in_run laws ran split) with ⟨there, -⟩ | ⟨-, actions, welcomes, same⟩
    · exact absurd there absent
    · exact ⟨actions, welcomes, same⟩
  · rintro before ⟨event, around⟩ outputs conn ⟨after, split⟩ rfl there
    rcases accept_cases (server_step_in_run laws ran split) with ⟨-, same⟩ | ⟨absent, -⟩
    · exact outputs_nil_of_sorted same
    · exact absurd there absent
  · rintro before input outputs conn packet ⟨after, split⟩ given
    exact packet_needs_presence (server_step_in_run laws ran split) (mem_clientActions.mpr given)
  · rintro before ⟨event, around⟩ outputs conn ⟨after, split⟩ rfl there
    rcases close_cases (server_step_in_run laws ran split) with ⟨absent, -⟩ | ⟨-, brokerReq, filled, sends⟩
    · exact absurd there absent
    · exact ⟨brokerReq, filled, sends⟩
  · rintro before ⟨event, around⟩ outputs conn ⟨after, split⟩ rfl absent
    rcases close_cases (server_step_in_run laws ran split) with ⟨-, same⟩ | ⟨there, -⟩
    · exact outputs_nil_of_sorted same
    · exact absurd there absent

/-- Who is in behind the visits. -/
theorem client_lifecycle_visits : ∃ server trace,
    LobbyServer.run announcer twoConnections 7 none visits = .ok (server, trace) ∧
    (∀ conn, twoConnections.identity conn ∈ server.manager.users ↔ Inside conn visits) ∧
    ClientLife announcer none trace := by
  obtain ⟨server, trace, ran⟩ := visits_succeed
  exact ⟨server, trace, ran, client_lifecycle announcer_laws ran⟩

/-! ### What goes on to the broker -/

omit [DecidableEq C] in
/-- What a call of a client sends to the broker is a chat message. -/
theorem request_to_broker {room : LobbyRoom C} {delivery : Delivery C} {around : Circumstances C} {conn : C}
    {size : UInt32} {msg : MessageBuffer} {session : Nat} {action : Action}
    (reads : LobbyRoom.jsonPacket json ids clientVersion around conn size msg room = .ok delivery)
    (sent : (session, action) ∈ delivery.toBroker) :
    ∃ text request stamped packet,
      LobbyAcceptorReceiver.readJsonPacket json.parse true around.beyond size msg =
        .ok (.dispatched sendMsgUrl text request) ∧
      NhChat.decide json.toJsonCpp ⟨room.serverIDX, around.localTimeSec⟩
        (some ⟨0, [], (ids.identity conn).toNat⟩) request = .forward stamped ∧
      room.link.sendJsonPacket = .sendsOn session ∧ action = .sendPacket packet ∧
      ConnectorUser.sendJsonPacket json.toJsonCpp (.new fun _ => 0) chatSendMsgUrl stamped =
        .ok packet := by
  cases jsonPacket_cases.mp reads with
  | @chat text request stamped delivery dispatched forwards sends =>
      rcases toBroker_cases sends with nothing | ⟨target, packet, linked, built, given⟩
      · rw [nothing] at sent
        exact absurd sent List.not_mem_nil
      · rw [given] at sent
        cases List.mem_singleton.mp sent
        exact ⟨text, request, stamped, packet, dispatched, forwards, linked, rfl, built⟩
  | _ => exact absurd sent List.not_mem_nil

omit [DecidableEq C] in
theorem toBroker_sends {json : ServerJson J} {link : BrokerLink} {session : Nat} {url packet : List UInt8}
    {jv : J} (linked : link.sendJsonPacket = .sendsOn session)
    (sends : ConnectorUser.sendJsonPacket json.toJsonCpp (.new fun _ => 0) url jv = .ok packet) :
    LobbyRoom.toBroker (C := C) json url jv link = .ok ⟨fun _ => [], [(session, .sendPacket packet)]⟩ := by
  rw [LobbyRoom.toBroker, LobbyServer.sendToBroker, linked]
  simp only [sends]
  rfl

omit [DecidableEq C] in
theorem request_forwards {json : ServerJson J} {ids : Identities C} {clientVersion : Int}
    {around : Circumstances C} {conn : C} {jv stamped : J} {room : LobbyRoom C}
    (forwards : NhChat.decide json.toJsonCpp ⟨room.serverIDX, around.localTimeSec⟩
      (some ⟨0, [], (ids.identity conn).toNat⟩) jv = .forward stamped) :
    LobbyRoom.request json ids clientVersion around conn sendMsgUrl jv room =
      LobbyRoom.toBroker json chatSendMsgUrl stamped room.link := by
  rw [LobbyRoom.request, if_neg (by decide), if_pos rfl, forwards]

/-- In every run, what a client's call sends to the broker is the chat message in its packet, from a client that
    is in.  It carries the client's identity, the index of the last answer to `/auth`, and, since nobody
    ever gets an index or a name, the index 0 and the empty name. -/
theorem chat_provenance (laws : MemberLaws json.toJsonCpp)
    (ran : LobbyServer.run json ids clientVersion connector inputs = .ok (server, trace))
    {before : List (ServerInput C × List (ServerOutput C))} {conn : C} {size : UInt32}
    {msg : MessageBuffer} {around : Circumstances C} {outputs : List (ServerOutput C)}
    (call : CallIn trace before ⟨.readJsonPacket conn size msg, around⟩ outputs)
    {session : Nat} {action : Action} (sent : .broker session action ∈ outputs) :
    Inside conn (before.map Prod.fst) ∧
      (linkAfter connector (before.map Prod.fst)).sendJsonPacket = .sendsOn session ∧
      ∃ text request checked stamped packet,
        LobbyAcceptorReceiver.readJsonPacket json.parse true around.beyond size msg =
          .ok (.dispatched sendMsgUrl text request) ∧
        NhChat.check json.toJsonCpp request = some (none, checked) ∧
        NhChat.setAdditional json.toJsonCpp
          ⟨lastIndex json (before.map Prod.fst), around.localTimeSec⟩
          ⟨0, [], (ids.identity conn).toNat⟩ checked = some stamped ∧
        ConnectorUser.sendJsonPacket json.toJsonCpp (.new fun _ => 0) chatSendMsgUrl stamped =
          .ok packet ∧ action = .sendPacket packet := by
  obtain ⟨after, split⟩ := call
  have stepped := server_step_in_run laws ran split
  simp only [LobbyRoom.step] at stepped
  split at stepped
  · rename_i there
    obtain ⟨delivery, reads, same⟩ := map_eq_ok.mp stepped
    have sorted : Delivery.sorted outputs = delivery := congrArg Prod.snd same
    rw [← sorted] at reads
    obtain ⟨text, request, stamped, packet, dispatched, forwards, linked, isPacket, built⟩ :=
      request_to_broker reads (mem_brokerActions.mpr sent)
    obtain ⟨sender, checked, same, passed, set⟩ := decide_forward forwards
    cases same
    exact ⟨there, linked, text, request, checked, stamped, packet, dispatched, passed, set, built, isPacket⟩
  · have nothing : Delivery.sorted outputs = .nothing := (congrArg Prod.snd (Except.ok.inj stepped)).symm
    rw [outputs_nil_of_sorted nothing] at sent
    exact absurd sent List.not_mem_nil

end

/-- A chat message, in the packet that a client sends. -/
def chatBytes : List UInt8 :=
  [1, 0, 0, 0, 0, 0] ++ (sendMsgUrl ++ List.replicate 19 0) ++ [1, 0] ++ [66]

def chatRequest : ServerInput Bool := ⟨.readJsonPacket false 41 (.received chatBytes), calm⟩

/-- The broker's session comes up, and a client comes. -/
def arrivals : List (ServerInput Bool) :=
  [⟨.brokerLink (.connected 0 false), calm⟩, ⟨.brokerLink (.onConnect true), calm⟩,
    ⟨.onAccept false, calm⟩]

/-- The link with its session. -/
def linked : BrokerLink := ⟨⟨some true, 1, []⟩, none, [0], some 0, [0]⟩

theorem linkAfter_arrivals : linkAfter (some ⟨true, true⟩) arrivals = linked := by decide

theorem chat_arrives : LobbyAcceptorReceiver.readJsonPacket announcer.parse true [] 41
    (.received chatBytes) = .ok (.dispatched sendMsgUrl [66] announcement) := by decide

/-- The chat message with what the server adds. -/
def stampedChat : FlatJson :=
  .object [("addition_fromIDX", .uint 0), ("addition_fromSVR", .uint 0), ("channelType", .uint 1),
    ("from", .text []), ("identity", .uint 1), ("msg", .text [104]), ("packetSequenceNum", .null),
    ("sendTime", .uint 0), ("seq", .null)]

theorem chat_forwards : NhChat.decide announcer.toJsonCpp ⟨0, 0⟩ (some ⟨0, [], 1⟩) announcement =
    .forward stampedChat := rfl

set_option maxRecDepth 4000 in
theorem stampedChat_fits : (announcer.write stampedChat).length ≤ BrokerProtocol.maxBodySize := by
  decide

theorem authUrl_fits : authUrl.length ≤ maxUrlString := by decide

theorem authReq_fits : ∃ req, LobbyServer.authReq announcer = some req ∧
    (announcer.write req).length ≤ BrokerProtocol.maxBodySize :=
  ⟨_, rfl, by decide⟩

/-- The link while its session is opening. -/
def opening : BrokerLink := ⟨⟨some true, 1, []⟩, some ⟨0, 0⟩, [0], none, []⟩

theorem link_opens :
    (LobbyServer.startLink (some ⟨true, true⟩)).step (.connected 0 false) = .ok opening := by
  decide

theorem link_linked : opening.step (.onConnect true) = .ok linked := by decide

theorem arrivals_succeed : ∃ room trace,
    LobbyRoom.run announcer twoConnections 7 (some ⟨true, true⟩) arrivals = .ok (room, trace) := by
  obtain ⟨welcomed, welcomes⟩ := announcer_welcomes
  obtain ⟨req, filled, fits⟩ := authReq_fits
  have sends := connectorUser_sends announcer.toJsonCpp (fun _ => 0) authUrl_fits fits
  have first : LobbyRoom.step announcer twoConnections 7 (.start (some ⟨true, true⟩))
      ⟨.brokerLink (.connected 0 false), calm⟩ = .ok (⟨∅, 0, opening⟩, ⟨fun _ => [], []⟩) := by
    simp only [LobbyRoom.step, LobbyRoom.start, link_opens, LobbyServer.linkSends, Except.map,
      Delivery.brokerActions]
  have second : ∃ delivery, LobbyRoom.step announcer twoConnections 7 ⟨∅, 0, opening⟩
      ⟨.brokerLink (.onConnect true), calm⟩ = .ok (⟨∅, 0, linked⟩, delivery) := by
    simp only [LobbyRoom.step, link_linked]
    simp only [LobbyServer.linkSends, opening, filled, sends, Except.map]
    exact ⟨_, rfl⟩
  have third : LobbyRoom.step announcer twoConnections 7 ⟨∅, 0, linked⟩ ⟨.onAccept false, calm⟩ =
      .ok (⟨insert false ∅, 0, linked⟩, .forClient false welcomed) :=
    step_newcomer (Set.notMem_empty false) rfl welcomes
  obtain ⟨greeting, second⟩ := second
  exact ⟨_, _, runTrace_cons.mpr ⟨_, _, _, first, runTrace_cons.mpr ⟨_, _, _, second,
    runTrace_cons.mpr ⟨_, _, _, third, rfl, rfl⟩, rfl⟩, rfl⟩⟩

theorem inside_arrivals : Inside false arrivals :=
  ⟨[_, _], _, [], rfl, rfl, fun _ member => absurd member List.not_mem_nil⟩

/-- The request goes on to the broker's session. -/
theorem chat_reaches : ∃ packet, LobbyRoom.step announcer twoConnections 7
    (roomAfter announcer (some ⟨true, true⟩) arrivals) chatRequest =
      .ok (roomAfter announcer (some ⟨true, true⟩) arrivals,
        ⟨fun _ => [], [(0, .sendPacket packet)]⟩) := by
  have there : false ∈ (roomAfter announcer (some ⟨true, true⟩) arrivals).present := inside_arrivals
  have link : (roomAfter announcer (some ⟨true, true⟩) arrivals).link = linked := linkAfter_arrivals
  have index : (roomAfter announcer (some ⟨true, true⟩) arrivals).serverIDX = 0 := rfl
  generalize roomAfter announcer (some ⟨true, true⟩) arrivals = room at there link index ⊢
  obtain ⟨packet, sends⟩ : ∃ packet, ConnectorUser.sendJsonPacket announcer.toJsonCpp
      (.new fun _ => 0) chatSendMsgUrl stampedChat = .ok packet :=
    ⟨_, connectorUser_sends announcer.toJsonCpp (fun _ => 0) (by decide) stampedChat_fits⟩
  have forwards : LobbyRoom.request announcer twoConnections 7 calm false sendMsgUrl announcement room =
      LobbyRoom.toBroker announcer chatSendMsgUrl stampedChat room.link := by
    refine request_forwards ?_
    rw [index]
    exact chat_forwards
  have reads : LobbyRoom.jsonPacket announcer twoConnections 7 calm false 41
      (.received chatBytes) room = .ok ⟨fun _ => [], [(0, .sendPacket packet)]⟩ := by
    rw [LobbyRoom.jsonPacket, show calm.beyond = [] from rfl, chat_arrives]
    exact forwards.trans (toBroker_sends (link ▸ rfl) sends)
  refine ⟨packet, ?_⟩
  simp only [LobbyRoom.step, chatRequest, if_pos there, reads, Except.map]

theorem chat_succeeds : ∃ server before packet outputs,
    LobbyServer.run announcer twoConnections 7 (some ⟨true, true⟩) (arrivals ++ [chatRequest]) =
      .ok (server, before ++ [(chatRequest, outputs)]) ∧ .broker 0 (.sendPacket packet) ∈ outputs := by
  obtain ⟨room, deliveries, arrived⟩ := arrivals_succeed
  obtain ⟨packet, reached⟩ := chat_reaches
  rw [← room_run arrived] at reached
  have roomRan : LobbyRoom.run announcer twoConnections 7 (some ⟨true, true⟩)
      (arrivals ++ [chatRequest]) = .ok (room, _) :=
    runTrace_append.mpr ⟨_, _, _, arrived, runTrace_cons.mpr ⟨_, _, _, reached, rfl, rfl⟩, rfl⟩
  have agrees := server_simulates announcer_laws twoConnections 7 (some ⟨true, true⟩)
    (arrivals ++ [chatRequest])
  rw [roomRan] at agrees
  obtain ⟨server, trace, ran, -, same⟩ := agrees.of_ok_right
  obtain ⟨middle, before, last, -, finished, rfl⟩ := runTrace_append.mp ran
  obtain ⟨next, outputs, rest, -, nothing, rfl⟩ := runTrace_cons.mp finished
  cases nothing
  have given := tracesAgree_image same
  rw [List.map_append, List.map_cons, List.map_nil] at given
  obtain ⟨-, last⟩ := List.append_inj' given rfl
  have sorted : Delivery.sorted outputs = ⟨fun _ => [], [(0, .sendPacket packet)]⟩ :=
    congrArg Prod.snd (List.cons.inj last).1
  have toBroker : Delivery.brokerActions outputs = [(0, .sendPacket packet)] :=
    congrArg Delivery.toBroker sorted
  exact ⟨server, before, packet, outputs, ran,
    mem_brokerActions.mp (toBroker ▸ List.mem_singleton_self _)⟩

/-- The chat of a client that has come while the broker's session is up. -/
theorem chat_provenance_chat : ∃ server before packet outputs,
    LobbyServer.run announcer twoConnections 7 (some ⟨true, true⟩) (arrivals ++ [chatRequest]) =
      .ok (server, before ++ [(chatRequest, outputs)]) ∧
    .broker 0 (.sendPacket packet) ∈ outputs ∧
    Inside false (before.map Prod.fst) ∧
    (linkAfter (some ⟨true, true⟩) (before.map Prod.fst)).sendJsonPacket = .sendsOn 0 ∧
    ∃ text request checked stamped built,
      LobbyAcceptorReceiver.readJsonPacket announcer.parse true [] 41 (.received chatBytes) =
        .ok (.dispatched sendMsgUrl text request) ∧
      NhChat.check announcer.toJsonCpp request = some (none, checked) ∧
      NhChat.setAdditional announcer.toJsonCpp
        ⟨lastIndex announcer (before.map Prod.fst), 0⟩ ⟨0, [], 1⟩ checked = some stamped ∧
      ConnectorUser.sendJsonPacket announcer.toJsonCpp (.new fun _ => 0) chatSendMsgUrl stamped =
        .ok built ∧ Action.sendPacket packet = .sendPacket built := by
  obtain ⟨server, before, packet, outputs, ran, sent⟩ := chat_succeeds
  exact ⟨server, before, packet, outputs, ran, sent, chat_provenance announcer_laws ran ⟨[], rfl⟩ sent⟩

end LobbySvr.Proofs

/-
Module: LobbySvr.Proofs.ClientIsolation
Layer: Proofs
Purpose: Clients do not disturb each other.  What a client gets in a run of the lobby server, and what its own
  calls send to the broker, is what it would get if the other clients had never been there and the broker
  had sent the same: nothing that another client does, in any order, can be told from its silence.  The
  argument is made in the room and carried over to the server.
Imports: LobbySvr.Proofs.LobbyRefinement, LobbySvr.Proofs.RoomSteps
Trusted boundary: none
Main exports: caller, concerns, clientView, AlikeFor, room_hides, room_shows, client_isolation
Open obligations: none
-/
import Mathlib
import LobbySvr.Proofs.LobbyRefinement
import LobbySvr.Proofs.RoomSteps

namespace LobbySvr.Proofs

open LobbySvr.Foundation
open LobbySvr.Net
open LobbySvr.Spec
open LobbySvr.Lobby

variable {C J : Type}

/-- The client that a call is made for, none when it is made for the broker's connection. -/
def caller : ServerEvent C → Option C
  | .onAccept conn => some conn
  | .onClose conn => some conn
  | .onExpiredSession conn => some conn
  | .noHandler conn => some conn
  | .readJsonPacket conn _ _ => some conn
  | .brokerLink _ => none
  | .brokerReadJsonPacket _ => none
  | .brokerNoHandler _ => none
  | .brokerExpiredSession _ => none

section

variable [DecidableEq C]

/-- A call that concerns a client: its own, and those of the broker's connection. -/
def concerns (conn : C) (input : ServerInput C) : Bool :=
  match caller input.event with
  | none => true
  | some other => decide (other = conn)

/-- What a client gets from a call, and what the call sends to the broker if it is the client's own. -/
def clientView (conn : C) (input : ServerInput C) (delivery : Delivery C) : List (Action ⊕ (Nat × Action)) :=
  (delivery.toClient conn).map .inl ++
    if caller input.event = some conn then delivery.toBroker.map .inr else []

end

/-- Two rooms that a client cannot tell apart, the second one without any other client. -/
structure AlikeFor (conn : C) (room alone : LobbyRoom C) : Prop where
  present : conn ∈ alone.present ↔ conn ∈ room.present
  nobodyElse : ∀ other ∈ alone.present, other = conn
  serverIDX : alone.serverIDX = room.serverIDX
  link : alone.link = room.link

section

variable {json : ServerJson J} {ids : Identities C} {clientVersion : Int} {conn other : C}
  {room alone later : LobbyRoom C} {delivery : Delivery C}

/-! ### What the others do -/

theorem AlikeFor.enter_other (alike : AlikeFor conn room alone) (different : conn ≠ other) :
    AlikeFor conn { room with present := insert other room.present } alone :=
  { alike with present := by rw [alike.present, Set.mem_insert_iff, or_iff_right different] }

theorem AlikeFor.leave_other (alike : AlikeFor conn room alone) (different : conn ≠ other) :
    AlikeFor conn { room with present := room.present \ {other} } alone :=
  { alike with
    present := by rw [alike.present, Set.mem_sdiff, Set.mem_singleton_iff, and_iff_left different] }

/-- A call for another client shows a client nothing, and leaves a room that it cannot tell apart. -/
theorem room_hides [DecidableEq C] {input : ServerInput C} (alike : AlikeFor conn room alone)
    (foreign : concerns conn input = false)
    (stepped : LobbyRoom.step json ids clientVersion room input = .ok (later, delivery)) :
    AlikeFor conn later alone ∧ clientView conn input delivery = [] := by
  -- A call that is not the client's own shows it what it gets, if anything.
  have unseen : ∀ other, caller input.event = some other → conn ≠ other → delivery.toClient conn = [] →
      clientView conn input delivery = [] := by
    intro other called different nothing
    rw [clientView, nothing, if_neg]
    · rfl
    · rw [called]
      exact fun same => different (Option.some.inj same).symm
  have apart : ∀ other, caller input.event = some other → conn ≠ other := by
    rintro other called rfl
    rw [concerns, called] at foreign
    exact of_decide_eq_false foreign rfl
  cases room_step_cases.mp stepped with
  | alreadyIn => exact ⟨alike, unseen _ rfl (apart _ rfl) rfl⟩
  | enters =>
      exact ⟨alike.enter_other (apart _ rfl), unseen _ rfl (apart _ rfl) (forClient_other (apart _ rfl) _)⟩
  | alreadyOut => exact ⟨alike, unseen _ rfl (apart _ rfl) rfl⟩
  | leaves _ _ _ sends =>
      exact ⟨alike.leave_other (apart _ rfl), unseen _ rfl (apart _ rfl) (toBroker_private sends conn)⟩
  | expires => exact ⟨alike, unseen _ rfl (apart _ rfl) (forClient_other (apart _ rfl) _)⟩
  | noHandler => exact ⟨alike, unseen _ rfl (apart _ rfl) (forClient_other (apart _ rfl) _)⟩
  | requests _ requested => exact ⟨alike, unseen _ rfl (apart _ rfl) (requested.answered (apart _ rfl))⟩
  | notIn => exact ⟨alike, unseen _ rfl (apart _ rfl) rfl⟩
  | links => cases foreign
  | obeys => cases foreign
  | ignores => cases foreign
  | brokerNoHandler => cases foreign
  | brokerExpires => cases foreign

/-! ### What concerns the client -/

/-- A packet for several clients, of which the other room has this one at most. -/
theorem sendTo_shows {clients mine : Set C} {url : List UInt8} {jv : J} (same : conn ∈ mine ↔ conn ∈ clients)
    (nobodyElse : ∀ other ∈ mine, other = conn)
    (sends : LobbyRoom.sendTo json clients url jv = .ok delivery) :
    ∃ delivery', LobbyRoom.sendTo json mine url jv = .ok delivery' ∧
      delivery'.toClient conn = delivery.toClient conn := by
  by_cases there : conn ∈ clients
  · have nonempty : clients ≠ ∅ := Set.Nonempty.ne_empty ⟨conn, there⟩
    have alsoNonempty : mine ≠ ∅ := Set.Nonempty.ne_empty ⟨conn, same.mpr there⟩
    rw [LobbyRoom.sendTo, if_neg nonempty] at sends
    rw [LobbyRoom.sendTo, if_neg alsoNonempty]
    split at sends
    · cases sends
    · cases sends
      refine ⟨_, rfl, ?_⟩
      simp only [Delivery.forAll, if_pos there, if_pos (same.mpr there)]
    · cases sends
      exact ⟨_, rfl, rfl⟩
  · have nobody : mine = ∅ := by
      refine Set.eq_empty_of_forall_notMem fun other member => ?_
      rw [nobodyElse other member] at member
      exact there (same.mp member)
    rw [nobody]
    refine ⟨.nothing, by rw [LobbyRoom.sendTo, if_pos rfl], ?_⟩
    rcases sendTo_cases sends with rfl | ⟨packet, left, -, rfl⟩
    · rfl
    · simp only [Delivery.forAll, if_neg there]
      rfl

/-- An order of the broker does the same for a client in both rooms. -/
theorem Obeyed.shows (alike : AlikeFor conn room alone) {order : BrokerOrder J}
    (obeyed : Obeyed json ids room order later delivery) :
    ∃ later' delivery', Obeyed json ids alone order later' delivery' ∧
      AlikeFor conn later later' ∧ delivery'.toClient conn = delivery.toClient conn := by
  cases obeyed with
  | setServerIDX => exact ⟨_, _, .setServerIDX, { alike with serverIDX := rfl }, rfl⟩
  | @toIdentity identity url jv delivery sends =>
      have within : conn ∈ {conn | conn ∈ alone.present ∧ ids.identity conn = identity} ↔
          conn ∈ {conn | conn ∈ room.present ∧ ids.identity conn = identity} := by
        rw [Set.mem_ofPred_eq, Set.mem_ofPred_eq, alike.present]
      obtain ⟨sent, sends', shown⟩ :=
        sendTo_shows within (fun other member => alike.nobodyElse other member.1) sends
      exact ⟨alone, sent, .toIdentity sends', alike, shown⟩
  | toEveryone sends =>
      obtain ⟨sent, sends', shown⟩ := sendTo_shows alike.present alike.nobodyElse sends
      exact ⟨alone, sent, .toEveryone sends', alike, shown⟩
  | toUserIDX => exact ⟨_, _, .toUserIDX, alike, rfl⟩
  | nothing => exact ⟨_, _, .nothing, alike, rfl⟩

theorem AlikeFor.enter (alike : AlikeFor conn room alone) :
    AlikeFor conn { room with present := insert conn room.present }
      { alone with present := insert conn alone.present } :=
  { alike with
    present := by simp
    nobodyElse := by
      intro other member
      rcases Set.mem_insert_iff.mp member with same | member
      · exact same
      · exact alike.nobodyElse other member }

theorem AlikeFor.leave (alike : AlikeFor conn room alone) :
    AlikeFor conn { room with present := room.present \ {conn} }
      { alone with present := alone.present \ {conn} } :=
  { alike with
    present := by simp
    nobodyElse := fun other member => alike.nobodyElse other member.1 }

/-- A call that concerns a client succeeds without the others as well, and shows the client the same. -/
theorem room_shows [DecidableEq C] {input : ServerInput C} (alike : AlikeFor conn room alone)
    (own : concerns conn input = true)
    (stepped : LobbyRoom.step json ids clientVersion room input = .ok (later, delivery)) :
    ∃ later' delivery', LobbyRoom.step json ids clientVersion alone input = .ok (later', delivery') ∧
      AlikeFor conn later later' ∧ clientView conn input delivery' = clientView conn input delivery := by
  have mine : ∀ other, caller input.event = some other → other = conn := by
    intro other called
    rw [concerns, called] at own
    exact of_decide_eq_true own
  simp only [room_step_cases]
  cases room_step_cases.mp stepped with
  | alreadyIn endpoint there =>
      cases mine _ rfl
      exact ⟨_, _, .alreadyIn endpoint (alike.present.mpr there), alike, rfl⟩
  | enters endpoint absent welcomes =>
      cases mine _ rfl
      exact ⟨_, _, .enters endpoint (fun there => absent (alike.present.mp there)) welcomes, alike.enter, rfl⟩
  | alreadyOut endpoint absent =>
      cases mine _ rfl
      exact ⟨_, _, .alreadyOut endpoint fun there => absent (alike.present.mp there), alike, rfl⟩
  | leaves endpoint there filled sends =>
      cases mine _ rfl
      rw [← alike.link] at sends
      exact ⟨_, _, .leaves endpoint (alike.present.mpr there) filled sends, alike.leave, rfl⟩
  | expires endpoint => exact ⟨_, _, .expires endpoint, alike, rfl⟩
  | noHandler => exact ⟨_, _, .noHandler, alike, rfl⟩
  | requests there requested =>
      cases mine _ rfl
      exact ⟨_, _, .requests (alike.present.mpr there) (requested.congr alike.serverIDX alike.link), alike, rfl⟩
  | notIn absent =>
      cases mine _ rfl
      exact ⟨_, _, .notIn fun there => absent (alike.present.mp there), alike, rfl⟩
  | links sends goesOn =>
      rw [← alike.link] at sends goesOn
      exact ⟨_, _, .links sends goesOn, { alike with link := rfl }, rfl⟩
  | obeys arrived obeyed =>
      obtain ⟨later', delivery', obeyed', still, shown⟩ := obeyed.shows alike
      refine ⟨later', delivery', .obeys arrived obeyed', still, ?_⟩
      rw [clientView, clientView, shown]
      rfl
  | ignores arrived undispatched => exact ⟨_, _, .ignores arrived undispatched, alike, rfl⟩
  | brokerNoHandler => exact ⟨_, _, .brokerNoHandler, alike, rfl⟩
  | brokerExpires => exact ⟨_, _, .brokerExpires, alike, rfl⟩

end

/-! ### Runs -/

theorem alikeFor_start (conn : C) (connector : Option ConnectOutcome) :
    AlikeFor conn (.start connector) (.start connector) where
  present := Iff.rfl
  nobodyElse := fun _ member => absurd member (Set.notMem_empty _)
  serverIDX := rfl
  link := rfl

variable [DecidableEq C]

/-- In every run that does not fail, a client gets what it gets when all calls for other clients are left
    out, its own calls send the same to the broker, and it is registered at the end in both runs or in
    neither. -/
theorem client_isolation {json : ServerJson J} (laws : MemberLaws json.toJsonCpp) (ids : Identities C)
    (clientVersion : Int) (connector : Option ConnectOutcome) (conn : C) {inputs : List (ServerInput C)}
    {server : LobbyServer C}
    {trace : List (ServerInput C × List (ServerOutput C))}
    (ran : LobbyServer.run json ids clientVersion connector inputs = .ok (server, trace)) :
    ∃ server' trace', LobbyServer.run json ids clientVersion connector
        (inputs.filter (concerns conn)) = .ok (server', trace') ∧
      viewed (fun input outputs => clientView conn input (Delivery.sorted outputs)) trace' =
        viewed (fun input outputs => clientView conn input (Delivery.sorted outputs)) trace ∧
      (ids.identity conn ∈ server'.manager.users ↔ ids.identity conn ∈ server.manager.users) := by
  have seen : ∀ (input : ServerInput C) (outputs : List (ServerOutput C)) (delivery : Delivery C),
      Delivery.sorted outputs = delivery →
      clientView conn input (Delivery.sorted outputs) = clientView conn input delivery := by
    rintro input outputs _ rfl
    rfl
  have refined := server_simulates laws ids clientVersion connector inputs
  rw [ran] at refined
  obtain ⟨room, deliveries, roomRan, represents, agree⟩ := refined.of_ok
  have hides : ∀ room alone input later delivery, AlikeFor conn room alone →
      concerns conn input = false →
      LobbyRoom.step json ids clientVersion room input = .ok (later, delivery) →
      AlikeFor conn later alone ∧ clientView conn input delivery = [] := fun _ _ _ _ _ => room_hides
  obtain ⟨alone, deliveries', aloneRan, alike, shown⟩ :=
    runTrace_purge hides (fun _ _ _ _ _ => room_shows) (alikeFor_start conn connector) roomRan
  have purged := server_simulates laws ids clientVersion connector (inputs.filter (concerns conn))
  rw [LobbyRoom.run, aloneRan] at purged
  obtain ⟨server', trace', serverRan, represents', agree'⟩ := purged.of_ok_right
  refine ⟨server', trace', serverRan, ?_, ?_⟩
  · rw [viewed_agree seen agree', viewed_agree seen agree, shown]
  · rw [represents'.consistent.registered, represents.consistent.registered, ← represents'.present,
      ← represents.present, alike.present]

/-- The client that stays, with and without the visit of the other one. -/
theorem client_isolation_visits : ∃ server trace server' trace',
    LobbyServer.run announcer twoConnections 7 none visits = .ok (server, trace) ∧
    LobbyServer.run announcer twoConnections 7 none (visits.filter (concerns true)) =
      .ok (server', trace') ∧
    viewed (fun input outputs => clientView true input (Delivery.sorted outputs)) trace' =
      viewed (fun input outputs => clientView true input (Delivery.sorted outputs)) trace := by
  obtain ⟨server, trace, ran⟩ := visits_succeed
  obtain ⟨server', trace', purged, same, -⟩ :=
    client_isolation announcer_laws twoConnections 7 none true ran
  exact ⟨server, trace, server', trace', ran, purged, same⟩

end LobbySvr.Proofs

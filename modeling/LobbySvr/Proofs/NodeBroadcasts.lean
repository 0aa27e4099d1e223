/-
Module: LobbySvr.Proofs.NodeBroadcasts
Layer: Proofs
Purpose: What a message of the broker does to the connections of the process.  The message is an order for one
  identity, for everybody, or for nobody; the connections it is for are given one and the same frame, and no
  other connection changes at all.
Imports: LobbySvr.Proofs.NodeFrames
Trusted boundary: none
Main exports: orderIn, orderPacket, IsFor, obey_gives, node_obeys
Open obligations: none
-/
import LobbySvr.Proofs.NodeFrames

namespace LobbySvr.Proofs

open LobbySvr.Foundation
open LobbySvr.Net
open LobbySvr.Spec
open LobbySvr.Lobby

section

variable {J : Type} (json : ServerJson J)

/-- The order in a message of the broker's connector. -/
def orderIn (beyond : List UInt8) (msg : MessageBuffer) : BrokerOrder J :=
  match BrokerConnector.readJsonPacket json.parse beyond msg with
  | .ok (.dispatched url _ jv) => BrokerOrder.read json.toBrokerJson url jv
  | _ => .nothing

/-- The packet for a client; none when jsoncpp throws, and none when the text does not fit into `jsonBody`. -/
def packetOf (url : List UInt8) (jv : J) : Option (List UInt8) :=
  match LobbyRoom.clientPacket json url jv with
  | .ok (.sent packet _) => some packet
  | _ => none

/-- The packet that an order is about. -/
def orderPacket : BrokerOrder J → Option (List UInt8)
  | .toIdentity _ url jv => packetOf json url jv
  | .toEveryone jv => packetOf json receiveMsgUrl jv
  | _ => none

/-- Whether an order is for a client; `inside` says whether the client is in. -/
def IsFor {C : Type} (ids : Identities C) (inside : Prop) (conn : C) : BrokerOrder J → Prop
  | .toIdentity identity _ _ => inside ∧ ids.identity conn = identity
  | .toEveryone _ => inside
  | _ => False

end

section

variable {C J : Type} {json : ServerJson J} {ids : Identities C} {conn : C} {room later : LobbyRoom C}
  {delivery : Delivery C}

/-- What `sendTo` gives a client. -/
theorem sendTo_gives {clients : Set C} {url : List UInt8} {jv : J}
    (sends : LobbyRoom.sendTo json clients url jv = .ok delivery) :
    (conn ∈ clients → delivery.toClient conn = (packetOf json url jv).toList.map .sendPacket) ∧
      (conn ∉ clients → delivery.toClient conn = []) := by
  unfold LobbyRoom.sendTo at sends
  split at sends
  · rename_i nobody
    cases sends
    refine ⟨fun member => ?_, fun _ => rfl⟩
    rw [nobody] at member
    exact absurd member (Set.notMem_empty conn)
  · unfold packetOf
    split at sends
    · cases sends
    · rename_i packet left built
      cases sends
      rw [built]
      exact ⟨fun member => if_pos member, fun absent => if_neg absent⟩
    · rename_i exit notSent built
      cases sends
      rw [built]
      refine ⟨fun _ => ?_, fun _ => rfl⟩
      cases exit with
      | sent packet left => exact absurd rfl (notSent packet left)
      | _ => rfl

/-- What an order gives a client. -/
theorem obey_gives {order : BrokerOrder J}
    (obeyed : LobbyRoom.obey json ids room order = .ok (later, delivery)) :
    (IsFor ids (conn ∈ room.present) conn order →
        delivery.toClient conn = (orderPacket json order).toList.map .sendPacket) ∧
      (¬ IsFor ids (conn ∈ room.present) conn order → delivery.toClient conn = []) := by
  cases order with
  | toIdentity identity url jv =>
      obtain ⟨sent, sends, same⟩ := map_eq_ok.mp obeyed
      cases same
      exact sendTo_gives sends
  | toEveryone jv =>
      obtain ⟨sent, sends, same⟩ := map_eq_ok.mp obeyed
      cases same
      exact sendTo_gives sends
  | _ =>
      cases obeyed
      exact ⟨False.elim, fun _ => rfl⟩

/-- A step of the room at a message of the broker obeys the order in it. -/
theorem step_obeys {clientVersion : Int} {around : Circumstances C} {msg : MessageBuffer}
    (stepped : LobbyRoom.step json ids clientVersion room ⟨.brokerReadJsonPacket msg, around⟩ =
      .ok (later, delivery)) :
    LobbyRoom.obey json ids room (orderIn json around.beyond msg) = .ok (later, delivery) := by
  simp only [LobbyRoom.step] at stepped
  unfold orderIn
  split at stepped
  · cases stepped
  · rename_i dispatched
    rw [dispatched]
    exact stepped
  · rename_i exit notDispatched read
    rw [read]
    cases exit with
    | dispatched url text jv => exact absurd rfl (notDispatched url text jv)
    | _ => exact stepped

/-- The packet of an order is a lobby packet. -/
theorem orderPacket_written {beyond : List UInt8} {msg : MessageBuffer} {packet : List UInt8}
    (about : orderPacket json (orderIn json beyond msg) = some packet) :
    ∃ known : JsonPacket, Written json known ∧ packet = (LobbyPacket.json known).payload := by
  have sent : ∀ {url : List UInt8} {jv : J}, url ∈ clientUrls → packetOf json url jv = some packet →
      ∃ known : JsonPacket, Written json known ∧ packet = (LobbyPacket.json known).payload := by
    intro url jv isUrl built
    unfold packetOf at built
    split at built
    · cases built
      exact clientPacket_written isUrl ‹_›
    · cases built
  unfold orderIn at about
  split at about
  · rename_i url text jv dispatched
    generalize order : BrokerOrder.read json.toBrokerJson url jv = read at about
    cases read with
    | toIdentity identity url jv => exact sent (order_url order) about
    | toEveryone jv => exact sent (by decide) about
    | _ => cases about
  · cases about

end

section

variable {limit : Nat} {J : Type} {json : ServerJson J} {ids : Identities (Fin limit)}
  {clientVersion : Int} {keepAliveTime : Nat} {connector : Option ConnectOutcome}
  {inputs : List (NodeInput limit)} {node next : LobbyNode limit}
  {trace : List (NodeInput limit × ServerCalls limit)} {calls : ServerCalls limit}

/-- A packet of the lobby, handed to a connection of the lobby, is one frame more for it. -/
theorem sendPacket_framed {conn : ConnectionImpl LobbyHandler} (packet : LobbyPacket)
    (manipulator : conn.msgManipulator = manipulatorJsonParserTest) :
    conn.sendPacket packet.payload = conn.asyncWrite (encodePacket plainCodec [packet.payload]) := by
  have maxSize := MessageBuffer.maxBufferSize_eq
  have length := payload_length packet
  have frame : sendPacketFrame manipulatorJsonParserTest packet.payload =
      .ok (encodePacket plainCodec [packet.payload]) :=
    sendPacketFrame_plain (by rw [sizeHeader]; omega)
  rw [ConnectionImpl.sendPacket, manipulator, frame]

/-- Behind any run of the process, a message of the broker hands one frame to each registered connection that
    the order in it is for, the same to all of them, and leaves every other connection exactly as it was.
    When jsoncpp throws, or the order is for nobody, no connection changes. -/
theorem node_obeys (laws : MemberLaws json.toJsonCpp)
    (ran : LobbyNode.run json ids clientVersion keepAliveTime connector inputs = .ok (node, trace))
    {msg : MessageBuffer} {around : Nat → Circumstances (Fin limit)}
    (stepped : LobbyNode.step json ids clientVersion node ⟨.broker (.readJsonPacket msg), around⟩ =
      .ok (next, calls)) (conn : Fin limit) :
    (IsFor ids (ids.identity conn ∈ node.server.manager.users) conn
        (orderIn json (around 0).beyond msg) →
      next.conns conn =
        match orderPacket json (orderIn json (around 0).beyond msg) with
        | some packet => (node.conns conn).asyncWrite (encodePacket plainCodec [packet])
        | none => node.conns conn) ∧
    (¬ IsFor ids (ids.identity conn ∈ node.server.manager.users) conn
        (orderIn json (around 0).beyond msg) →
      next.conns conn = node.conns conn) := by
  have serves : runTrace (LobbyNode.serve json ids clientVersion) node
      [⟨.brokerReadJsonPacket msg, around 0⟩] = .ok (next, calls) := stepped
  obtain ⟨serverRan, -, acts⟩ := serve_run serves
  obtain ⟨middle, outputs, rest, -, nothing, rfl⟩ := runTrace_cons.mp serves
  cases nothing
  have invariant := node_invariant laws ran
  have whole : LobbyServer.run json ids clientVersion connector
      ((callsMade trace ++ [(ServerInput.mk (.brokerReadJsonPacket msg) (around 0), outputs)]).map Prod.fst) =
        .ok (next.server,
          callsMade trace ++ [(ServerInput.mk (.brokerReadJsonPacket msg) (around 0), outputs)]) := by
    rw [List.map_append]
    exact runTrace_append.mpr ⟨_, _, _, invariant.serves, serverRan, rfl⟩
  obtain ⟨given, notGiven⟩ := @obey_gives _ _ _ _ conn _ _ _ _ (step_obeys (server_step_in_run laws whole rfl))
  have registered : conn ∈ (roomAfter json connector ((callsMade trace).map Prod.fst)).present ↔
      ids.identity conn ∈ node.server.manager.users :=
    (registered_iff_inside laws invariant.serves conn).symm
  rw [propext registered] at given notGiven
  have own : actionsFor conn [(ServerInput.mk (.brokerReadJsonPacket msg) (around 0), outputs)] =
      (Delivery.sorted outputs).toClient conn := List.append_nil _
  have acts := acts conn
  rw [own] at acts
  constructor
  · intro isFor
    rw [acts, given isFor]
    split
    · rename_i packet about
      obtain ⟨known, -, rfl⟩ := orderPacket_written about
      rw [about]
      exact sendPacket_framed (.json known) (node_framed ran conn).manipulator
    · rename_i none
      rw [none]
      rfl
  · intro notFor
    rw [acts, notGiven notFor]
    rfl

end

/-! ### A message for everybody -/

/-- One connection is accepted. -/
def firstVisit : List (NodeInput 2) := [⟨.accept ⟨noError, false⟩, fun _ => calm⟩]

theorem firstVisit_succeeds : ∃ node trace outputs,
    LobbyNode.run announcer firstIdentities 7 0 none firstVisit = .ok (node, trace) ∧
      callsMade trace = [(⟨.onAccept 0, calm⟩, outputs)] := by
  obtain ⟨served, gone, welcoming, closing, accepts, -⟩ := visitCalls_succeed
  obtain ⟨node, accepted, -⟩ := @accept_step 2 _ announcer firstIdentities 7
    (.start 0 none) 0 [] (fun _ => calm) served [(⟨.onAccept 0, calm⟩, welcoming)] rfl
    (runTrace_cons.mpr ⟨_, _, _, accepts, rfl, rfl⟩)
  exact ⟨node, _, welcoming, runTrace_cons.mpr ⟨_, _, _, accepted, rfl, rfl⟩, rfl⟩

/-- It has let the one client in, and nobody else. -/
theorem inside_firstVisit (conn : Fin 2) :
    Inside conn [(⟨.onAccept 0, calm⟩ : ServerInput (Fin 2))] ↔ conn = 0 := by
  constructor
  · rintro ⟨before, accept, behind, split, accepted, -⟩
    have member : accept ∈ [(⟨.onAccept 0, calm⟩ : ServerInput (Fin 2))] :=
      split ▸ List.mem_append_right _ List.mem_cons_self
    cases List.mem_singleton.mp member
    cases accepted
    rfl
  · rintro rfl
    exact ⟨[], _, [], rfl, rfl, fun _ member => absurd member List.not_mem_nil⟩

/-- The message can be obeyed as long as somebody is there. -/
theorem announcement_obeyed {C : Type} [DecidableEq C] (ids : Identities C) {room : LobbyRoom C}
    (someone : room.present.Nonempty) : ∃ delivery, LobbyRoom.step announcer ids 7 room
      ⟨.brokerReadJsonPacket (.received announced), calm⟩ = .ok (room, delivery) := by
  have sent := sendTo_ok someone (user_sends announcer.toJsonCpp 0 (fun _ => 0)
    (by decide : receiveMsgUrl.length ≤ maxUrlString) announcement_prepares announcement_fits)
  have read : LobbyRoom.step announcer ids 7 room ⟨.brokerReadJsonPacket (.received announced), calm⟩ =
      LobbyRoom.obey announcer ids room (.toEveryone announcement) := by
    simp only [LobbyRoom.step, calm, announced_arrives, announced_order]
  exact ⟨_, read.trans (map_eq_ok.mpr ⟨_, sent, rfl⟩)⟩

/-- It is an order for everybody, and it is about a packet. -/
theorem announcement_ordered :
    orderIn announcer (calm (C := Fin 2)).beyond (.received announced) = .toEveryone announcement ∧
      ∃ packet, orderPacket announcer (.toEveryone announcement) = some packet := by
  constructor
  · change orderIn announcer [] (.received announced) = _
    rw [orderIn, announced_arrives]
    exact announced_order
  · have sent := user_sends announcer.toJsonCpp 0 (fun _ => 0)
      (by decide : receiveMsgUrl.length ≤ maxUrlString) announcement_prepares announcement_fits
    rw [orderPacket, packetOf, LobbyRoom.clientPacket, sent]
    exact ⟨_, rfl⟩

/-- The node can obey it. -/
theorem announcement_taken {node : LobbyNode 2} {trace : List (NodeInput 2 × ServerCalls 2)}
    (ran : LobbyNode.run announcer firstIdentities 7 0 none firstVisit = .ok (node, trace))
    (somebody : (roomAfter announcer none ((callsMade trace).map Prod.fst)).present.Nonempty) :
    ∃ next calls, LobbyNode.step announcer firstIdentities 7 node
      ⟨.broker (.readJsonPacket (.received announced)), fun _ => calm⟩ = .ok (next, calls) := by
  have represents := server_represents announcer_laws (node_invariant announcer_laws ran).serves
  have agrees := step_refines announcer_laws 7 represents
    ⟨.brokerReadJsonPacket (.received announced), calm⟩
  obtain ⟨delivery, obeyed⟩ := announcement_obeyed firstIdentities somebody
  rw [obeyed] at agrees
  obtain ⟨server, given, stepped, -⟩ := agrees.of_ok_right
  obtain ⟨next, serves⟩ := @serve_runs 2 _ announcer firstIdentities 7 node
    [⟨.brokerReadJsonPacket (.received announced), calm⟩] server _
    (runTrace_cons.mpr ⟨_, _, _, stepped, rfl, rfl⟩)
  exact ⟨next, _, serves⟩

/-- The connection that has come gets a frame, and the other one stays as it was. -/
theorem node_obeys_announcement : ∃ node trace next calls packet,
    LobbyNode.run announcer firstIdentities 7 0 none firstVisit = .ok (node, trace) ∧
    LobbyNode.step announcer firstIdentities 7 node
        ⟨.broker (.readJsonPacket (.received announced)), fun _ => calm⟩ = .ok (next, calls) ∧
    orderPacket announcer (orderIn announcer (calm (C := Fin 2)).beyond (.received announced)) =
      some packet ∧
    next.conns 0 = (node.conns 0).asyncWrite (encodePacket plainCodec [packet]) ∧
    next.conns 1 = node.conns 1 := by
  obtain ⟨node, trace, outputs, ran, made⟩ := firstVisit_succeeds
  have entered : ∀ conn, Inside conn ((callsMade trace).map Prod.fst) ↔ conn = 0 := by
    rw [made]
    exact inside_firstVisit
  have registered : ∀ conn, firstIdentities.identity conn ∈ node.server.manager.users ↔ conn = 0 :=
    fun conn => (registered_iff_inside announcer_laws (node_invariant announcer_laws ran).serves conn).trans
      (entered conn)
  obtain ⟨next, calls, taken⟩ := announcement_taken ran ⟨0, (entered 0).mpr rfl⟩
  obtain ⟨everybody, packet, about⟩ := announcement_ordered
  have here := (node_obeys announcer_laws ran taken 0).1
  have there := (node_obeys announcer_laws ran taken 1).2
  rw [everybody] at here there
  rw [about] at here
  refine ⟨node, trace, next, calls, packet, ran, taken, everybody ▸ about,
    here ((registered 0).mpr rfl), there fun inside => ?_⟩
  exact absurd ((registered 1).mp inside) (by decide)

end LobbySvr.Proofs

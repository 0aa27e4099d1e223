/-
Module: LobbySvr.Proofs.LobbyRefinement
Layer: Proofs
Purpose: The lobby server refines the room.  Behind the tags, the two maps, the counted references and the value
  that a broadcast hands from one client to the next, every call of a handler does to each client and to the
  broker what the room does, and fails exactly when the room fails.  What the structs held before they were
  filled in comes out nowhere.
Imports: LobbySvr.Spec.LobbyRoom, LobbySvr.Foundation.Traces, LobbySvr.Proofs.BroadcastUniform,
  LobbySvr.Proofs.MessageRouting
Trusted boundary: none
Main exports: clientPacket_memory, brokerPacket_memory, Represents, represents_start, step_refines,
  server_simulates, lobby_refines_room, flatServerJson, calm, announcer,
  visits, visits_succeed
Open obligations: none
-/
import Mathlib
import LobbySvr.Spec.LobbyRoom
import LobbySvr.Foundation.Traces
import LobbySvr.Proofs.BroadcastUniform
import LobbySvr.Proofs.MessageRouting

namespace LobbySvr.Proofs

open LobbySvr.Foundation
open LobbySvr.Net
open LobbySvr.Spec
open LobbySvr.Lobby

variable {C J : Type}

/-! ### Packets do not depend on memory -/

/-- A packet for a client is made of its URL and its value alone, and so is a failure to make it. -/
theorem clientPacket_memory (json : JsonCpp J) (sequenceNo sequenceNo' : UInt32)
    (memory memory' : Nat → UInt8) (url : List UInt8) (jv : J) :
    User.sendJsonPacket json (.new sequenceNo memory) url jv =
      User.sendJsonPacket json (.new sequenceNo' memory') url jv := by
  cases prepares : User.prepare json jv with
  | none => simp only [User.sendJsonPacket, prepares]
  | some result =>
      obtain ⟨packetSequenceNo, prepared⟩ := result
      by_cases urlRoom : url.length ≤ maxUrlString
      · by_cases room : (json.write prepared).length + 1 ≤ LobbyProtocol.maxBodySize
        · rw [user_sends json _ _ urlRoom prepares room, user_sends json _ _ urlRoom prepares room]
          rfl
        · have long := Nat.lt_of_not_le room
          rw [user_sends_overflow json _ _ urlRoom prepares long,
            user_sends_overflow json _ _ urlRoom prepares long]
      · have outside : ∀ field, copyUrl field url = .error .undefinedBehaviour := by
          intro field
          rw [copyUrl, if_pos (Nat.lt_of_not_le urlRoom)]
        simp only [User.sendJsonPacket, prepares, User.fill, outside, bind, Except.bind]

/-- The same for a packet for the broker. -/
theorem brokerPacket_memory (json : JsonCpp J) (memory memory' : Nat → UInt8) (url : List UInt8) (jv : J) :
    ConnectorUser.sendJsonPacket json (.new memory) url jv =
      ConnectorUser.sendJsonPacket json (.new memory') url jv := by
  by_cases urlRoom : url.length ≤ maxUrlString
  · by_cases room : (json.write jv).length ≤ BrokerProtocol.maxBodySize
    · rw [connectorUser_sends json _ urlRoom room, connectorUser_sends json _ urlRoom room]
      rfl
    · have overflow : ∀ field, copyBody BrokerProtocol.maxBodySize field 0 (json.write jv) =
          .error .undefinedBehaviour := fun field => copyBody_overflow field (by omega)
      simp only [ConnectorUser.sendJsonPacket, ConnectorUser.fill, BrokerProtocol.PtJson.new,
        copyUrl_zeroed urlRoom, overflow, bind, Except.bind]
  · have outside : ∀ field, copyUrl field url = .error .undefinedBehaviour := by
      intro field
      rw [copyUrl, if_pos (Nat.lt_of_not_le urlRoom)]
    simp only [ConnectorUser.sendJsonPacket, ConnectorUser.fill, outside, bind, Except.bind]

/-- What a call of `User::SendJsonPacket` comes to.  Its size check turns nothing away. -/
theorem clientPacket_cases (json : JsonCpp J) {url : List UInt8} (urlRoom : url.length ≤ maxUrlString)
    (jv : J) :
    (∀ sequenceNo memory, User.sendJsonPacket json (.new sequenceNo memory) url jv = .ok .jsonException) ∨
      (∀ sequenceNo memory,
        User.sendJsonPacket json (.new sequenceNo memory) url jv = .error .undefinedBehaviour) ∨
      ∃ packetSequenceNo prepared packet, User.prepare json jv = some (packetSequenceNo, prepared) ∧
        ∀ sequenceNo memory jv, User.prepare json jv = some (packetSequenceNo, prepared) →
          User.sendJsonPacket json (.new sequenceNo memory) url jv = .ok (.sent packet prepared) := by
  cases prepares : User.prepare json jv with
  | none =>
      refine .inl fun sequenceNo memory => ?_
      simp only [User.sendJsonPacket, prepares]
  | some result =>
      obtain ⟨packetSequenceNo, prepared⟩ := result
      by_cases room : (json.write prepared).length + 1 ≤ LobbyProtocol.maxBodySize
      · refine .inr (.inr ⟨packetSequenceNo, prepared,
          (filledLobby packetSequenceNo (fun _ => 0) url (json.write prepared)).head ++
            (json.write prepared ++ [0]), rfl, fun sequenceNo memory jv same => ?_⟩)
        rw [clientPacket_memory json sequenceNo 0 memory (fun _ => 0)]
        exact user_sends json 0 _ urlRoom same room
      · exact .inr (.inl fun sequenceNo memory =>
          user_sends_overflow json sequenceNo memory urlRoom prepares (Nat.lt_of_not_le room))

section

variable (json : ServerJson J)

theorem welcome_memory (pk : UInt32 × (Nat → UInt8)) :
    LobbyServer.welcome json pk = LobbyServer.welcome json (0, fun _ => 0) := by
  unfold LobbyServer.welcome
  cases LobbyServer.connectedRsp json with
  | none => rfl
  | some rsp => simp only [clientPacket_memory json.toJsonCpp pk.1 0 pk.2 (fun _ => 0)]

theorem login_memory (clientVersion : Int) (remoteEndpoint user : Bool) (pk : UInt32 × (Nat → UInt8))
    (url : List UInt8) (jv : J) :
    NhLobby.login json clientVersion remoteEndpoint user (.new pk.1 pk.2) url jv =
      NhLobby.login json clientVersion remoteEndpoint user (.new 0 fun _ => 0) url jv := by
  simp only [NhLobby.login, NhLobby.sendDBFailed,
    clientPacket_memory json.toJsonCpp pk.1 0 pk.2 (fun _ => 0)]

theorem sendToBroker_memory (brokerPk : Nat → UInt8) (url : List UInt8) (jv : J) (link : BrokerLink) :
    LobbyServer.sendToBroker (C := C) json brokerPk url jv link =
      LobbyServer.sendToBroker json (fun _ => 0) url jv link := by
  simp only [LobbyServer.sendToBroker, brokerPacket_memory json.toJsonCpp brokerPk (fun _ => 0)]

theorem linkSends_memory (brokerPk : Nat → UInt8) (event : BrokerEvent) (link : BrokerLink) :
    LobbyServer.linkSends (C := C) json brokerPk event link =
      LobbyServer.linkSends json (fun _ => 0) event link := by
  simp only [LobbyServer.linkSends, brokerPacket_memory json.toJsonCpp brokerPk (fun _ => 0)]

end

/-! ### Outputs by receiver -/

section

variable [DecidableEq C]

theorem clientActions_map (conn other : C) (actions : List Action) :
    Delivery.clientActions conn (actions.map (.client other)) = if other = conn then actions else [] := by
  induction actions with
  | nil => simp [Delivery.clientActions]
  | cons action actions inductionHypothesis =>
      rw [List.map_cons, Delivery.clientActions, inductionHypothesis]
      split
      · rfl
      · rfl

omit [DecidableEq C] in
theorem brokerActions_client {β : Type} (outputs : List β) (conn : β → C) (action : β → Action) :
    Delivery.brokerActions (outputs.map fun output => .client (conn output) (action output)) = [] := by
  induction outputs with
  | nil => rfl
  | cons output outputs inductionHypothesis => exact inductionHypothesis

/-- Actions for one client. -/
theorem sorted_client (conn : C) (actions : List Action) :
    Delivery.sorted (actions.map (.client conn)) = .forClient conn actions := by
  refine Delivery.ext (funext fun other => ?_) (brokerActions_client actions (fun _ => conn) id)
  simp only [Delivery.sorted, Delivery.forClient, clientActions_map, eq_comm]

/-- One packet for each of several clients. -/
theorem sorted_packets {clients : List C} (once : clients.Nodup) (packet : List UInt8) :
    Delivery.sorted (clients.map fun conn => .client conn (.sendPacket packet)) =
      .forAll {conn | conn ∈ clients} packet := by
  refine Delivery.ext (funext fun conn => ?_) (brokerActions_client clients id fun _ => .sendPacket packet)
  simp only [Delivery.sorted, Delivery.forAll, Set.mem_ofPred_eq]
  induction clients with
  | nil => simp [Delivery.clientActions]
  | cons first clients inductionHypothesis =>
      obtain ⟨fresh, rest⟩ := List.nodup_cons.mp once
      rw [List.map_cons, Delivery.clientActions, inductionHypothesis rest]
      by_cases same : first = conn
      · subst same
        simp [fresh]
      · simp [same, Ne.symm same]

omit [DecidableEq C] in
theorem forAll_singleton (conn : C) (packet : List UInt8) :
    Delivery.forAll {conn} packet = .forClient conn [.sendPacket packet] := by
  refine Delivery.ext (funext fun other => ?_) rfl
  by_cases same : other = conn
  · simp [Delivery.forAll, Delivery.forClient, same]
  · simp [Delivery.forAll, Delivery.forClient, same]

/-- What goes to the broker goes to no client. -/
theorem sendToBroker_sorted (json : ServerJson J) (brokerPk : Nat → UInt8) (url : List UInt8) (jv : J)
    (link : BrokerLink) :
    (LobbyServer.sendToBroker (C := C) json brokerPk url jv link).map Delivery.sorted =
      LobbyRoom.toBroker json url jv link := by
  rw [LobbyRoom.toBroker, sendToBroker_memory]
  unfold LobbyServer.sendToBroker
  split
  · rfl
  · rfl
  · split
    · rfl
    · rfl

theorem linkSends_sorted (json : ServerJson J) (brokerPk : Nat → UInt8) (event : BrokerEvent)
    (link : BrokerLink) {outputs : List (ServerOutput C)}
    (sends : LobbyServer.linkSends json brokerPk event link = .ok outputs) :
    Delivery.sorted outputs = ⟨fun _ => [], Delivery.brokerActions outputs⟩ := by
  unfold LobbyServer.linkSends at sends
  split at sends
  · split at sends
    · cases sends
      rfl
    · split at sends
      · cases sends
      · split at sends
        · cases sends
        · cases sends
          rfl
  · cases sends
    rfl

/-! ### The room behind a server -/

/-- A server with a consistent registry and no routes, and the room of its registered clients. -/
structure Represents (ids : Identities C) (server : LobbyServer C) (room : LobbyRoom C) : Prop where
  consistent : Consistent ids server.manager
  /-- Nothing in the server calls `userLogined`. -/
  noRoutes : ∀ index : UInt32, server.manager.nodeToUserMap[index]? = none
  present : ∀ conn, conn ∈ room.present ↔ server.manager.tag conn ≠ none
  serverIDX : room.serverIDX = server.idx4Broker
  link : room.link = server.link

omit [DecidableEq C] in
theorem represents_start (ids : Identities C) (connector : Option ConnectOutcome) :
    Represents ids (.start connector) (.start connector) where
  consistent := consistent_empty
  noRoutes index := by
    change (∅ : OrderedMap UInt32 UInt64)[index]? = none
    simp
  present conn := by simp [LobbyRoom.start, LobbyServer.start, LobbyUserManager.empty]
  serverIDX := rfl
  link := rfl

/-- A call of the server and what the room makes of it agree. -/
abbrev StepAgrees (ids : Identities C) :
    Except Fault (LobbyServer C × List (ServerOutput C)) → Except Fault (LobbyRoom C × Delivery C) → Prop :=
  Agrees (Represents ids) fun outputs delivery => Delivery.sorted outputs = delivery

variable {ids : Identities C} {server : LobbyServer C} {room : LobbyRoom C}

/-- A call that changes neither of the two. -/
theorem stepAgrees_same (represents : Represents ids server room)
    {outputs : Except Fault (List (ServerOutput C))} {delivery : Except Fault (Delivery C)}
    (same : outputs.map Delivery.sorted = delivery) :
    StepAgrees ids (outputs.map (server, ·)) (delivery.map (room, ·)) := by
  subst same
  cases outputs with
  | error fault => exact .fails fault
  | ok outputs => exact .succeeds represents rfl

/-- Both call `remote_endpoint` first. -/
theorem stepAgrees_withEndpoint (around : Circumstances C)
    {outcome : Except Fault (LobbyServer C × List (ServerOutput C))}
    {outcome' : Except Fault (LobbyRoom C × Delivery C)} (agrees : StepAgrees ids outcome outcome') :
    StepAgrees ids (LobbyServer.withEndpoint around outcome)
      (LobbyServer.withEndpoint around outcome') := by
  unfold LobbyServer.withEndpoint
  split
  · exact .fails _
  · exact agrees

/-! ### Requests of clients -/

section

variable (json : ServerJson J) (clientVersion : Int)

theorem dispatch_sorted (represents : Represents ids server room) (around : Circumstances C) {conn : C}
    (tagged : server.manager.tag conn ≠ none) (url : List UInt8) (jv : J) :
    (LobbyServer.dispatch json ids clientVersion around conn url jv server).map Delivery.sorted =
      LobbyRoom.request json ids clientVersion around conn url jv room := by
  have user := represents.consistent.tagged tagged
  unfold LobbyServer.dispatch LobbyRoom.request
  rw [user, Option.isSome_some, login_memory]
  split
  · generalize NhLobby.login json clientVersion around.remoteEndpoint true (.new 0 fun _ => 0) url jv =
      outcome
    cases outcome with
    | error fault => rfl
    | ok exit => exact congrArg Except.ok (sorted_client conn _)
  · split
    · have sender : (some (⟨conn, 0, []⟩ : LobbyUser C)).map (LobbyUser.chatUser ids) =
          some ⟨0, [], (ids.identity conn).toNat⟩ := rfl
      rw [represents.serverIDX, represents.link, sender]
      generalize NhChat.decide json.toJsonCpp _ (some _) jv = decision
      cases decision with
      | forward jv => exact sendToBroker_sorted json ..
      | _ => rfl
    · rfl

theorem readJsonPacket_sorted (represents : Represents ids server room) (around : Circumstances C)
    {conn : C} (tagged : server.manager.tag conn ≠ none) (size : UInt32) (msg : MessageBuffer) :
    (LobbyServer.readJsonPacket json ids clientVersion around conn size msg server).map Delivery.sorted =
      LobbyRoom.jsonPacket json ids clientVersion around conn size msg room := by
  have user : (server.manager.tag conn).isSome = true := Option.isSome_iff_ne_none.mpr tagged
  rw [LobbyServer.readJsonPacket, LobbyRoom.jsonPacket, readJsonPacketInto_eq, user]
  cases LobbyAcceptorReceiver.readJsonPacket json.parse true around.beyond size msg with
  | error fault => rfl
  | ok exit =>
      cases exit with
      | invalidPacket => exact congrArg Except.ok (sorted_client conn [.closeReserve 0])
      | dispatched url text jv =>
          have requested := dispatch_sorted json clientVersion represents around tagged url jv
          refine Eq.trans ?_ requested
          simp only [Except.map, LobbyRead.ofExit, List.map_nil]
          cases LobbyServer.dispatch json ids clientVersion around conn url jv server with
          | error fault => rfl
          | ok outputs => rfl
      | _ => rfl

omit [DecidableEq C] in
/-- A client that is not registered is not listened to. -/
theorem readJsonPacket_unregistered (around : Circumstances C) {conn : C}
    (untagged : server.manager.tag conn = none) (size : UInt32) (msg : MessageBuffer) :
    LobbyServer.readJsonPacket json ids clientVersion around conn size msg server = .ok [] := by
  simp only [LobbyServer.readJsonPacket, untagged, Option.isSome_none,
    LobbyAcceptorReceiver.readJsonPacketInto, if_true, List.map_nil]

end

/-! ### Messages of the broker -/

section

variable {json : ServerJson J}

omit [DecidableEq C] in
/-- The registered connections, as the entries of the map. -/
theorem present_entries (represents : Represents ids server room) :
    room.present = {conn | conn ∈ server.manager.users.toList.map Prod.snd} := by
  ext conn
  rw [Set.mem_ofPred_eq, (registered_order represents.consistent).2 conn,
    represents.consistent.registered, represents.present]

/-- A broadcast through the registry gives everyone in the room one packet, whatever the first calls do to
    the value that is handed on. -/
theorem broadcast_sorted (laws : MemberLaws json.toJsonCpp) (represents : Represents ids server room)
    (memory : C → UInt32 × (Nat → UInt8)) (jv : J) (left : List C × Option J) :
    ((BrokerExit.broadcast left.1 left.2).packets
        (server.manager.packetsFromBrokerAll json.toJsonCpp memory receiveMsgUrl jv)).map
        (fun packets =>
          Delivery.sorted (packets.map fun handed => .client handed.1 (.sendPacket handed.2))) =
      LobbyRoom.sendTo json room.present receiveMsgUrl jv := by
  obtain ⟨once, -⟩ := registered_order represents.consistent
  have entries := present_entries represents
  have known : ∀ entry ∈ server.manager.users.toList, server.manager.tag entry.2 ≠ none := by
    rintro ⟨identity, conn⟩ member
    exact ((represents.consistent.found identity conn).mp (entry_iff_find.mp member)).2
  rw [LobbyUserManager.packetsFromBrokerAll, entries]
  generalize server.manager.users.toList = users at known once
  cases users with
  | nil =>
      have nobody : {conn | conn ∈ ([] : List (UInt64 × C)).map Prod.snd} = (∅ : Set C) := by simp
      rw [nobody, LobbyRoom.sendTo, if_pos rfl]
      rfl
  | cons entry users =>
      have someone : {conn | conn ∈ (entry :: users).map Prod.snd} ≠ (∅ : Set C) :=
        Set.Nonempty.ne_empty ⟨entry.2, List.mem_cons_self ..⟩
      have here := known entry (List.mem_cons_self ..)
      have behind := userBehind_eq represents.consistent here
      rw [LobbyRoom.sendTo, if_neg someone, LobbyRoom.clientPacket]
      obtain raises | fails | ⟨packetSequenceNo, prepared, packet, prepares, sends⟩ :=
        clientPacket_cases json.toJsonCpp (by decide : receiveMsgUrl.length ≤ maxUrlString) jv
      · rw [handToEach_raises _ represents.consistent (fun _ => raises _ _) here, raises]
        rfl
      · simp only [LobbyUserManager.handToEach, behind, fails]
        rfl
      · have again := prepare_idempotent laws prepares
        obtain ⟨last, handed⟩ := handToEach_uniform
          (fun user jv => User.sendJsonPacket json.toJsonCpp
            (.new (memory user.conn).1 (memory user.conn).2) receiveMsgUrl jv) represents.consistent
          (fun user => sends _ _ _ prepares) (fun user => sends _ _ _ again) (entry :: users) known
        rw [handed, sends _ _ _ prepares]
        refine congrArg Except.ok ((congrArg Delivery.sorted ?_).trans (sorted_packets once packet))
        simp only [List.map_map]
        rfl

omit [DecidableEq C] in
/-- The clients with an identity are the one that the registry finds. -/
theorem present_identity (represents : Represents ids server room) (identity : UInt64) :
    {conn | conn ∈ room.present ∧ ids.identity conn = identity} =
      {conn | server.manager.sendPacketFromBroker identity = some conn} := by
  ext conn
  rw [Set.mem_ofPred_eq, Set.mem_ofPred_eq, sendPacketFromBroker_iff represents.consistent,
    represents.present, and_comm]

/-- The packets of a message that is no answer to `/auth`. -/
theorem afterMessage_agrees (represents : Represents ids server room)
    {each : List (C × List UInt8) × Except Fault (Option J)} {exit : BrokerExit C J}
    (other : ∀ serverIDX, exit ≠ .authorised serverIDX) {delivery : Except Fault (Delivery C)}
    (same : (exit.packets each).map (fun packets =>
      Delivery.sorted (packets.map fun handed => .client handed.1 (.sendPacket handed.2))) = delivery) :
    StepAgrees ids (LobbyServer.afterMessage each server exit) (delivery.map (room, ·)) := by
  subst same
  unfold LobbyServer.afterMessage
  split
  · exact absurd rfl (other _)
  · cases exit.packets each with
    | error fault => exact .fails fault
    | ok packets => exact .succeeds represents rfl

/-- A message that hands nothing to anyone. -/
theorem afterMessage_nothing (represents : Represents ids server room)
    {each : List (C × List UInt8) × Except Fault (Option J)} {exit : BrokerExit C J}
    (other : ∀ serverIDX, exit ≠ .authorised serverIDX) (nothing : exit.packets each = .ok []) :
    StepAgrees ids (LobbyServer.afterMessage each server exit) (.ok (room, .nothing)) := by
  have same : (exit.packets each).map (fun packets =>
      Delivery.sorted (packets.map fun handed => .client handed.1 (.sendPacket handed.2))) =
        .ok .nothing := by
    rw [nothing]
    rfl
  exact afterMessage_agrees represents other same

/-- A packet for the client that the registry finds. -/
theorem handTo_agrees (represents : Represents ids server room) (pk : UInt32 × (Nat → UInt8))
    (each : List (C × List UInt8) × Except Fault (Option J)) (url : List UInt8) (jv : J)
    (identity : UInt64) :
    StepAgrees ids (LobbyServer.afterMessage each server (ConnectorHandler.handTo json.toBrokerJson
        (.new pk.1 pk.2) url jv (server.manager.sendPacketFromBroker identity)))
      (LobbyRoom.obey json ids room (.toIdentity identity url jv)) := by
  rw [LobbyRoom.obey, present_identity represents]
  generalize server.manager.sendPacketFromBroker identity = target
  cases target with
  | none =>
      refine afterMessage_agrees represents (fun _ => by simp [ConnectorHandler.handTo]) ?_
      have nobody : {conn | (none : Option C) = some conn} = (∅ : Set C) := by simp
      rw [nobody, LobbyRoom.sendTo, if_pos rfl]
      rfl
  | some conn =>
      refine afterMessage_agrees represents (fun _ => by simp [ConnectorHandler.handTo]) ?_
      have only : {other | some conn = some other} = ({conn} : Set C) := by
        ext other
        simp [eq_comm]
      rw [only, LobbyRoom.sendTo, if_neg (Set.singleton_nonempty conn).ne_empty, LobbyRoom.clientPacket,
        ConnectorHandler.handTo, clientPacket_memory json.toJsonCpp pk.1 0 pk.2 (fun _ => 0)]
      cases User.sendJsonPacket json.toJsonCpp (.new 0 fun _ => 0) url jv with
      | error fault => rfl
      | ok exit =>
          cases exit with
          | sent packet later =>
              exact congrArg Except.ok
                ((sorted_client conn [.sendPacket packet]).trans (forAll_singleton conn packet).symm)
          | _ => rfl

/-- An answer that names its identity. -/
theorem sendByIdentity_agrees (represents : Represents ids server room) (pk : UInt32 × (Nat → UInt8))
    (each : List (C × List UInt8) × Except Fault (Option J)) (url : List UInt8) (jv : J) :
    StepAgrees ids (LobbyServer.afterMessage each server (ConnectorHandler.sendByIdentity
        json.toBrokerJson (.new pk.1 pk.2) url jv server.manager))
      (LobbyRoom.obey json ids room (BrokerOrder.readIdentity json.toBrokerJson url jv)) := by
  unfold ConnectorHandler.sendByIdentity BrokerOrder.readIdentity
  cases json.index jv "identity" with
  | none => exact afterMessage_nothing represents (fun _ => by simp) rfl
  | some result =>
      obtain ⟨member, later⟩ := result
      dsimp only
      cases json.asUInt64 member with
      | none => exact afterMessage_nothing represents (fun _ => by simp) rfl
      | some identity => exact handTo_agrees represents pk each url later identity

/-- A chat message: for everyone, or for a user index, which nobody has. -/
theorem chatReceiveMsg_agrees (laws : MemberLaws json.toJsonCpp) (represents : Represents ids server room)
    (around : Circumstances C) (jv : J) :
    StepAgrees ids (LobbyServer.afterMessage (LobbyServer.broadcastPackets json around jv server.manager)
        server (ConnectorHandler.chatReceiveMsg json.toBrokerJson (.new around.pk.1 around.pk.2) jv
          server.manager))
      (LobbyRoom.obey json ids room (BrokerOrder.readChannel json.toBrokerJson jv)) := by
  unfold ConnectorHandler.chatReceiveMsg BrokerOrder.readChannel LobbyServer.broadcastPackets
  cases json.index jv "channelType" with
  | none => exact afterMessage_nothing represents (fun _ => by simp) rfl
  | some result =>
      obtain ⟨channelType, later⟩ := result
      dsimp only
      cases json.asInt channelType with
      | none => exact afterMessage_nothing represents (fun _ => by simp) rfl
      | some channel =>
          by_cases everyone : channel = 1
          · subst everyone
            exact afterMessage_agrees represents (fun _ => by simp)
              (broadcast_sorted laws represents around.pkEach later
                (server.manager.sendPacketFromBrokerAll json.toJsonCpp (.new around.pk.1 around.pk.2)
                  receiveMsgUrl later))
          · by_cases isPrivate : channel = 2
            · subst isPrivate
              cases json.index later "addition_toIDX" with
              | none => exact afterMessage_nothing represents (fun _ => by simp) rfl
              | some result =>
                  obtain ⟨toIDX, last⟩ := result
                  dsimp only
                  cases json.asUInt toIDX with
                  | none => exact afterMessage_nothing represents (fun _ => by simp) rfl
                  | some index =>
                      have nobody : server.manager.sendPacketFromBrokerByUserIDX index = none := by
                        simp only [LobbyUserManager.sendPacketFromBrokerByUserIDX, represents.noRoutes]
                      dsimp only
                      rw [nobody]
                      exact afterMessage_nothing represents
                        (fun _ => by simp [ConnectorHandler.handTo]) rfl
            · split
              · rename_i found
                cases found
              · rename_i found
                exact absurd (Option.some.inj found) everyone
              · rename_i found
                exact absurd (Option.some.inj found) isPrivate
              · split
                · rename_i found
                  exact absurd (Option.some.inj found) everyone
                · rename_i found
                  exact absurd (Option.some.inj found) isPrivate
                · exact afterMessage_nothing represents (fun _ => by simp) rfl

theorem brokerMessage_agrees (laws : MemberLaws json.toJsonCpp) (represents : Represents ids server room)
    (around : Circumstances C) (url : List UInt8) (jv : J) :
    StepAgrees ids (LobbyServer.brokerMessage json around url jv server)
      (LobbyRoom.obey json ids room (BrokerOrder.read json.toBrokerJson url jv)) := by
  unfold LobbyServer.brokerMessage BrokerConnector.dispatch BrokerOrder.read
  cases BrokerUrl.find url with
  | none => exact afterMessage_nothing represents (fun _ => by simp) rfl
  | some key =>
      cases key with
      | auth =>
          simp only [ConnectorHandler.auth]
          cases json.index jv "serverIDX" with
          | none => exact afterMessage_nothing represents (fun _ => by simp) rfl
          | some result =>
              dsimp only
              cases json.asUInt result.1 with
              | none => exact afterMessage_nothing represents (fun _ => by simp) rfl
              | some serverIDX => exact .succeeds { represents with serverIDX := rfl } rfl
      | loginedUser =>
          simp only [ConnectorHandler.loginedUser]
          cases json.index jv "identity" with
          | none => exact afterMessage_nothing represents (fun _ => by simp) rfl
          | some result =>
              dsimp only
              cases json.asUInt64 result.1 with
              | none => exact afterMessage_nothing represents (fun _ => by simp) rfl
              | some identity => exact afterMessage_nothing represents (fun _ => by simp) rfl
      | isOnline =>
          simp only [ConnectorHandler.isOnline]
          cases ConnectorHandler.setOnline json.toBrokerJson jv with
          | none => exact afterMessage_nothing represents (fun _ => by simp) rfl
          | some online => exact sendByIdentity_agrees represents around.pk _ friendListUrl online
      | chatSendMsg => exact sendByIdentity_agrees represents around.pk _ sendMsgUrl jv
      | chatReceiveMsg => exact chatReceiveMsg_agrees laws represents around jv

end

/-! ### Coming and going -/

section

variable (json : ServerJson J)

omit [DecidableEq C] in
theorem sendEach_one (around : Circumstances C) (link : BrokerLink) (event : RegistryEvent C) :
    LobbyServer.sendEach json around link [event] =
      LobbyServer.registrySends json around link event := by
  simp only [LobbyServer.sendEach]
  cases LobbyServer.registrySends json around link event with
  | error fault => rfl
  | ok outputs => exact congrArg Except.ok (List.append_nil outputs)

omit [DecidableEq C] in
/-- An operation that records one event sends what the event stands for. -/
theorem operate_one (around : Circumstances C) {operation : LobbyUserManager C → LobbyUserManager C}
    {event : RegistryEvent C} (recorded : (operation server.manager).log = server.manager.log ++ [event]) :
    LobbyServer.operate json around operation server =
      (LobbyServer.registrySends json around server.link event).map
        fun outputs => ({ server with manager := operation server.manager }, outputs) := by
  rw [LobbyServer.operate, recorded, List.drop_left, sendEach_one]

theorem represents_addUser (represents : Represents ids server room) {conn : C}
    (untagged : server.manager.tag conn = none) :
    Represents ids { server with manager := server.manager.addUser ids conn }
      { room with present := insert conn room.present } where
  consistent := consistent_addUser represents.consistent conn
  noRoutes index := by
    change (server.manager.addUser ids conn).nodeToUserMap[index]? = none
    rw [addUser_nodeToUserMap represents.consistent conn]
    exact represents.noRoutes index
  present other := by
    change other ∈ insert conn room.present ↔ (server.manager.addUser ids conn).tag other ≠ none
    rw [addUser_fresh represents.consistent untagged, Set.mem_insert_iff, represents.present]
    change _ ↔ Function.update server.manager.tag conn (some ⟨conn, 0, []⟩) other ≠ none
    by_cases same : other = conn
    · simp [same]
    · simp [same]
  serverIDX := represents.serverIDX
  link := represents.link

theorem represents_deleteUser (represents : Represents ids server room) {conn : C}
    (tagged : server.manager.tag conn ≠ none) :
    Represents ids { server with manager := server.manager.deleteUser ids conn }
      { room with present := room.present \ {conn} } where
  consistent := consistent_deleteUser represents.consistent conn
  noRoutes index := by
    change (server.manager.deleteUser ids conn).nodeToUserMap[index]? = none
    rw [deleteUser_registered represents.consistent tagged]
    change (server.manager.nodeToUserMap.erase 0)[index]? = none
    rw [find_erase, represents.noRoutes, ite_self]
  present other := by
    change other ∈ room.present \ {conn} ↔ (server.manager.deleteUser ids conn).tag other ≠ none
    rw [deleteUser_registered represents.consistent tagged, Set.mem_sdiff, Set.mem_singleton_iff,
      represents.present]
    change _ ↔ Function.update server.manager.tag conn none other ≠ none
    by_cases same : other = conn
    · simp [same]
    · simp [same]
  serverIDX := represents.serverIDX
  link := represents.link

/-- The registry and the room take a client in. -/
theorem enter_agrees (represents : Represents ids server room) (around : Circumstances C) (conn : C) :
    StepAgrees ids (LobbyServer.operate json around (LobbyUserManager.addUser ids conn) server)
      (LobbyRoom.enter json conn room) := by
  by_cases untagged : server.manager.tag conn = none
  · have absent : conn ∉ room.present := by
      rw [represents.present]
      exact not_not.mpr untagged
    have recorded : (server.manager.addUser ids conn).log = server.manager.log ++ [.connected conn] := by
      rw [addUser_fresh represents.consistent untagged]
      rfl
    have later := represents_addUser represents untagged
    rw [operate_one json around recorded, LobbyServer.registrySends, welcome_memory, LobbyRoom.enter,
      if_neg absent]
    cases LobbyServer.welcome json (0, fun _ => 0) with
    | error fault => exact .fails fault
    | ok actions => exact .succeeds later (sorted_client conn actions)
  · have there : conn ∈ room.present := (represents.present conn).mpr untagged
    have again : server.manager.addUser ids conn = _ := addUser_again untagged
    have recorded : (server.manager.addUser ids conn).log =
        server.manager.log ++ [.createdAlready (ids.identity conn)] := by
      rw [again]
      rfl
    rw [operate_one json around recorded, LobbyRoom.enter, if_pos there, again]
    exact .succeeds
      { represents with
        consistent := represents.consistent.frame rfl rfl rfl (quiet_record (fun _ => by simp)) } rfl

/-- The registry and the room let a client go. -/
theorem leave_agrees (represents : Represents ids server room) (around : Circumstances C) (conn : C) :
    StepAgrees ids (LobbyServer.operate json around (LobbyUserManager.deleteUser ids conn) server)
      (LobbyRoom.leave json conn room) := by
  by_cases untagged : server.manager.tag conn = none
  · have absent : conn ∉ room.present := by
      rw [represents.present]
      exact not_not.mpr untagged
    rw [LobbyServer.operate, deleteUser_unregistered untagged, List.drop_length, LobbyRoom.leave,
      if_neg absent]
    exact .succeeds represents rfl
  · have there : conn ∈ room.present := (represents.present conn).mpr untagged
    have recorded : (server.manager.deleteUser ids conn).log =
        server.manager.log ++ [.userLogout 0 []] := by
      rw [deleteUser_registered represents.consistent untagged]
      rfl
    have later := represents_deleteUser represents untagged
    rw [operate_one json around recorded, LobbyServer.registrySends, LobbyServer.sayLogout,
      LobbyRoom.leave, if_pos there]
    cases LobbyServer.logoutReq json 0 [] with
    | none => exact .fails _
    | some brokerReq =>
        dsimp only
        rw [represents.link, ← sendToBroker_sorted json around.brokerPk]
        cases LobbyServer.sendToBroker json around.brokerPk userLogoutUrl brokerReq server.link with
        | error fault => exact .fails fault
        | ok outputs => exact .succeeds { later with link := rfl } rfl

theorem linkEvent_agrees (represents : Represents ids server room) (clientVersion : Int)
    (around : Circumstances C) (event : BrokerEvent) :
    StepAgrees ids (LobbyServer.linkEvent json around event server)
      (LobbyRoom.step json ids clientVersion room ⟨.brokerLink event, around⟩) := by
  simp only [LobbyServer.linkEvent, LobbyRoom.step]
  rw [linkSends_memory, represents.link]
  cases sends : LobbyServer.linkSends (C := C) json (fun _ => 0) event server.link with
  | error fault => exact .fails fault
  | ok outputs =>
      cases goesOn : server.link.step event with
      | error fault => exact .fails fault
      | ok link =>
          exact .succeeds { represents with link := rfl } (linkSends_sorted json _ event server.link sends)

end

/-! ### Runs -/

/-- One call of a handler does what the room does. -/
theorem step_refines {json : ServerJson J} (laws : MemberLaws json.toJsonCpp) (clientVersion : Int)
    (represents : Represents ids server room) (input : ServerInput C) :
    StepAgrees ids (server.step json ids clientVersion input)
      (LobbyRoom.step json ids clientVersion room input) := by
  obtain ⟨event, around⟩ := input
  cases event with
  | onAccept conn => exact stepAgrees_withEndpoint around (enter_agrees json represents around conn)
  | onClose conn => exact stepAgrees_withEndpoint around (leave_agrees json represents around conn)
  | onExpiredSession conn =>
      exact stepAgrees_withEndpoint around
        (.succeeds represents (sorted_client conn [.closeReserve 0]))
  | noHandler conn => exact .succeeds represents (sorted_client conn [.closeReserve 0])
  | readJsonPacket conn size msg =>
      simp only [LobbyServer.step, LobbyRoom.step]
      by_cases untagged : server.manager.tag conn = none
      · have absent : conn ∉ room.present := by
          rw [represents.present]
          exact not_not.mpr untagged
        rw [readJsonPacket_unregistered json clientVersion around untagged, if_neg absent]
        exact .succeeds represents rfl
      · rw [if_pos ((represents.present conn).mpr untagged)]
        exact stepAgrees_same represents
          (readJsonPacket_sorted json clientVersion represents around untagged size msg)
  | brokerLink event => exact linkEvent_agrees json represents clientVersion around event
  | brokerReadJsonPacket msg =>
      simp only [LobbyServer.step, LobbyRoom.step, LobbyServer.brokerReadJsonPacket]
      cases BrokerConnector.readJsonPacket json.parse around.beyond msg with
      | error fault => exact .fails fault
      | ok exit =>
          cases exit with
          | dispatched url text jv => exact brokerMessage_agrees laws represents around url jv
          | _ => exact .succeeds represents rfl
  | brokerNoHandler session => exact .succeeds represents rfl
  | brokerExpiredSession session => exact .succeeds represents rfl

/-- From the start, the server and the room agree along every run. -/
theorem server_simulates {json : ServerJson J} (laws : MemberLaws json.toJsonCpp) (ids : Identities C)
    (clientVersion : Int) (connector : Option ConnectOutcome) (inputs : List (ServerInput C)) :
    Agrees (Represents ids) (TracesAgree fun outputs delivery => Delivery.sorted outputs = delivery)
      (LobbyServer.run json ids clientVersion connector inputs)
      (LobbyRoom.run json ids clientVersion connector inputs) :=
  runTrace_simulation (fun _ _ input represents => step_refines laws clientVersion represents input)
    (represents_start ids connector) inputs

/-- Every run of the server is a run of the room: either both fail in the same way, or each client and the
    broker get from every call what the room says, and the registered clients are those in the room. -/
theorem lobby_refines_room {json : ServerJson J} (laws : MemberLaws json.toJsonCpp) (ids : Identities C)
    (clientVersion : Int) (connector : Option ConnectOutcome) (inputs : List (ServerInput C)) :
    (∃ fault, LobbyServer.run json ids clientVersion connector inputs = .error fault ∧
        LobbyRoom.run json ids clientVersion connector inputs = .error fault) ∨
      ∃ server trace room deliveries,
        LobbyServer.run json ids clientVersion connector inputs = .ok (server, trace) ∧
        LobbyRoom.run json ids clientVersion connector inputs = .ok (room, deliveries) ∧
        trace.map (fun entry => (entry.1, Delivery.sorted entry.2)) = deliveries ∧
        (∀ conn, ids.identity conn ∈ server.manager.users ↔ conn ∈ room.present) ∧
        server.idx4Broker = room.serverIDX ∧ server.link = room.link := by
  have agrees := server_simulates laws ids clientVersion connector inputs
  generalize LobbyServer.run json ids clientVersion connector inputs = ran at agrees ⊢
  generalize LobbyRoom.run json ids clientVersion connector inputs = roomRan at agrees ⊢
  cases agrees with
  | fails fault => exact .inl ⟨fault, rfl, rfl⟩
  | succeeds represents same =>
      refine .inr ⟨_, _, _, _, rfl, rfl, tracesAgree_image same, fun conn => ?_,
        represents.serverIDX.symm, represents.link.symm⟩
      rw [represents.consistent.registered, represents.present]

end

/-! ### A server with a concrete library -/

/-- The flat library with a table of texts for its reader. -/
def flatServerJson (known : List (List UInt8 × FlatJson)) : ServerJson FlatJson where
  toJsonCpp := { flatJsonInPlace with parse := fun text => known.lookup text }
  asUInt64 := flatBrokerJson.asUInt64
  ofInt := flatBrokerJson.ofInt
  null := .leaf .null

theorem flatServerJson_laws (known : List (List UInt8 × FlatJson)) :
    MemberLaws (flatServerJson known).toJsonCpp where
  index_again := flatJsonInPlace_laws.index_again
  index_other := flatJsonInPlace_laws.index_other
  index_assign := flatJsonInPlace_laws.index_assign
  assign_same := flatJsonInPlace_laws.assign_same
  asCString_ofString := flatJsonInPlace_laws.asCString_ofString

/-- Surroundings in which nothing throws. -/
def calm {C : Type} : Circumstances C where
  req _ := 0
  beyond := []
  pk := (0, fun _ => 0)
  pkEach _ := (0, fun _ => 0)
  brokerPk _ := 0
  localTimeSec := 0
  remoteEndpoint := true

/-- The value of the text `B`. -/
def announcement : FlatJson := .object [("channelType", .uint 1), ("msg", .text [104])]

/-- The library that can read it. -/
def announcer : ServerJson FlatJson := flatServerJson [([66], announcement)]

theorem announcer_laws : MemberLaws announcer.toJsonCpp := flatServerJson_laws _

/-- A message of the broker for everyone. -/
def announced : List UInt8 :=
  [1, 0, 0, 0] ++ ("/chatReceiveMsg".toUTF8.data.toList ++ List.replicate 17 0) ++ [1, 0] ++ [66]

/-- Two clients come, one of them is to be closed, the broker has something for everyone, and the other one
    goes. -/
def visits : List (ServerInput Bool) :=
  [⟨.onAccept false, calm⟩, ⟨.onAccept true, calm⟩, ⟨.noHandler true, calm⟩,
    ⟨.brokerReadJsonPacket (.received announced), calm⟩, ⟨.onClose false, calm⟩]

theorem welcome_ok {json : ServerJson J} {pk : UInt32 × (Nat → UInt8)} {rsp later : J}
    {packet : List UInt8} (filled : LobbyServer.connectedRsp json = some rsp)
    (sends : User.sendJsonPacket json.toJsonCpp (.new pk.1 pk.2) connectedUrl rsp =
      .ok (.sent packet later)) : LobbyServer.welcome json pk = .ok [.sendPacket packet] := by
  simp only [LobbyServer.welcome, filled, sends]

/-- A newcomer comes in and is welcomed. -/
theorem step_newcomer {json : ServerJson J} {ids : Identities C} {clientVersion : Int} {conn : C}
    {around : Circumstances C} {room : LobbyRoom C} {actions : List Action} (absent : conn ∉ room.present)
    (endpoint : around.remoteEndpoint = true)
    (welcomes : LobbyServer.welcome json (0, fun _ => 0) = .ok actions) :
    LobbyRoom.step json ids clientVersion room ⟨.onAccept conn, around⟩ =
      .ok ({ room with present := insert conn room.present }, .forClient conn actions) := by
  simp only [LobbyRoom.step, LobbyServer.withEndpoint, endpoint, LobbyRoom.enter, if_neg absent, welcomes,
    Except.map, Bool.true_eq_false, if_false]

theorem sendTo_ok {json : ServerJson J} {clients : Set C} {url : List UInt8} {jv later : J}
    {packet : List UInt8} (someone : clients.Nonempty)
    (sends : LobbyRoom.clientPacket json url jv = .ok (.sent packet later)) :
    LobbyRoom.sendTo json clients url jv = .ok (.forAll clients packet) := by
  simp only [LobbyRoom.sendTo, if_neg someone.ne_empty, sends]

/-- `rsp` of `addUser` in the flat library. -/
def flatConnectedRsp : FlatJson :=
  .object [("packetSequenceNum", .uint 0), ("resultCode", .uint 0), ("resultMsg", .text rspOk)]

theorem announcer_connectedRsp : LobbyServer.connectedRsp announcer = some flatConnectedRsp := rfl

theorem flatConnectedRsp_prepares :
    User.prepare announcer.toJsonCpp flatConnectedRsp = some (0, flatConnectedRsp) := rfl

theorem flatConnectedRsp_fits :
    (announcer.write flatConnectedRsp).length + 1 ≤ LobbyProtocol.maxBodySize := by decide

theorem announcer_welcomes : ∃ actions, LobbyServer.welcome announcer (0, fun _ => 0) = .ok actions :=
  ⟨_, welcome_ok announcer_connectedRsp (user_sends announcer.toJsonCpp 0 (fun _ => 0) (by decide)
    flatConnectedRsp_prepares flatConnectedRsp_fits)⟩

/-- The announcement as a client gets it. -/
def preparedAnnouncement : FlatJson :=
  .object [("channelType", .uint 1), ("msg", .text [104]), ("packetSequenceNum", .null),
    ("resultMsg", .null)]

theorem announcement_prepares :
    User.prepare announcer.toJsonCpp announcement = some (0, preparedAnnouncement) := rfl

theorem announcement_fits :
    (announcer.write preparedAnnouncement).length + 1 ≤ LobbyProtocol.maxBodySize := by decide

theorem announced_arrives : BrokerConnector.readJsonPacket announcer.parse [] (.received announced) =
    .ok (.dispatched "/chatReceiveMsg".toUTF8.data.toList [66] announcement) := by decide

theorem announced_order : BrokerOrder.read announcer.toBrokerJson
    "/chatReceiveMsg".toUTF8.data.toList announcement = .toEveryone announcement := rfl

/-- The room with both clients. -/
def bothIn : LobbyRoom Bool := ⟨insert true (insert false ∅), 0, .fresh⟩

/-- None of the calls fails. -/
theorem visits_succeed : ∃ server trace,
    LobbyServer.run announcer twoConnections 7 none visits = .ok (server, trace) := by
  obtain ⟨welcomed, welcomes⟩ := announcer_welcomes
  have first : LobbyRoom.step announcer twoConnections 7 (.start none) ⟨.onAccept false, calm⟩ =
      .ok (⟨insert false ∅, 0, .fresh⟩, .forClient false welcomed) :=
    step_newcomer (Set.notMem_empty false) rfl welcomes
  have second : LobbyRoom.step announcer twoConnections 7 ⟨insert false ∅, 0, .fresh⟩
      ⟨.onAccept true, calm⟩ = .ok (bothIn, .forClient true welcomed) :=
    step_newcomer (by simp) rfl welcomes
  have fourth : ∃ delivery, LobbyRoom.step announcer twoConnections 7 bothIn
      ⟨.brokerReadJsonPacket (.received announced), calm⟩ = .ok (bothIn, delivery) := by
    have someone : bothIn.present.Nonempty := Set.insert_nonempty true _
    have sent := sendTo_ok someone (user_sends announcer.toJsonCpp 0 (fun _ => 0)
      (by decide : receiveMsgUrl.length ≤ maxUrlString) announcement_prepares announcement_fits)
    have read : LobbyRoom.step announcer twoConnections 7 bothIn
        ⟨.brokerReadJsonPacket (.received announced), calm⟩ =
          LobbyRoom.obey announcer twoConnections bothIn (.toEveryone announcement) := by
      simp only [LobbyRoom.step, calm, announced_arrives, announced_order]
    exact ⟨_, read.trans (map_eq_ok.mpr ⟨_, sent, rfl⟩)⟩
  have fifth : ∃ room delivery, LobbyRoom.step announcer twoConnections 7 bothIn
      ⟨.onClose false, calm⟩ = .ok (room, delivery) := by
    have there : false ∈ bothIn.present := by simp [bothIn]
    simp only [LobbyRoom.step, LobbyServer.withEndpoint, calm, LobbyRoom.leave, if_pos there]
    exact ⟨_, _, rfl⟩
  obtain ⟨given, fourth⟩ := fourth
  obtain ⟨room, gone, fifth⟩ := fifth
  have ran : LobbyRoom.run announcer twoConnections 7 none visits = .ok (room, _) :=
    runTrace_cons.mpr ⟨_, _, _, first, runTrace_cons.mpr ⟨_, _, _, second, runTrace_cons.mpr
      ⟨_, _, _, rfl, runTrace_cons.mpr ⟨_, _, _, fourth, runTrace_cons.mpr
        ⟨_, _, _, fifth, rfl, rfl⟩, rfl⟩, rfl⟩, rfl⟩, rfl⟩
  have agrees := server_simulates announcer_laws twoConnections 7 none visits
  rw [ran] at agrees
  obtain ⟨server, trace, serverRan, -⟩ := agrees.of_ok_right
  exact ⟨server, trace, serverRan⟩

/-- The visits, in the server and in the room. -/
theorem lobby_refines_room_visits : ∃ server trace room deliveries,
    LobbyServer.run announcer twoConnections 7 none visits = .ok (server, trace) ∧
    LobbyRoom.run announcer twoConnections 7 none visits = .ok (room, deliveries) ∧
    trace.map (fun entry => (entry.1, Delivery.sorted entry.2)) = deliveries ∧
    (∀ conn, twoConnections.identity conn ∈ server.manager.users ↔ conn ∈ room.present) ∧
    server.idx4Broker = room.serverIDX ∧ server.link = room.link := by
  obtain ⟨server, trace, ran⟩ := visits_succeed
  rcases lobby_refines_room announcer_laws twoConnections 7 none visits with ⟨fault, failed, -⟩ | agree
  · rw [ran] at failed
    cases failed
  · exact agree

end LobbySvr.Proofs

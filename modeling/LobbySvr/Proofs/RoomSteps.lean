/-
Module: LobbySvr.Proofs.RoomSteps
Layer: Proofs
Purpose: What a step of the room can do, case by case with its guards.  A JSON packet of a client is turned away,
  is a login, is a chat message for the broker, or comes to nothing; an order of the broker sets the index,
  has a packet sent to clients of the room, or comes to nothing.
Imports: LobbySvr.Spec.LobbyRoom, LobbySvr.Foundation.Traces
Trusted boundary: none
Main exports: mem_forClient, toBroker_private, toBroker_cases, sendTo_cases, Requested, jsonPacket_cases,
  Obeyed, obey_cases, RoomStep, room_step_cases, accept_cases, close_cases
Open obligations: none
-/
import LobbySvr.Spec.LobbyRoom
import LobbySvr.Foundation.Traces

namespace LobbySvr.Proofs

open LobbySvr.Foundation
open LobbySvr.Net
open LobbySvr.Spec
open LobbySvr.Lobby

variable {C J : Type} {json : ServerJson J} {ids : Identities C} {clientVersion : Int} {conn other : C}
  {room later : LobbyRoom C} {delivery : Delivery C} {around : Circumstances C}

/-! ### Deliveries -/

theorem mem_forClient {actions : List Action} {action : Action} :
    action ∈ (Delivery.forClient other actions).toClient conn ↔ conn = other ∧ action ∈ actions := by
  by_cases same : conn = other
  · simp [Delivery.forClient, same]
  · simp [Delivery.forClient, same]

theorem forClient_other (different : conn ≠ other) (actions : List Action) :
    (Delivery.forClient other actions).toClient conn = [] := by
  simp only [Delivery.forClient, if_neg different]

theorem forClient_own (conn : C) (actions : List Action) :
    (Delivery.forClient conn actions).toClient conn = actions := if_pos rfl

theorem toBroker_private {url : List UInt8} {jv : J} {link : BrokerLink}
    (sends : LobbyRoom.toBroker json url jv link = .ok delivery) (conn : C) : delivery.toClient conn = [] := by
  obtain ⟨outputs, -, rfl⟩ := map_eq_ok.mp sends
  rfl

/-- What goes to the broker is nothing, or one packet on the session of the link. -/
theorem toBroker_cases {url : List UInt8} {jv : J} {link : BrokerLink}
    (sends : LobbyRoom.toBroker json url jv link = .ok delivery) :
    delivery.toBroker = [] ∨ ∃ session packet, link.sendJsonPacket = .sendsOn session ∧
      ConnectorUser.sendJsonPacket json.toJsonCpp (.new fun _ => 0) url jv = .ok packet ∧
      delivery.toBroker = [(session, .sendPacket packet)] := by
  obtain ⟨outputs, said, rfl⟩ := map_eq_ok.mp sends
  unfold LobbyServer.sendToBroker at said
  split at said
  · cases said
    exact .inl rfl
  · cases said
  · rename_i session linked
    split at said
    · cases said
    · rename_i packet built
      cases said
      exact .inr ⟨session, packet, linked, built, rfl⟩

/-- What goes to a set of clients is nothing, or one packet for each. -/
theorem sendTo_cases {clients : Set C} {url : List UInt8} {jv : J}
    (sends : LobbyRoom.sendTo json clients url jv = .ok delivery) :
    delivery = .nothing ∨ ∃ packet left, LobbyRoom.clientPacket json url jv = .ok (.sent packet left) ∧
      delivery = .forAll clients packet := by
  unfold LobbyRoom.sendTo at sends
  split at sends
  · cases sends
    exact .inl rfl
  · split at sends
    · cases sends
    · rename_i packet left built
      cases sends
      exact .inr ⟨packet, left, built, rfl⟩
    · cases sends
      exact .inl rfl

theorem mem_forAll {clients : Set C} {packet : List UInt8} {action : Action} :
    action ∈ (Delivery.forAll clients packet).toClient conn ↔ conn ∈ clients ∧ action = .sendPacket packet := by
  by_cases member : conn ∈ clients
  · simp [Delivery.forAll, member]
  · simp [Delivery.forAll, member]

/-! ### Requests -/

/-- What a JSON packet of a client in the room comes to. -/
inductive Requested (json : ServerJson J) (ids : Identities C) (clientVersion : Int) (around : Circumstances C)
    (conn : C) (size : UInt32) (msg : MessageBuffer) (room : LobbyRoom C) : Delivery C → Prop where
  | invalidPacket
      (reads : LobbyAcceptorReceiver.readJsonPacket json.parse true around.beyond size msg = .ok .invalidPacket) :
      Requested json ids clientVersion around conn size msg room (.forClient conn [.closeReserve 0])
  | login {text : List UInt8} {jv : J} {exit : LoginExit J}
      (reads : LobbyAcceptorReceiver.readJsonPacket json.parse true around.beyond size msg =
        .ok (.dispatched loginUrl text jv))
      (logs : NhLobby.login json clientVersion around.remoteEndpoint true (.new 0 fun _ => 0) loginUrl jv =
        .ok exit) :
      Requested json ids clientVersion around conn size msg room
        (.forClient conn (LobbyServer.loginActions exit))
  | chat {text : List UInt8} {jv stamped : J} {delivery : Delivery C}
      (reads : LobbyAcceptorReceiver.readJsonPacket json.parse true around.beyond size msg =
        .ok (.dispatched sendMsgUrl text jv))
      (forwards : NhChat.decide json.toJsonCpp ⟨room.serverIDX, around.localTimeSec⟩
        (some ⟨0, [], (ids.identity conn).toNat⟩) jv = .forward stamped)
      (sends : LobbyRoom.toBroker json chatSendMsgUrl stamped room.link = .ok delivery) :
      Requested json ids clientVersion around conn size msg room delivery
  /-- Anything else that the receiver does not turn away: no message, or a URL or a chat message that
      comes to nothing. -/
  | nothing {exit : ReadExit J}
      (reads : LobbyAcceptorReceiver.readJsonPacket json.parse true around.beyond size msg = .ok exit)
      (valid : exit ≠ .invalidPacket) (noLogin : ∀ text jv, exit ≠ .dispatched loginUrl text jv)
      (noChat : ∀ text jv stamped, exit = .dispatched sendMsgUrl text jv →
        NhChat.decide json.toJsonCpp ⟨room.serverIDX, around.localTimeSec⟩
          (some ⟨0, [], (ids.identity conn).toNat⟩) jv ≠ .forward stamped) :
      Requested json ids clientVersion around conn size msg room .nothing

/-- The receiver has dispatched the packet: under `login`, as a chat message, or under a URL that comes to
    nothing. -/
theorem request_cases {size : UInt32} {msg : MessageBuffer} {url text : List UInt8} {jv : J}
    (reads : LobbyAcceptorReceiver.readJsonPacket json.parse true around.beyond size msg =
      .ok (.dispatched url text jv))
    (requests : LobbyRoom.request json ids clientVersion around conn url jv room = .ok delivery) :
    Requested json ids clientVersion around conn size msg room delivery := by
  unfold LobbyRoom.request at requests
  split at requests
  · rename_i isLogin
    subst isLogin
    obtain ⟨exit, logs, rfl⟩ := map_eq_ok.mp requests
    exact .login reads logs
  · rename_i notLogin
    have noLogin : ∀ text' jv', ReadExit.dispatched url text jv ≠ .dispatched loginUrl text' jv' := by
      rintro text' jv' ⟨⟩
      exact notLogin rfl
    split at requests
    · rename_i isChat
      subst isChat
      split at requests
      · rename_i stamped forwards
        exact .chat reads forwards requests
      · rename_i quiet
        cases requests
        refine .nothing reads nofun noLogin ?_
        rintro text' jv' stamped ⟨⟩
        exact quiet stamped
    · rename_i notChat
      cases requests
      refine .nothing reads nofun noLogin ?_
      rintro text' jv' stamped ⟨⟩
      exact absurd rfl notChat

theorem jsonPacket_cases {size : UInt32} {msg : MessageBuffer} :
    LobbyRoom.jsonPacket json ids clientVersion around conn size msg room = .ok delivery ↔
      Requested json ids clientVersion around conn size msg room delivery := by
  constructor
  · intro reads
    unfold LobbyRoom.jsonPacket at reads
    split at reads
    · cases reads
    · rename_i invalid
      cases reads
      exact .invalidPacket invalid
    · rename_i url text jv dispatched
      exact request_cases dispatched reads
    · rename_i exit notInvalid notDispatched returned
      cases reads
      exact .nothing returned notInvalid (fun _ _ => notDispatched _ _ _)
        fun _ _ _ same => absurd same (notDispatched _ _ _)
  · intro requested
    cases requested with
    | invalidPacket reads => rw [LobbyRoom.jsonPacket, reads]
    | login reads logs =>
        rw [LobbyRoom.jsonPacket, reads]
        simp only [LobbyRoom.request, if_true, logs, Except.map]
    | chat reads forwards sends =>
        rw [LobbyRoom.jsonPacket, reads]
        simp only [LobbyRoom.request, if_true, if_neg (show sendMsgUrl ≠ loginUrl by decide), forwards]
        exact sends
    | @nothing exit reads valid noLogin noChat =>
        rw [LobbyRoom.jsonPacket, reads]
        cases exit with
        | invalidPacket => exact absurd rfl valid
        | dispatched url text jv =>
            have notLogin : url ≠ loginUrl := fun same => noLogin text jv (same ▸ rfl)
            simp only [LobbyRoom.request, if_neg notLogin]
            split
            · rename_i isChat
              split
              · rename_i stamped forwards
                exact absurd forwards (noChat text jv stamped (isChat ▸ rfl))
              · rfl
            · rfl
        | _ => rfl

/-- A request depends on the room through the server's index and the broker link alone. -/
theorem Requested.congr {size : UInt32} {msg : MessageBuffer} {alone : LobbyRoom C}
    (serverIDX : alone.serverIDX = room.serverIDX) (link : alone.link = room.link)
    (requested : Requested json ids clientVersion around conn size msg room delivery) :
    Requested json ids clientVersion around conn size msg alone delivery := by
  rw [← jsonPacket_cases] at requested ⊢
  rw [← requested]
  simp only [LobbyRoom.jsonPacket, LobbyRoom.request, serverIDX, link]

/-- A request is answered to the client that made it. -/
theorem Requested.answered {size : UInt32} {msg : MessageBuffer} (different : conn ≠ other)
    (requested : Requested json ids clientVersion around other size msg room delivery) :
    delivery.toClient conn = [] := by
  cases requested with
  | invalidPacket => exact forClient_other different _
  | login => exact forClient_other different _
  | chat _ _ sends => exact toBroker_private sends conn
  | nothing => rfl

/-! ### Orders of the broker -/

/-- What an order of the broker comes to. -/
inductive Obeyed (json : ServerJson J) (ids : Identities C) (room : LobbyRoom C) :
    BrokerOrder J → LobbyRoom C → Delivery C → Prop where
  | setServerIDX {index : UInt32} :
      Obeyed json ids room (.setServerIDX index) { room with serverIDX := index } .nothing
  | toIdentity {identity : UInt64} {url : List UInt8} {jv : J} {delivery : Delivery C}
      (sends : LobbyRoom.sendTo json {conn | conn ∈ room.present ∧ ids.identity conn = identity} url jv =
        .ok delivery) :
      Obeyed json ids room (.toIdentity identity url jv) room delivery
  | toEveryone {jv : J} {delivery : Delivery C}
      (sends : LobbyRoom.sendTo json room.present receiveMsgUrl jv = .ok delivery) :
      Obeyed json ids room (.toEveryone jv) room delivery
  | toUserIDX {index : UInt32} {jv : J} : Obeyed json ids room (.toUserIDX index jv) room .nothing
  | nothing : Obeyed json ids room .nothing room .nothing

theorem obey_cases {order : BrokerOrder J} :
    LobbyRoom.obey json ids room order = .ok (later, delivery) ↔ Obeyed json ids room order later delivery := by
  constructor
  · intro obeyed
    cases order with
    | nothing =>
        cases obeyed
        exact .nothing
    | setServerIDX index =>
        cases obeyed
        exact .setServerIDX
    | toIdentity identity url jv =>
        obtain ⟨sent, sends, same⟩ := map_eq_ok.mp obeyed
        cases same
        exact .toIdentity sends
    | toUserIDX index jv =>
        cases obeyed
        exact .toUserIDX
    | toEveryone jv =>
        obtain ⟨sent, sends, same⟩ := map_eq_ok.mp obeyed
        cases same
        exact .toEveryone sends
  · intro obeyed
    cases obeyed with
    | toIdentity sends => exact map_eq_ok.mpr ⟨_, sends, rfl⟩
    | toEveryone sends => exact map_eq_ok.mpr ⟨_, sends, rfl⟩
    | _ => rfl

/-- Only clients in the room get anything, and then it is a packet. -/
theorem Obeyed.member {order : BrokerOrder J} {action : Action}
    (obeyed : Obeyed json ids room order later delivery) (given : action ∈ delivery.toClient conn) :
    conn ∈ room.present ∧ ∃ packet, action = .sendPacket packet := by
  have sent : ∀ {clients url jv}, clients ⊆ room.present →
      LobbyRoom.sendTo json clients url jv = .ok delivery →
      conn ∈ room.present ∧ ∃ packet, action = .sendPacket packet := by
    intro clients url jv within sends
    rcases sendTo_cases sends with rfl | ⟨packet, left, -, rfl⟩
    · exact absurd given List.not_mem_nil
    · obtain ⟨member, same⟩ := mem_forAll.mp given
      exact ⟨within member, packet, same⟩
  cases obeyed with
  | toIdentity sends => exact sent (fun _ member => member.1) sends
  | toEveryone sends => exact sent subset_rfl sends
  | _ => exact absurd given List.not_mem_nil

/-- Nothing goes to the broker. -/
theorem Obeyed.toBroker {order : BrokerOrder J} (obeyed : Obeyed json ids room order later delivery) :
    delivery.toBroker = [] := by
  have sent : ∀ {clients url jv}, LobbyRoom.sendTo json clients url jv = .ok delivery →
      delivery.toBroker = [] := by
    intro clients url jv sends
    rcases sendTo_cases sends with rfl | ⟨packet, left, -, rfl⟩
    · rfl
    · rfl
  cases obeyed with
  | toIdentity sends => exact sent sends
  | toEveryone sends => exact sent sends
  | _ => rfl

/-! ### Steps -/

theorem withEndpoint_ok {ω : Type} {body : Except Fault ω} {result : ω} :
    LobbyServer.withEndpoint around body = .ok result ↔
      around.remoteEndpoint = true ∧ body = .ok result := by
  unfold LobbyServer.withEndpoint
  cases around.remoteEndpoint with
  | false => simp
  | true => simp

/-- A call of a handler that succeeds: what it does to the room, and what comes out of it. -/
inductive RoomStep (json : ServerJson J) (ids : Identities C) (clientVersion : Int) (room : LobbyRoom C) :
    ServerInput C → LobbyRoom C → Delivery C → Prop where
  | alreadyIn {conn : C} {around : Circumstances C} (endpoint : around.remoteEndpoint = true)
      (there : conn ∈ room.present) :
      RoomStep json ids clientVersion room ⟨.onAccept conn, around⟩ room .nothing
  | enters {conn : C} {around : Circumstances C} {actions : List Action}
      (endpoint : around.remoteEndpoint = true) (absent : conn ∉ room.present)
      (welcomes : LobbyServer.welcome json (0, fun _ => 0) = .ok actions) :
      RoomStep json ids clientVersion room ⟨.onAccept conn, around⟩
        { room with present := insert conn room.present } (.forClient conn actions)
  | alreadyOut {conn : C} {around : Circumstances C} (endpoint : around.remoteEndpoint = true)
      (absent : conn ∉ room.present) :
      RoomStep json ids clientVersion room ⟨.onClose conn, around⟩ room .nothing
  | leaves {conn : C} {around : Circumstances C} {brokerReq : J} {delivery : Delivery C}
      (endpoint : around.remoteEndpoint = true) (there : conn ∈ room.present)
      (filled : LobbyServer.logoutReq json 0 [] = some brokerReq)
      (sends : LobbyRoom.toBroker json userLogoutUrl brokerReq room.link = .ok delivery) :
      RoomStep json ids clientVersion room ⟨.onClose conn, around⟩
        { room with present := room.present \ {conn} } delivery
  | expires {conn : C} {around : Circumstances C} (endpoint : around.remoteEndpoint = true) :
      RoomStep json ids clientVersion room ⟨.onExpiredSession conn, around⟩ room
        (.forClient conn [.closeReserve 0])
  | noHandler {conn : C} {around : Circumstances C} :
      RoomStep json ids clientVersion room ⟨.noHandler conn, around⟩ room
        (.forClient conn [.closeReserve 0])
  | requests {conn : C} {around : Circumstances C} {size : UInt32} {msg : MessageBuffer}
      {delivery : Delivery C} (there : conn ∈ room.present)
      (requested : Requested json ids clientVersion around conn size msg room delivery) :
      RoomStep json ids clientVersion room ⟨.readJsonPacket conn size msg, around⟩ room delivery
  | notIn {conn : C} {around : Circumstances C} {size : UInt32} {msg : MessageBuffer}
      (absent : conn ∉ room.present) :
      RoomStep json ids clientVersion room ⟨.readJsonPacket conn size msg, around⟩ room .nothing
  | links {event : BrokerEvent} {around : Circumstances C} {outputs : List (ServerOutput C)}
      {link : BrokerLink}
      (sends : LobbyServer.linkSends json (fun _ => 0) event room.link = .ok outputs)
      (goesOn : room.link.step event = .ok link) :
      RoomStep json ids clientVersion room ⟨.brokerLink event, around⟩
        { room with link := link } ⟨fun _ => [], Delivery.brokerActions outputs⟩
  | obeys {around : Circumstances C} {msg : MessageBuffer} {url text : List UInt8} {jv : J}
      {later : LobbyRoom C} {delivery : Delivery C}
      (arrived : BrokerConnector.readJsonPacket json.parse around.beyond msg = .ok (.dispatched url text jv))
      (obeyed : Obeyed json ids room (BrokerOrder.read json.toBrokerJson url jv) later delivery) :
      RoomStep json ids clientVersion room ⟨.brokerReadJsonPacket msg, around⟩ later delivery
  | ignores {around : Circumstances C} {msg : MessageBuffer} {exit : ReadExit J}
      (arrived : BrokerConnector.readJsonPacket json.parse around.beyond msg = .ok exit)
      (undispatched : ∀ url text jv, exit ≠ .dispatched url text jv) :
      RoomStep json ids clientVersion room ⟨.brokerReadJsonPacket msg, around⟩ room .nothing
  | brokerNoHandler {session : Nat} {around : Circumstances C} :
      RoomStep json ids clientVersion room ⟨.brokerNoHandler session, around⟩ room
        ⟨fun _ => [], [(session, .closeReserve 0)]⟩
  | brokerExpires {session : Nat} {around : Circumstances C} :
      RoomStep json ids clientVersion room ⟨.brokerExpiredSession session, around⟩ room
        ⟨fun _ => [], [(session, .closeReserve 0)]⟩

theorem room_step_cases {input : ServerInput C} :
    LobbyRoom.step json ids clientVersion room input = .ok (later, delivery) ↔
      RoomStep json ids clientVersion room input later delivery := by
  constructor
  · intro stepped
    obtain ⟨event, around⟩ := input
    cases event with
    | onAccept conn =>
        obtain ⟨endpoint, entered⟩ := withEndpoint_ok.mp stepped
        unfold LobbyRoom.enter at entered
        split at entered
        · rename_i there
          cases entered
          exact .alreadyIn endpoint there
        · rename_i absent
          obtain ⟨actions, welcomes, same⟩ := map_eq_ok.mp entered
          cases same
          exact .enters endpoint absent welcomes
    | onClose conn =>
        obtain ⟨endpoint, left⟩ := withEndpoint_ok.mp stepped
        unfold LobbyRoom.leave at left
        split at left
        · rename_i there
          split at left
          · cases left
          · rename_i brokerReq filled
            obtain ⟨sent, sends, same⟩ := map_eq_ok.mp left
            cases same
            exact .leaves endpoint there filled sends
        · rename_i absent
          cases left
          exact .alreadyOut endpoint absent
    | onExpiredSession conn =>
        obtain ⟨endpoint, returned⟩ := withEndpoint_ok.mp stepped
        cases returned
        exact .expires endpoint
    | noHandler conn =>
        cases stepped
        exact .noHandler
    | readJsonPacket conn size msg =>
        simp only [LobbyRoom.step] at stepped
        split at stepped
        · rename_i there
          obtain ⟨sent, reads, same⟩ := map_eq_ok.mp stepped
          cases same
          exact .requests there (jsonPacket_cases.mp reads)
        · rename_i absent
          cases stepped
          exact .notIn absent
    | brokerLink event =>
        simp only [LobbyRoom.step] at stepped
        split at stepped
        · cases stepped
        · rename_i outputs sends
          obtain ⟨link, goesOn, same⟩ := map_eq_ok.mp stepped
          cases same
          exact .links sends goesOn
    | brokerReadJsonPacket msg =>
        simp only [LobbyRoom.step] at stepped
        split at stepped
        · cases stepped
        · rename_i url text jv arrived
          exact .obeys arrived (obey_cases.mp stepped)
        · rename_i exit undispatched arrived
          cases stepped
          exact .ignores arrived undispatched
    | brokerNoHandler session =>
        cases stepped
        exact .brokerNoHandler
    | brokerExpiredSession session =>
        cases stepped
        exact .brokerExpires
  · intro step
    cases step with
    | alreadyIn endpoint there =>
        exact withEndpoint_ok.mpr ⟨endpoint, by rw [LobbyRoom.enter, if_pos there]⟩
    | enters endpoint absent welcomes =>
        refine withEndpoint_ok.mpr ⟨endpoint, ?_⟩
        rw [LobbyRoom.enter, if_neg absent, welcomes]
        rfl
    | alreadyOut endpoint absent =>
        exact withEndpoint_ok.mpr ⟨endpoint, by rw [LobbyRoom.leave, if_neg absent]⟩
    | leaves endpoint there filled sends =>
        refine withEndpoint_ok.mpr ⟨endpoint, ?_⟩
        simp only [LobbyRoom.leave, if_pos there, filled, sends]
        rfl
    | expires endpoint => exact withEndpoint_ok.mpr ⟨endpoint, rfl⟩
    | requests there requested =>
        simp only [LobbyRoom.step, if_pos there]
        exact map_eq_ok.mpr ⟨_, jsonPacket_cases.mpr requested, rfl⟩
    | notIn absent => simp only [LobbyRoom.step, if_neg absent]
    | links sends goesOn =>
        simp only [LobbyRoom.step, sends]
        exact map_eq_ok.mpr ⟨_, goesOn, rfl⟩
    | obeys arrived obeyed =>
        simp only [LobbyRoom.step, arrived]
        exact obey_cases.mpr obeyed
    | @ignores around msg exit arrived undispatched =>
        cases exit with
        | dispatched url text jv => exact absurd rfl (undispatched _ _ _)
        | _ => simp only [LobbyRoom.step, arrived]
    | _ => rfl

/-- What an accepted client gets. -/
theorem accept_cases
    (stepped : LobbyRoom.step json ids clientVersion room ⟨.onAccept conn, around⟩ = .ok (later, delivery)) :
    (conn ∈ room.present ∧ delivery = .nothing) ∨
      (conn ∉ room.present ∧ ∃ actions, LobbyServer.welcome json (0, fun _ => 0) = .ok actions ∧
        delivery = .forClient conn actions) := by
  cases room_step_cases.mp stepped with
  | alreadyIn _ there => exact .inl ⟨there, rfl⟩
  | enters _ absent welcomes => exact .inr ⟨absent, _, welcomes, rfl⟩

/-- What the broker is told of a closed client. -/
theorem close_cases
    (stepped : LobbyRoom.step json ids clientVersion room ⟨.onClose conn, around⟩ = .ok (later, delivery)) :
    (conn ∉ room.present ∧ delivery = .nothing) ∨
      (conn ∈ room.present ∧ ∃ brokerReq, LobbyServer.logoutReq json 0 [] = some brokerReq ∧
        LobbyRoom.toBroker json userLogoutUrl brokerReq room.link = .ok delivery) := by
  cases room_step_cases.mp stepped with
  | alreadyOut _ absent => exact .inl ⟨absent, rfl⟩
  | leaves _ there filled sends => exact .inr ⟨there, _, filled, sends⟩

end LobbySvr.Proofs

/-
Module: LobbySvr.Proofs.ChatForwarding
Layer: Proofs
Purpose: Chat requests on their way from the lobby protocol, whose bodies have up to 30000 bytes, to the broker
  protocol, whose bodies have up to 4000.  `ConnectorUser::SendJsonPacket` does not compare the text with
  the limit, so a forwarded request fits exactly when its text happens to.
Imports: LobbySvr.Lobby.NhChat, LobbySvr.Spec.FlatJson, LobbySvr.Proofs.JsonPackets
Trusted boundary: none
Main exports: PacketFits, packetFits_iff, ChatRequestFits, chatRequest_fits_iff, long_message_overflows
Open obligations: none
-/
import LobbySvr.Lobby.NhChat
import LobbySvr.Spec.FlatJson
import LobbySvr.Proofs.JsonPackets

namespace LobbySvr.Proofs

open LobbySvr.Foundation
open LobbySvr.Net
open LobbySvr.Spec
open LobbySvr.Lobby

variable {J K : Type}

/-- A packet for the broker is built inside its struct, declares the length of the text, and the broker
    reader hands exactly the text to its JSON parser and dispatches what that makes of it. -/
structure PacketFits (json : JsonCpp J) (receiver : List UInt8 → Option K) (memory : Nat → UInt8)
    (beyond : List UInt8) (url : List UInt8) (value : J) (packet : List UInt8) : Prop where
  declared : ∃ pk, ConnectorUser.fill (.new memory) url (json.write value) = .ok pk ∧
    pk.bodySize.toNat = (json.write value).length
  recovered : BrokerConnector.readJsonPacket receiver beyond (.received packet) =
    .ok (parsedExit receiver url (json.write value))

theorem chatSendMsgUrl_room : chatSendMsgUrl.length < maxUrlString := by decide

/-- An empty text is turned away by the broker reader. -/
theorem broker_refuses_empty (receiver : List UInt8 → Option K) (beyond : List UInt8)
    {pk : BrokerProtocol.PtJson} (field : pk.url.length = maxUrlString) (zero : pk.bodySize = 0) :
    BrokerConnector.readJsonPacket receiver beyond (.received (pk.head ++ [])) =
      .ok (.bodySizeError 0) := by
  have room : ([] : List UInt8).length ≤ BrokerProtocol.maxBodySize := Nat.zero_le _
  obtain ⟨later, -, -, eq⟩ := broker_reads_head receiver beyond field room
  rw [eq, zero, readBody, if_pos (.inr rfl)]

/-- The packet for the broker fits exactly when the text has 1 to 4000 bytes. -/
theorem packetFits_iff (json : JsonCpp J) (receiver : List UInt8 → Option K) (memory : Nat → UInt8)
    (beyond : List UInt8) (value : J) :
    (∃ packet, ConnectorUser.sendJsonPacket json (.new memory) chatSendMsgUrl value = .ok packet ∧
      PacketFits json receiver memory beyond chatSendMsgUrl value packet) ↔
    1 ≤ (json.write value).length ∧ (json.write value).length ≤ BrokerProtocol.maxBodySize := by
  have urlRoom := Nat.le_of_lt chatSendMsgUrl_room
  have field : (filledBroker memory chatSendMsgUrl (json.write value)).url.length = maxUrlString :=
    paddedUrl_length urlRoom
  constructor
  · rintro ⟨packet, sent, ⟨pk, filled, -⟩, recovered⟩
    have room : (json.write value).length ≤ BrokerProtocol.maxBodySize := by
      apply Nat.le_of_not_lt
      intro long
      exact broker_fill_overflow memory long pk filled
    refine ⟨List.length_pos_iff.mpr ?_, room⟩
    intro empty
    rw [connectorUser_sends json memory urlRoom room, Except.ok.injEq] at sent
    rw [← sent, empty] at recovered
    rw [empty] at field
    rw [broker_refuses_empty receiver beyond field rfl, parsedExit] at recovered
    cases parsed : receiver [] with
    | none => simp [parsed] at recovered
    | some outcome => simp [parsed] at recovered
  · rintro ⟨positive, room⟩
    have declared := filledBroker_bodySize memory chatSendMsgUrl room
    have nonempty : json.write value ≠ [] := List.ne_nil_of_length_pos positive
    refine ⟨_, connectorUser_sends json memory urlRoom room, ⟨_, broker_fill_ok memory urlRoom room,
      declared⟩, ?_⟩
    rw [broker_reads receiver beyond field declared nonempty room, filledBroker_url,
      urlString_padded beyond chatSendMsgUrl_room (by decide)]

/-- A part body on the lobby connection is handled as the two protocols ask: when it is accepted as a chat
    request, `sendMsg` gets to its end, and a packet it built for the broker fits. -/
def ChatRequestFits (json : JsonCpp J) (receiver : List UInt8 → Option K) (memory : Nat → UInt8)
    (beyond lobbyBeyond : List UInt8) (server : ChatServer) (user : Option ChatUser) (broker : Bool)
    (size : UInt32) (msg : MessageBuffer) : Prop :=
  ∀ text jv, LobbyAcceptorReceiver.readJsonPacket json.parse user.isSome lobbyBeyond size msg =
      .ok (.dispatched sendMsgUrl text jv) →
    ∃ decision packet, NhChat.sendMsg json server user broker (.new memory) jv = .ok (decision, packet) ∧
      ∀ bytes, packet = some bytes →
        ∃ value, decision = .forward value ∧
          PacketFits json receiver memory beyond chatSendMsgUrl value bytes

/-- What `sendMsg` does with a request it forwards. -/
theorem sendMsg_forward {json : JsonCpp J} {server : ChatServer} {user : Option ChatUser} {jv value : J}
    (forwards : NhChat.decide json server user jv = .forward value) (pk : BrokerProtocol.PtJson) :
    NhChat.sendMsg json server user true pk jv =
      (ConnectorUser.sendJsonPacket json pk chatSendMsgUrl value).map
        fun packet => (.forward value, some packet) := by
  simp only [NhChat.sendMsg, forwards, BrokerConnector.sendJsonPacket]
  cases ConnectorUser.sendJsonPacket json pk chatSendMsgUrl value with
  | error fault => rfl
  | ok packet => rfl

/-- A request that is refused, or finds no broker connection, is dealt with and no packet is built. -/
theorem sendMsg_nothing_built {json : JsonCpp J} {server : ChatServer} {user : Option ChatUser}
    {broker : Bool} {jv : J}
    (quiet : ∀ value, NhChat.decide json server user jv = .forward value → broker = false)
    (pk : BrokerProtocol.PtJson) :
    ∃ decision, NhChat.sendMsg json server user broker pk jv = .ok (decision, none) := by
  cases decision : NhChat.decide json server user jv with
  | forward value =>
      obtain rfl := quiet value decision
      exact ⟨_, by rw [NhChat.sendMsg, decision]; rfl⟩
  | _ => exact ⟨_, by rw [NhChat.sendMsg, decision]; rfl⟩

/-- A forwarded request that fits has a text of 1 to 4000 bytes. -/
theorem text_fits_of_request {json : JsonCpp J} {receiver : List UInt8 → Option K}
    {memory : Nat → UInt8} {beyond lobbyBeyond : List UInt8} {server : ChatServer}
    {user : Option ChatUser} {size : UInt32} {msg : MessageBuffer} {text : List UInt8} {jv value : J}
    (fits : ChatRequestFits json receiver memory beyond lobbyBeyond server user true size msg)
    (accepted : LobbyAcceptorReceiver.readJsonPacket json.parse user.isSome lobbyBeyond size msg =
      .ok (.dispatched sendMsgUrl text jv))
    (forwards : NhChat.decide json server user jv = .forward value) :
    1 ≤ (json.write value).length ∧ (json.write value).length ≤ BrokerProtocol.maxBodySize := by
  obtain ⟨decision, packet, sent, each⟩ := fits text jv accepted
  rw [sendMsg_forward forwards] at sent
  rw [← packetFits_iff json receiver memory beyond value]
  cases built : ConnectorUser.sendJsonPacket json (.new memory) chatSendMsgUrl value with
  | error fault => simp [built, Except.map] at sent
  | ok bytes =>
      simp only [built, Except.map, Except.ok.injEq, Prod.mk.injEq] at sent
      obtain ⟨rfl, rfl⟩ := sent
      obtain ⟨other, same, fit⟩ := each bytes rfl
      cases same
      exact ⟨bytes, rfl, fit⟩

/-- A chat request fits the broker protocol exactly when it is not forwarded, or the text of the value that
    is forwarded has 1 to 4000 bytes. -/
theorem chatRequest_fits_iff (json : JsonCpp J) (receiver : List UInt8 → Option K)
    (memory : Nat → UInt8) (beyond lobbyBeyond : List UInt8) (server : ChatServer)
    (user : Option ChatUser) (broker : Bool) (size : UInt32) (msg : MessageBuffer) :
    ChatRequestFits json receiver memory beyond lobbyBeyond server user broker size msg ↔
      ∀ text jv value, LobbyAcceptorReceiver.readJsonPacket json.parse user.isSome lobbyBeyond size msg =
          .ok (.dispatched sendMsgUrl text jv) →
        NhChat.decide json server user jv = .forward value → broker = true →
        1 ≤ (json.write value).length ∧ (json.write value).length ≤ BrokerProtocol.maxBodySize := by
  constructor
  · rintro fits text jv value accepted forwards rfl
    exact text_fits_of_request fits accepted forwards
  · intro condition text jv accepted
    by_cases quiet : ∀ value, NhChat.decide json server user jv = .forward value → broker = false
    · obtain ⟨decision, sent⟩ := sendMsg_nothing_built quiet (.new memory)
      exact ⟨decision, none, sent, fun bytes built => absurd built (by simp)⟩
    · push Not at quiet
      obtain ⟨value, forwards, connected⟩ := quiet
      have connected : broker = true := by simpa using connected
      obtain ⟨bytes, built, fit⟩ := (packetFits_iff json receiver memory beyond value).mpr
        (condition text jv value accepted forwards connected)
      refine ⟨.forward value, some bytes, ?_, ?_⟩
      · rw [connected, sendMsg_forward forwards, built]
        rfl
      · rintro _ ⟨rfl⟩
        exact ⟨value, rfl, fit⟩

/-- A message to the group channel. -/
def groupMessage (content : List UInt8) : FlatJson :=
  .object [("channelType", .uint 1), ("msg", .text content)]

/-- The message as `sendMsg` forwards it for the user `bob`. -/
def groupMessageForwarded (content : List UInt8) : FlatJson :=
  .object [("addition_fromIDX", .uint 7), ("addition_fromSVR", .uint 3), ("channelType", .uint 1),
    ("from", .text [98, 111, 98]), ("identity", .uint 1), ("msg", .text content),
    ("packetSequenceNum", .null), ("sendTime", .uint 1700000000), ("seq", .null)]

/-- jsoncpp as far as a group message needs it. -/
def groupMessageJson (content : List UInt8) : JsonCpp FlatJson :=
  flatJson [((groupMessage content).write ++ [0], groupMessage content)]

theorem groupMessage_forwarded (content : List UInt8) (nonempty : content ≠ []) :
    NhChat.decide (groupMessageJson content) ⟨3, 1700000000⟩ (some ⟨7, [98, 111, 98], 1⟩)
      (groupMessage content) = .forward (groupMessageForwarded content) := by
  cases content with
  | nil => exact absurd rfl nonempty
  | cons first rest => rfl

theorem groupMessage_length (content : List UInt8) :
    (groupMessage content).write.length = content.length + 27 := by
  have one : FlatJson.decimal 1 = [49] := by decide
  simp [groupMessage, FlatJson.write, FlatJson.writeMembers, FlatJson.writeMember, FlatJson.ascii, one]

theorem groupMessageForwarded_length (content : List UInt8) :
    (groupMessageForwarded content).write.length = content.length + 153 := by
  have small : FlatJson.decimal 7 = [55] ∧ FlatJson.decimal 3 = [51] ∧ FlatJson.decimal 1 = [49] := by
    decide
  have time : FlatJson.decimal 1700000000 = [49, 55, 48, 48, 48, 48, 48, 48, 48, 48] := by decide
  simp [groupMessageForwarded, FlatJson.write, FlatJson.writeMembers, FlatJson.writeMember,
    FlatJson.ascii, small, time]

/-- A client's chat request: the head of its packet, the text and a NUL. -/
def groupMessageBody (content : List UInt8) : List UInt8 :=
  (filledLobby 0 (fun _ => 0) sendMsgUrl (groupMessage content).write).head ++
    ((groupMessage content).write ++ [0])

theorem groupMessage_accepted (content beyond : List UInt8) (room : content.length ≤ 29000) :
    LobbyAcceptorReceiver.readJsonPacket (groupMessageJson content).parse true beyond
        (UInt32.ofNat (groupMessageBody content).length) (.received (groupMessageBody content)) =
      .ok (.dispatched sendMsgUrl ((groupMessage content).write ++ [0]) (groupMessage content)) := by
  have urlRoom : sendMsgUrl.length < maxUrlString := by decide
  have limit : LobbyProtocol.maxBodySize = 30000 := rfl
  have length := groupMessage_length content
  have fits : (groupMessage content).write.length + 1 ≤ LobbyProtocol.maxBodySize := by omega
  have declared : (filledLobby 0 (fun _ => 0) sendMsgUrl (groupMessage content).write).bodySize.toNat =
      ((groupMessage content).write ++ [0]).length := by
    rw [filledLobby_bodySize 0 _ sendMsgUrl fits, List.length_append, List.length_singleton]
  have known : (groupMessageJson content).parse ((groupMessage content).write ++ [0]) =
      some (groupMessage content) := by
    simp [groupMessageJson, flatJson]
  have reads := lobby_reads (groupMessageJson content).parse beyond
    (paddedUrl_length (Nat.le_of_lt urlRoom)) declared (by simp) (by simpa using fits)
  rw [filledLobby_url, urlString_padded beyond urlRoom (by decide), parsedExit, known] at reads
  exact reads

/-- A chat line of 4000 letters is accepted by the lobby and does not fit the packet for the broker. -/
theorem long_message_overflows :
    (LobbyAcceptorReceiver.readJsonPacket (groupMessageJson (List.replicate 4000 97)).parse true []
        (UInt32.ofNat (groupMessageBody (List.replicate 4000 97)).length)
        (.received (groupMessageBody (List.replicate 4000 97))) =
      .ok (.dispatched sendMsgUrl ((groupMessage (List.replicate 4000 97)).write ++ [0])
        (groupMessage (List.replicate 4000 97)))) ∧
    ((groupMessage (List.replicate 4000 97)).write ++ [0]).length = 4028 ∧
    ¬ ChatRequestFits (groupMessageJson (List.replicate 4000 97)) (fun text => some text) (fun _ => 0) []
      [] ⟨3, 1700000000⟩ (some ⟨7, [98, 111, 98], 1⟩) true
      (UInt32.ofNat (groupMessageBody (List.replicate 4000 97)).length)
      (.received (groupMessageBody (List.replicate 4000 97))) := by
  have letters : (List.replicate 4000 (97 : UInt8)).length = 4000 := List.length_replicate
  generalize List.replicate 4000 (97 : UInt8) = content at letters ⊢
  have nonempty : content ≠ [] := List.ne_nil_of_length_pos (by omega)
  have accepted := groupMessage_accepted content [] (by omega)
  have forwarded := groupMessage_forwarded content nonempty
  have long := groupMessageForwarded_length content
  refine ⟨accepted, ?_, ?_⟩
  · rw [List.length_append, groupMessage_length, letters]
    rfl
  · intro fits
    have limit : BrokerProtocol.maxBodySize = 4000 := rfl
    have short : (groupMessageForwarded content).write.length ≤ BrokerProtocol.maxBodySize :=
      (text_fits_of_request fits accepted forwarded).2
    omega

end LobbySvr.Proofs

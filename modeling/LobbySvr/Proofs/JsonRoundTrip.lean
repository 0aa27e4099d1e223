/-
Module: LobbySvr.Proofs.JsonRoundTrip
Layer: Proofs
Purpose: A JSON packet through the whole stack: a sender builds it, `sendPacket` frames it, the parser of the
  other side takes the frame apart and the reader behind it calls `dispatch` once, under the sender's URL
  and with the text the sender serialized.
Imports: LobbySvr.Spec.FlatJson, LobbySvr.Proofs.JsonPackets, LobbySvr.Proofs.FrameRoundTrip
Trusted boundary: none
Main exports: Dispatch, lobbyDispatch, brokerDispatch, ArrivesOnce, arrivesOnce_of_part, lobby_arrives,
  broker_arrives, json_packets_arrive
Open obligations: none
-/
import LobbySvr.Spec.FlatJson
import LobbySvr.Proofs.JsonPackets
import LobbySvr.Proofs.FrameRoundTrip

namespace LobbySvr.Proofs

open LobbySvr.Foundation
open LobbySvr.Net
open LobbySvr.Spec
open LobbySvr.Lobby

variable {J : Type}

/-- A call of `dispatch`: the URL and the value it is given, and the text the value was parsed from. -/
structure Dispatch (J : Type) where
  url : List UInt8
  text : List UInt8
  value : J
deriving DecidableEq, Repr

/-- The call of `dispatch` that a reader makes, if it gets there. -/
def dispatchOf : Except Fault (ReadExit J) → Option (Dispatch J)
  | .ok (.dispatched url text value) => some ⟨url, text, value⟩
  | _ => none

/-- The call of `LobbyAcceptorReceiver::dispatch` behind a call of the lobby parsers. -/
def lobbyDispatch (parseJson : List UInt8 → Option J) (user : Bool) (beyond : List UInt8) :
    Call LobbyHandler → Option (Dispatch J)
  | .handler .readJsonPacket size body =>
      dispatchOf (LobbyAcceptorReceiver.readJsonPacket parseJson user beyond size (.received body))
  | _ => none

/-- The call of `BrokerConnector::dispatch` behind a call of the broker parsers. -/
def brokerDispatch (parseJson : List UInt8 → Option J) (beyond : List UInt8) :
    Call BrokerHandler → Option (Dispatch J)
  | .handler .readJsonPacket _ body =>
      dispatchOf (BrokerConnector.readJsonPacket parseJson beyond (.received body))
  | _ => none

/-- `sendPacket` frames the packet without an exception, and a parser run on the frame takes all of it,
    returns true and leads to this one call of `dispatch`. -/
def ArrivesOnce {κ : Type} (parser : FrameParser κ) (handlers : Handlers κ)
    (dispatch : Call κ → Option (Dispatch J)) (packet : List UInt8) (expected : Dispatch J) : Prop :=
  ∃ frame, sendPacketFrame manipulatorJsonParserTest packet = .ok frame ∧
    ∀ msg : MessageBuffer, msg.Valid → msg.bytes = frame →
      (parse parser handlers msg).ending = .returned true ∧
        (parse parser handlers msg).msg.bytes = [] ∧
        (parse parser handlers msg).calls.filterMap dispatch = [expected]

/-- A packet arrives once when its code has a handler and the handler calls `dispatch` and returns. -/
theorem arrivesOnce_of_part {κ : Type} {parser : FrameParser κ} {handlers : Handlers κ}
    {dispatch : Call κ → Option (Dispatch J)} {body : List UInt8} {expected : Dispatch J} {kind : κ}
    (keys : parser.keys = plainCodec.keys)
    (fits : sizeHeader + body.length ≤ MessageBuffer.maxBufferSize)
    (routed : parser.route (codeOf parser.codeSize body) = some kind)
    (returns : behaviourOf handlers kind (UInt32.ofNat body.length) body = none)
    (dispatches : dispatch (.handler kind (UInt32.ofNat body.length) body) = some expected) :
    ArrivesOnce parser handlers dispatch body expected := by
  refine ⟨encodePacket plainCodec [body], sendPacketFrame_plain fits, ?_⟩
  intro msg valid content
  have stream : msg.bytes = encodeStream plainCodec [[body]] := by
    rw [content, encodeStream_cons, encodeStream_nil, List.append_nil]
  have wellFormed : WellFormed parser (behaviourOf handlers) [[body]] := by
    intro parts member
    rw [List.mem_singleton] at member
    subst member
    refine ⟨List.cons_ne_nil _ _, ?_⟩
    intro part inPacket
    rw [List.mem_singleton] at inPacket
    subst inPacket
    exact ⟨kind, routed, returns⟩
  obtain ⟨ending, left, calls⟩ := parse_stream keys valid stream wellFormed
  refine ⟨ending, left, ?_⟩
  have call : callFor parser body = .handler kind (UInt32.ofNat body.length) body := by
    simp only [callFor, routed]
  rw [calls]
  simp [call, dispatches]

/-- What `dispatch` is given by a reader that has the whole text. -/
theorem dispatchOf_parsedExit {parseJson : List UInt8 → Option J} {url text : List UInt8} {value : J}
    (parsed : parseJson text = some value) :
    dispatchOf (.ok (parsedExit parseJson url text)) = some ⟨url, text, value⟩ := by
  simp only [parsedExit, parsed, dispatchOf]

/-- A filled lobby packet arrives at `LobbyAcceptorReceiver::dispatch`. -/
theorem lobby_arrives (parseJson : List UInt8 → Option J) (beyond : List UInt8)
    {pk : LobbyProtocol.PtJson} {body : List UInt8} {value : J}
    (code : pk.code = LobbyProtocol.jsonPacketValue) (field : pk.url.length = maxUrlString)
    (declared : pk.bodySize.toNat = body.length) (positive : body ≠ [])
    (room : body.length ≤ LobbyProtocol.maxBodySize) (parsed : parseJson body = some value) :
    ArrivesOnce packetParserNotUseEncTest (lobbyHandlers parseJson true beyond)
      (lobbyDispatch parseJson true beyond) (pk.head ++ body)
      ⟨urlString pk.url beyond, body, value⟩ := by
  have reads := lobby_reads parseJson beyond field declared positive room
  have total : (pk.head ++ body).length = LobbyProtocol.headSize + body.length := by
    rw [List.length_append, lobby_head_length field]
  have maxSize := MessageBuffer.maxBufferSize_eq
  have limit : sizeHeader + (LobbyProtocol.headSize + LobbyProtocol.maxBodySize) = 30048 := rfl
  have routed : packetParserNotUseEncTest.route
      (codeOf packetParserNotUseEncTest.codeSize (pk.head ++ body)) = some .readJsonPacket := by
    have first : codeOf packetParserNotUseEncTest.codeSize (pk.head ++ body) = u32Of [pk.code] := by
      obtain ⟨later, layout⟩ : ∃ later, pk.head ++ body = pk.code :: later := ⟨_, rfl⟩
      have long : packetParserNotUseEncTest.codeSize ≤ (pk.code :: later).length :=
        Nat.succ_le_succ (Nat.zero_le _)
      rw [layout, codeOf, if_pos long]
      rfl
    rw [first, code]
    decide
  apply arrivesOnce_of_part rfl (by omega) routed
  · simp only [behaviourOf, lobbyHandlers, reads]
  · rw [lobbyDispatch, reads, dispatchOf_parsedExit parsed]

/-- A filled broker packet arrives at `BrokerConnector::dispatch`. -/
theorem broker_arrives (parseJson : List UInt8 → Option J) (beyond : List UInt8)
    {pk : BrokerProtocol.PtJson} {body : List UInt8} {value : J}
    (code : pk.code = BrokerProtocol.jsonPacketValue) (field : pk.url.length = maxUrlString)
    (declared : pk.bodySize.toNat = body.length) (positive : body ≠ [])
    (room : body.length ≤ BrokerProtocol.maxBodySize) (parsed : parseJson body = some value) :
    ArrivesOnce packetParserBrokerTest (brokerHandlers parseJson beyond)
      (brokerDispatch parseJson beyond) (pk.head ++ body) ⟨urlString pk.url beyond, body, value⟩ := by
  have reads := broker_reads parseJson beyond field declared positive room
  have total : (pk.head ++ body).length = BrokerProtocol.headSize + body.length := by
    rw [List.length_append, broker_head_length field]
  have maxSize := MessageBuffer.maxBufferSize_eq
  have limit : sizeHeader + (BrokerProtocol.headSize + BrokerProtocol.maxBodySize) = 4046 := rfl
  have routed : packetParserBrokerTest.route
      (codeOf packetParserBrokerTest.codeSize (pk.head ++ body)) = some .readJsonPacket := by
    have first : codeOf packetParserBrokerTest.codeSize (pk.head ++ body) = pk.code := by
      have four : packetParserBrokerTest.codeSize = (u32Bytes pk.code).length := by
        rw [u32Bytes_length]
        rfl
      have layout : pk.head ++ body =
          u32Bytes pk.code ++ (pk.url ++ u16Bytes pk.bodySize ++ body) := by
        simp [BrokerProtocol.PtJson.head]
      rw [codeOf, layout, four, if_pos (by simp), List.take_left, u32Of_u32Bytes]
    rw [first, code]
    decide
  apply arrivesOnce_of_part rfl (by omega) routed
  · simp only [behaviourOf, brokerHandlers, reads]
  · rw [brokerDispatch, reads, dispatchOf_parsedExit parsed]

/-- JSON packets survive the stack in both formats.  The text is the one the sender's `FastWriter` makes, for
    the lobby after the sender has prepared the value.  jsoncpp is taken to parse the text and, in the
    lobby format, to ignore the NUL behind it. -/
theorem json_packets_arrive (json : JsonCpp J) (memory : Nat → UInt8) (beyond : List UInt8)
    {url : List UInt8} (urlRoom : url.length ≤ 31) (noNul : 0 ∉ url) :
    (∀ (sequenceNo packetSequenceNo : UInt32) (jv prepared value : J),
      User.prepare json jv = some (packetSequenceNo, prepared) →
      (json.write prepared).length + 1 ≤ LobbyProtocol.maxBodySize →
      json.parse (json.write prepared) = some value →
      json.parse (json.write prepared ++ [0]) = json.parse (json.write prepared) →
      ∃ packet, User.sendJsonPacket json (.new sequenceNo memory) url jv = .ok (.sent packet prepared) ∧
        ArrivesOnce packetParserNotUseEncTest (lobbyHandlers json.parse true beyond)
          (lobbyDispatch json.parse true beyond) packet ⟨url, json.write prepared ++ [0], value⟩) ∧
    (∀ jv value : J, 1 ≤ (json.write jv).length →
      (json.write jv).length ≤ BrokerProtocol.maxBodySize → json.parse (json.write jv) = some value →
      ∃ packet, ConnectorUser.sendJsonPacket json (.new memory) url jv = .ok packet ∧
        ArrivesOnce packetParserBrokerTest (brokerHandlers json.parse beyond)
          (brokerDispatch json.parse beyond) packet ⟨url, json.write jv, value⟩) := by
  have terminated : url.length < maxUrlString := Nat.lt_succ_of_le urlRoom
  have field : (paddedUrl url).length = maxUrlString := paddedUrl_length (Nat.le_of_lt terminated)
  have readBack : urlString (paddedUrl url) beyond = url := urlString_padded beyond terminated noNul
  constructor
  · intro sequenceNo packetSequenceNo jv prepared value prepares room parses ignoresNul
    refine ⟨_, user_sends json sequenceNo memory (Nat.le_of_lt terminated) prepares room, ?_⟩
    have declared : (filledLobby packetSequenceNo memory url (json.write prepared)).bodySize.toNat =
        (json.write prepared ++ [0]).length := by
      rw [filledLobby_bodySize packetSequenceNo memory url room, List.length_append,
        List.length_singleton]
    have arrives := lobby_arrives json.parse beyond rfl field declared (by simp) (by simpa using room)
      (ignoresNul.trans parses)
    rw [filledLobby_url, readBack] at arrives
    exact arrives
  · intro jv value positive room parses
    refine ⟨_, connectorUser_sends json memory (Nat.le_of_lt terminated) room, ?_⟩
    have declared : (filledBroker memory url (json.write jv)).bodySize.toNat = (json.write jv).length :=
      filledBroker_bodySize memory url room
    have nonempty : json.write jv ≠ [] := List.ne_nil_of_length_pos positive
    have arrives := broker_arrives json.parse beyond rfl field declared nonempty room parses
    rw [filledBroker_url, readBack] at arrives
    exact arrives

/-- The object with one member `a`. -/
def oneMember : FlatJson := .object [("a", .uint 1)]

/-- What the lobby sender makes of it. -/
def oneMemberPrepared : FlatJson :=
  .object [("a", .uint 1), ("packetSequenceNum", .null), ("resultMsg", .null)]

/-- jsoncpp as far as this object needs it. -/
def oneMemberJson : JsonCpp FlatJson :=
  flatJson [(oneMember.write, oneMember), (oneMemberPrepared.write, oneMemberPrepared),
    (oneMemberPrepared.write ++ [0], oneMemberPrepared)]

/-- An object under the URL `/a`, in both formats. -/
theorem json_packets_arrive_oneMember :
    (∃ packet, User.sendJsonPacket oneMemberJson (.new 0 fun _ => 204) [47, 97] oneMember =
        .ok (.sent packet oneMemberPrepared) ∧
      ArrivesOnce packetParserNotUseEncTest (lobbyHandlers oneMemberJson.parse true [])
        (lobbyDispatch oneMemberJson.parse true []) packet
        ⟨[47, 97], oneMemberJson.write oneMemberPrepared ++ [0], oneMemberPrepared⟩) ∧
    (∃ packet, ConnectorUser.sendJsonPacket oneMemberJson (.new fun _ => 204) [47, 97] oneMember =
        .ok packet ∧
      ArrivesOnce packetParserBrokerTest (brokerHandlers oneMemberJson.parse [])
        (brokerDispatch oneMemberJson.parse []) packet
        ⟨[47, 97], oneMemberJson.write oneMember, oneMember⟩) := by
  obtain ⟨lobby, broker⟩ := @json_packets_arrive _ oneMemberJson (fun _ => 204) [] [47, 97] (by decide)
    (by decide)
  constructor
  · exact lobby 0 0 oneMember oneMemberPrepared oneMemberPrepared (by decide) (by decide) (by decide)
      (by decide)
  · exact broker oneMember oneMember (by decide) (by decide) (by decide)

end LobbySvr.Proofs

/-
Module: LobbySvr.Lobby.Protocol
Layer: Lobby
Purpose: The packed packet structs of `include/lobby_protocol.h` and `include/broker_protocol.h` that the
  server sends and receives.  A struct is kept field by field; its image in memory is the concatenation of
  the fields in declaration order, without padding, so `HEAD_SIZE` is a constant of its own that the
  proofs compare with the layout.
Imports: LobbySvr.Foundation.Words, LobbySvr.Net.MessageBuffer
Trusted boundary: human-reviewed embedding of the C++ source
Main exports: LobbyProtocol.PtJson, LobbyProtocol.heartBeatPacketValue, BrokerProtocol.PtJson, copyUrl,
  copyBody, urlField_take, bodySizeField_take
Open obligations: none
-/
import LobbySvr.Foundation.Words
import LobbySvr.Net.MessageBuffer

namespace LobbySvr.Lobby

open LobbySvr.Foundation
open LobbySvr.Net

/-- `MAX_URL_STRING` of both protocols. -/
def maxUrlString : Nat := 32

/-- `memcpy(pk.url, url.c_str(), url.length())` into a zeroed `url` field. -/
def copyUrl (field url : List UInt8) : Except Fault (List UInt8) :=
  if maxUrlString < url.length then .error .undefinedBehaviour
  else .ok (url ++ field.drop url.length)

/-- `memcpy(pk.jsonBody + offset, src, src.length)` into a field of `capacity` bytes. -/
def copyBody (capacity : Nat) (field : Nat → UInt8) (offset : Nat) (src : List UInt8) :
    Except Fault (Nat → UInt8) :=
  if capacity < offset + src.length then .error .undefinedBehaviour
  else .ok (writeRange field offset src)

namespace LobbyProtocol

/-- `PT_JSON::packet_value`. -/
def jsonPacketValue : UInt8 := 1

/-- `PT_HEARTBEAT::packet_value`. -/
def heartBeatPacketValue : UInt8 := 3

/-- `PT_JSON::MAX_BODY_SIZE`. -/
def maxBodySize : Nat := 30000

/-- `PT_JSON::HEAD_SIZE`. -/
def headSize : Nat := 40

/-- `sizeof(PT_JSON)`: the head and the body field, without padding. -/
def sizePtJson : Nat := headSize + maxBodySize

/-- `LOBBY_PROTOCOL::PT_JSON`. -/
structure PtJson where
  code : UInt8
  sequenceNo : UInt32
  isCompressed : UInt8
  url : List UInt8
  bodySize : UInt16
  jsonBody : Nat → UInt8

/-- The constructor.  It leaves `sequenceNo` and `jsonBody` with whatever the memory held. -/
def PtJson.new (sequenceNo : UInt32) (jsonBody : Nat → UInt8) : PtJson where
  code := jsonPacketValue
  sequenceNo := sequenceNo
  isCompressed := 0
  url := List.replicate maxUrlString 0
  bodySize := 0
  jsonBody := jsonBody

/-- The fields in front of `jsonBody`, as they lie in memory. -/
def PtJson.head (pk : PtJson) : List UInt8 :=
  [pk.code] ++ (u32Bytes pk.sequenceNo ++ ([pk.isCompressed] ++ (pk.url ++ u16Bytes pk.bodySize)))

/-- The first `count` bytes of the struct. -/
def PtJson.image (pk : PtJson) (count : Nat) : Except Fault (List UInt8) :=
  if (pk.head ++ readRange pk.jsonBody 0 maxBodySize).length < count then .error .undefinedBehaviour
  else .ok ((pk.head ++ readRange pk.jsonBody 0 maxBodySize).take count)

/-- The `url` field of a struct whose first bytes were read from the wire. -/
def urlField (received : List UInt8) : List UInt8 := (received.drop 6).take maxUrlString

/-- The `bodySize` field of a struct whose first bytes were read from the wire. -/
def bodySizeField (received : List UInt8) : UInt16 := u16Of ((received.drop 38).take 2)

/-- The head of a packet holds its URL field. -/
theorem urlField_take (packet : List UInt8) : urlField (packet.take headSize) = urlField packet := by
  rw [urlField, urlField, List.drop_take, List.take_take]
  rfl

/-- The head of a packet holds its length field. -/
theorem bodySizeField_take (packet : List UInt8) :
    bodySizeField (packet.take headSize) = bodySizeField packet := by
  rw [bodySizeField, bodySizeField, List.drop_take, List.take_take]
  rfl

end LobbyProtocol

namespace BrokerProtocol

/-- `PT_JSON::packet_value`. -/
def jsonPacketValue : UInt32 := 1

/-- `PT_JSON::MAX_BODY_SIZE`. -/
def maxBodySize : Nat := 4000

/-- `PT_JSON::HEAD_SIZE`. -/
def headSize : Nat := 38

/-- `BROKER_PROTOCOL::PT_JSON`. -/
structure PtJson where
  code : UInt32
  url : List UInt8
  bodySize : UInt16
  jsonBody : Nat → UInt8

/-- The constructor.  It leaves `jsonBody` with whatever the memory held. -/
def PtJson.new (jsonBody : Nat → UInt8) : PtJson where
  code := jsonPacketValue
  url := List.replicate maxUrlString 0
  bodySize := 0
  jsonBody := jsonBody

/-- The fields in front of `jsonBody`, as they lie in memory. -/
def PtJson.head (pk : PtJson) : List UInt8 :=
  u32Bytes pk.code ++ (pk.url ++ u16Bytes pk.bodySize)

/-- The first `count` bytes of the struct. -/
def PtJson.image (pk : PtJson) (count : Nat) : Except Fault (List UInt8) :=
  if (pk.head ++ readRange pk.jsonBody 0 maxBodySize).length < count then .error .undefinedBehaviour
  else .ok ((pk.head ++ readRange pk.jsonBody 0 maxBodySize).take count)

/-- The `url` field of a struct whose first bytes were read from the wire. -/
def urlField (received : List UInt8) : List UInt8 := (received.drop 4).take maxUrlString

/-- The `bodySize` field of a struct whose first bytes were read from the wire. -/
def bodySizeField (received : List UInt8) : UInt16 := u16Of ((received.drop 36).take 2)

/-- The head of a packet holds its URL field. -/
theorem urlField_take (packet : List UInt8) : urlField (packet.take headSize) = urlField packet := by
  rw [urlField, urlField, List.drop_take, List.take_take]
  rfl

/-- The head of a packet holds its length field. -/
theorem bodySizeField_take (packet : List UInt8) :
    bodySizeField (packet.take headSize) = bodySizeField packet := by
  rw [bodySizeField, bodySizeField, List.drop_take, List.take_take]
  rfl

end BrokerProtocol

end LobbySvr.Lobby

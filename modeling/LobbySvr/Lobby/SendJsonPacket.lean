/-
Module: LobbySvr.Lobby.SendJsonPacket
Layer: Lobby
Purpose: The senders of JSON packets: `User::SendJsonPacket` towards a client and
  `ConnectorUser::SendJsonPacket` towards the broker.  The first numbers the packet, terminates the text
  and checks its size, but only behind the copy into the struct; the second does none of these.
Imports: LobbySvr.Lobby.Protocol, LobbySvr.Lobby.JsonCpp
Trusted boundary: human-reviewed embedding of the C++ source
Main exports: SendExit, User.prepare, User.fill, User.sendJsonPacket, ConnectorUser.fill,
  ConnectorUser.sendJsonPacket, BrokerConnector.sendJsonPacket
Open obligations: none
-/
import LobbySvr.Lobby.Protocol
import LobbySvr.Lobby.JsonCpp

namespace LobbySvr.Lobby

open LobbySvr.Net

variable {J : Type}

/-- `MLN_Utils::MB2UTF8` outside Windows, on a C string. -/
def mb2Utf8 (mbString : List UInt8) : List UInt8 := mbString

/-- The exits of `User::SendJsonPacket`.  The value is the caller's, as the call leaves it. -/
inductive SendExit (J : Type) where
  /-- An operation of jsoncpp threw. -/
  | jsonException
  /-- The size check failed and 0 is returned. -/
  | bodyOverflow (jv : J)
  /-- `Send` was given these bytes. -/
  | sent (packet : List UInt8) (jv : J)
deriving DecidableEq, Repr

/-- What `User::SendJsonPacket` does to the value before it is serialized, and the sequence number it takes
    from it.  Every `jv[key]` inserts the member. -/
def User.prepare (json : JsonCpp J) (jv : J) : Option (UInt32 × J) := do
  let (resultMsg, jv) ← json.index jv rspRm
  let jv ←
    if json.isNull resultMsg then pure jv
    else do
      let (resultMsg, jv) ← json.index jv rspRm
      let mbString ← json.asCString resultMsg
      json.assign jv rspRm (json.ofString (mb2Utf8 mbString))
  let (sequenceNum, jv) ← json.index jv rspSeq
  if json.isNull sequenceNum then pure (0, jv)
  else do
    let (sequenceNum, jv) ← json.index jv rspSeq
    let packetSequenceNo ← json.asUInt sequenceNum
    pure (packetSequenceNo, jv)

/-- The struct `User::SendJsonPacket` fills in: the text and one NUL behind it. -/
def User.fill (pk : LobbyProtocol.PtJson) (packetSequenceNo : UInt32) (url serialized : List UInt8) :
    Except Fault LobbyProtocol.PtJson := do
  let urlField ← copyUrl pk.url url
  let jsonBody ← copyBody LobbyProtocol.maxBodySize pk.jsonBody 0 serialized
  let jsonBody ← copyBody LobbyProtocol.maxBodySize jsonBody serialized.length [0]
  pure { pk with
    sequenceNo := packetSequenceNo
    url := urlField
    bodySize := UInt16.ofNat (serialized.length + 1)
    jsonBody := jsonBody }

/-- `User::SendJsonPacket` without `USE_COMPRESS_FOR_PACKET`; `pk` is the struct as constructed. -/
def User.sendJsonPacket (json : JsonCpp J) (pk : LobbyProtocol.PtJson) (url : List UInt8) (jv : J) :
    Except Fault (SendExit J) :=
  match User.prepare json jv with
  | none => .ok .jsonException
  | some (packetSequenceNo, jv) => do
      let pk ← User.fill pk packetSequenceNo url (json.write jv)
      if LobbyProtocol.maxBodySize < pk.bodySize.toNat then pure (.bodyOverflow jv)
      else do
        let packet ← pk.image (LobbyProtocol.headSize + pk.bodySize.toNat)
        pure (.sent packet jv)

/-- The struct `ConnectorUser::SendJsonPacket` fills in: the text alone. -/
def ConnectorUser.fill (pk : BrokerProtocol.PtJson) (url serialized : List UInt8) :
    Except Fault BrokerProtocol.PtJson := do
  let urlField ← copyUrl pk.url url
  let jsonBody ← copyBody BrokerProtocol.maxBodySize pk.jsonBody 0 serialized
  pure { pk with
    url := urlField
    bodySize := UInt16.ofNat serialized.length
    jsonBody := jsonBody }

/-- `ConnectorUser::SendJsonPacket`, the bytes `Send` is given. -/
def ConnectorUser.sendJsonPacket (json : JsonCpp J) (pk : BrokerProtocol.PtJson) (url : List UInt8)
    (jv : J) : Except Fault (List UInt8) := do
  let pk ← ConnectorUser.fill pk url (json.write jv)
  pk.image (BrokerProtocol.headSize + pk.bodySize.toNat)

/-- `BrokerConnector::sendJsonPacket`; `user` tells whether `m_user` is set, and without it no packet is
    built. -/
def BrokerConnector.sendJsonPacket (json : JsonCpp J) (user : Bool) (pk : BrokerProtocol.PtJson)
    (url : List UInt8) (jv : J) : Except Fault (Option (List UInt8)) :=
  if user = false then .ok none
  else do
    let packet ← ConnectorUser.sendJsonPacket json pk url jv
    pure (some packet)

end LobbySvr.Lobby

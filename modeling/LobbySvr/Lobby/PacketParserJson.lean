/-
Module: LobbySvr.Lobby.PacketParserJson
Layer: Lobby
Purpose: The header manipulators and the plain parsers of `lobbysvr/packetParserJson.{h,cpp}`: the lobby
  parsers with masked and with plain keys, and the broker parsers with masked and with plain keys.
Imports: LobbySvr.Net.PacketParserSimple, LobbySvr.Net.ConnectionImpl, LobbySvr.Lobby.ReadJsonPacket
Trusted boundary: human-reviewed embedding of the C++ source
Main exports: manipulatorJsonParser, manipulatorJsonParserTest, LobbyHandler, BrokerHandler,
  packetParserNotUseEnc, packetParserBroker, packetParserBrokerTest, packetParserNotUseEncTest,
  lobbyHandlers, brokerHandlers, lobbyProcedure
Open obligations: none
-/
import LobbySvr.Net.PacketParserSimple
import LobbySvr.Net.ConnectionImpl
import LobbySvr.Lobby.ReadJsonPacket

namespace LobbySvr.Lobby

open LobbySvr.Net

/-- `message_header_manipulator_jsonParser`, the same keys as the simple parser's. -/
def manipulatorJsonParser : MsgUserManip := manipulatorSimpleParser

/-- `message_header_manipulator_jsonParser_Test`. -/
def manipulatorJsonParserTest : MsgUserManip where
  getHeaderSize := sizeHeader
  facilitate currentSize := headerBytes (partKeySize + bodySizeOf currentSize) (bodySizeOf currentSize)

/-- The cases of the lobby parsers' switch that have a packet value.  The call for a heartbeat is commented
    out in the source; the case is kept as a handler that does nothing. -/
inductive LobbyHandler where
  | readJsonPacket
  | heartBeat
deriving DecidableEq, Repr

/-- The one packet the broker parsers know. -/
inductive BrokerHandler where
  | readJsonPacket
deriving DecidableEq, Repr

/-- The switch of the lobby parsers. -/
def routeLobby (packetCode : UInt32) : Option LobbyHandler :=
  if packetCode = LobbyProtocol.jsonPacketValue.toUInt32 then some .readJsonPacket
  else if packetCode = LobbyProtocol.heartBeatPacketValue.toUInt32 then some .heartBeat
  else none

/-- The test of the broker parsers. -/
def routeBroker (packetCode : UInt32) : Option BrokerHandler :=
  if packetCode = BrokerProtocol.jsonPacketValue then some .readJsonPacket else none

/-- `JSON_PACKET_PARSING_SUPPORT::packetParser_notUseEnc`. -/
def packetParserNotUseEnc : FrameParser LobbyHandler where
  keys := maskedKeys
  codeSize := 4
  route := routeLobby

/-- `JSON_PACKET_PARSING_SUPPORT::packetParser_broker`. -/
def packetParserBroker : FrameParser BrokerHandler where
  keys := maskedKeys
  codeSize := 4
  route := routeBroker

/-- `JSON_PACKET_PARSING_SUPPORT::packetParser_brokerTest`. -/
def packetParserBrokerTest : FrameParser BrokerHandler where
  keys := plainKeys
  codeSize := 4
  route := routeBroker

/-- `JSON_PACKET_PARSING_SUPPORT::packetParser_notUseEncTest`: plain keys, and a packet code of one byte. -/
def packetParserNotUseEncTest : FrameParser LobbyHandler where
  keys := plainKeys
  codeSize := 1
  route := routeLobby

/-- The handlers behind the lobby parsers.  `dispatch` catches whatever a URL handler throws. -/
def lobbyHandlers {J : Type} (parseJson : List UInt8 → Option J) (user : Bool) (beyond : List UInt8) :
    Handlers LobbyHandler
  | .readJsonPacket, size, procMsg =>
      match LobbyAcceptorReceiver.readJsonPacket parseJson user beyond size procMsg with
      | .error fault => some fault
      | .ok _ => none
  | .heartBeat, _, _ => none

/-- The handlers behind the broker parsers. -/
def brokerHandlers {J : Type} (parseJson : List UInt8 → Option J) (beyond : List UInt8) :
    Handlers BrokerHandler
  | .readJsonPacket, _, procMsg =>
      match BrokerConnector.readJsonPacket parseJson beyond procMsg with
      | .error fault => some fault
      | .ok _ => none

/-- The procedure `main.cpp` gives to the lobby acceptor.  The surroundings of a dispatch are whether the
    connection's tag holds a user, and the memory behind the URL array. -/
def lobbyProcedure {J : Type} (parseJson : List UInt8 → Option J) :
    MessageProcedure LobbyHandler (Bool × List UInt8) where
  packetParsingFunction surroundings msg :=
    parse packetParserNotUseEncTest (lobbyHandlers parseJson surroundings.1 surroundings.2) msg
  packetHeaderManip := manipulatorJsonParserTest

end LobbySvr.Lobby

/-
Module: LobbySvr.Lobby.PacketParserCipher
Layer: Lobby
Purpose: `JSON_PACKET_PARSING_SUPPORT::packetParser`, the lobby's copy of the parser that consults the cipher
  table.
Imports: LobbySvr.Net.PacketParserCipher
Trusted boundary: human-reviewed embedding of the C++ source
Main exports: packetParser, PacketParser
Open obligations: none
-/
import LobbySvr.Net.PacketParserCipher

namespace LobbySvr.Lobby

open LobbySvr.Net

variable {ω η : Type} (ciphers : Ciphers ω) (isSyncEncryptionKey : ω → UInt8 → Bool)
  (memberFuncMap staticFuncMap : MsgMap η) (surroundings : Surroundings (MapHandler η) ω)

/-- The keys and the maps of `JSON_PACKET_PARSING_SUPPORT::packetParser`. -/
def packetParser : FrameParser (MapHandler η) where
  keys := maskedKeys
  codeSize := 4
  route := routeMaps memberFuncMap staticFuncMap

/-- `JSON_PACKET_PARSING_SUPPORT::packetParser` called on a receive buffer is left with a result. -/
def PacketParser (msg : MessageBuffer) (world : ω) : StagedResult (MapHandler η) ω → Prop :=
  StagedParse (packetParser memberFuncMap staticFuncMap) (cipherFetch ciphers isSyncEncryptionKey)
    surroundings msg world

end LobbySvr.Lobby

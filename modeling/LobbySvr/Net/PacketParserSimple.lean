/-
Module: LobbySvr.Net.PacketParserSimple
Layer: Net
Purpose: The key formats of the wire protocol and the plain parser of `net/packetParserSimple.{h,cpp}`.  In
  the masked format a key carries a tag in its upper half and a 16-bit length in its lower half; in the
  format of the `Test` manipulator and parsers a key is the length itself.
Imports: LobbySvr.Net.FrameParser
Trusted boundary: human-reviewed embedding of the C++ source
Main exports: keyMakeKey, keyGetKey, keyGetLength, maskedKeys, plainKeys, manipulatorSimpleParser,
  packetParserNotUseEnc
Open obligations: none
-/
import LobbySvr.Net.FrameParser

namespace LobbySvr.Net

open LobbySvr.Foundation

/-- `SIMPLE_PARSER_MAIN_KEY` and `JSON_PARSER_MAIN_KEY`. -/
def mainKeyTag : UInt32 := 0xffff0000

/-- `SIMPLE_PARSER_PART_KEY` and `JSON_PARSER_PART_KEY`. -/
def partKeyTag : UInt32 := 0xfff30000

/-- `SIMPLE_PARSER_KEY_MAKEKEY` and `JSON_PARSER_KEY_MAKEKEY`. -/
def keyMakeKey (key len : UInt32) : UInt32 := (key &&& 0xffff0000) ||| (len &&& 0x0000ffff)

/-- `SIMPLE_PARSER_KEY_GETKEY` and `JSON_PARSER_KEY_GETKEY`. -/
def keyGetKey (key : UInt32) : UInt32 := key &&& 0xffff0000

/-- `SIMPLE_PARSER_KEY_GETLENGTH` and `JSON_PARSER_KEY_GETLENGTH`. -/
def keyGetLength (key : UInt32) : UInt32 := key &&& 0x0000ffff

/-- `PARTKEY_SIZE` of `SimpleParserProposal` and `JsonParserProposal`. -/
def partKeySize : UInt32 := 4

/-- Keys with a tag and a 16-bit length. -/
def maskedKeys : KeyFormat where
  mainKeyOk key := keyGetKey key == 0xffff0000
  mainLength := keyGetLength
  partKeyOk key := keyGetKey key == 0xfff30000
  partLength := keyGetLength

/-- Keys that are the length itself; the checks are commented out in the source. -/
def plainKeys : KeyFormat where
  mainKeyOk _ := true
  mainLength key := key
  partKeyOk _ := true
  partLength key := key

/-- The two keys stored by a `facilitate` for a message whose body has `bodySize` bytes. -/
def headerBytes (mainKey partKey : UInt32) : List UInt8 := u32Bytes mainKey ++ u32Bytes partKey

/-- `(int32_t)(currentSize - sizeof(HEADER))`. -/
def bodySizeOf (currentSize : Nat) : UInt32 := UInt32.ofNat currentSize - 8

/-- `message_header_manipulator_simpleParser`. -/
def manipulatorSimpleParser : MsgUserManip where
  getHeaderSize := sizeHeader
  facilitate currentSize :=
    headerBytes (keyMakeKey mainKeyTag (partKeySize + bodySizeOf currentSize))
      (keyMakeKey partKeyTag (bodySizeOf currentSize))

/-- The handler maps of a `MessageProcedure`: the handler registered for a packet code. -/
abbrev MsgMap (η : Type) := UInt32 → Option η

/-- Which of the two maps a handler came from. -/
inductive MapHandler (η : Type) where
  | memberFunc (fn : η)
  | staticFunc (fn : η)
deriving DecidableEq, Repr

/-- The member functions are looked up before the static ones. -/
def routeMaps {η : Type} (memberFuncMap staticFuncMap : MsgMap η) (packetCode : UInt32) :
    Option (MapHandler η) :=
  match memberFuncMap packetCode with
  | some fn => some (.memberFunc fn)
  | none => (staticFuncMap packetCode).map .staticFunc

/-- `SIMPLE_PACKET_PARSING_SUPPORT::packetParser_notUseEnc`. -/
def packetParserNotUseEnc {η : Type} (memberFuncMap staticFuncMap : MsgMap η) :
    FrameParser (MapHandler η) where
  keys := maskedKeys
  codeSize := 4
  route := routeMaps memberFuncMap staticFuncMap

end LobbySvr.Net

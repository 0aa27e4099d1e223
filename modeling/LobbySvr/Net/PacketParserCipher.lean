/-
Module: LobbySvr.Net.PacketParserCipher
Layer: Net
Purpose: The cipher table of `MessageProcedure` and `SIMPLE_PACKET_PARSING_SUPPORT::packetParser`, the parser that
  consults it.  A cipher is a pair of functions the server registers: one agrees on a key with the peer,
  the other decrypts a body.  They get the receive buffer itself, so nothing is known about what they
  leave in it.
Imports: LobbySvr.Net.StagedParser, LobbySvr.Net.PacketParserSimple
Trusted boundary: human-reviewed embedding of the C++ source
Main exports: EncParameters, Ciphers, Ciphers.setCipher, Ciphers.getCipherHandler, CipherPath, cipherPath,
  cipherFetch, packetParser, PacketParser, PacketParserNotUseEnc
Open obligations: none
-/
import LobbySvr.Net.StagedParser
import LobbySvr.Net.PacketParserSimple

namespace LobbySvr.Net

open LobbySvr.Foundation

/-- `EncType::GREETING`. -/
def encGreeting : UInt8 := 0

/-- `EncType::AES_128_CBC`. -/
def encAes128Cbc : UInt8 := 2

/-- `UINT8_MAX`, the length of `_ciperHandlers` and of a connection's `_syncEncryptionKey`. -/
def cipherCount : Nat := 255

/-- `NOT_SET_CIPHER_VALUE`. -/
def notSetCipherValue : UInt16 := 256

/-- What calling an empty `boost::function` throws. -/
def emptyFunctionText : String := "call to empty boost::function"

/-- `msgHandlerFn_cipherInit`: the result or the exception, and the receive buffer it leaves. -/
abbrev CipherInit (ω : Type) := UInt8 → UInt32 → MessageBuffer → ω → Except Fault Bool × MessageBuffer × ω

/-- `msgHandlerFn_cipherDEC`, whose result is ignored: the exception, and the two buffers it leaves. -/
abbrev CipherDec (ω : Type) :=
  UInt8 → UInt32 → MessageBuffer → MessageBuffer → ω → Option Fault × MessageBuffer × MessageBuffer × ω

/-- `encParameters`, where an empty function is none. -/
structure EncParameters (ω : Type) where
  encType : UInt8
  cipherInit : Option (CipherInit ω)
  cipherDec : Option (CipherDec ω)

/-- `_userCipherType` and `_ciperHandlers`.  The entries are those below `cipherCount`. -/
structure Ciphers (ω : Type) where
  userCipherType : UInt16
  cipherHandlers : UInt8 → EncParameters ω

section

variable {ω : Type}

/-- A `MessageProcedure` as it is constructed. -/
def Ciphers.new : Ciphers ω where
  userCipherType := notSetCipherValue
  cipherHandlers _ := ⟨0, none, none⟩

/-- `setCipher`. -/
def Ciphers.setCipher (encType : UInt8) (initFunc : Option (CipherInit ω))
    (decFunc : Option (CipherDec ω)) (ciphers : Ciphers ω) : Except Fault (Ciphers ω) :=
  if cipherCount ≤ encType.toNat then .error .undefinedBehaviour
  else
    .ok
      { userCipherType := encType.toUInt16
        cipherHandlers := fun other =>
          if other = encType then ⟨encType, initFunc, decFunc⟩ else ciphers.cipherHandlers other }

/-- `getCipherHandler`. -/
def Ciphers.getCipherHandler (encType : UInt8) (ciphers : Ciphers ω) : Except Fault (EncParameters ω) :=
  if cipherCount ≤ encType.toNat then .error .undefinedBehaviour
  else .ok (ciphers.cipherHandlers encType)

/-- What the parser does with a body. -/
inductive CipherPath (ω : Type) where
  | raw
  | syncKey (cipherType : UInt8) (cipherInit : CipherInit ω)
  | greeting
  | decrypt (cipherType : UInt8) (cipherDec : Option (CipherDec ω))

variable (ciphers : Ciphers ω) (isSyncEncryptionKey : ω → UInt8 → Bool)

/-- The choice of the cipher and the tests on it; `isSyncEncryptionKey` is the connection's. -/
def cipherPath (world : ω) : Except Fault (CipherPath ω) :=
  let selected :=
    if ciphers.userCipherType = notSetCipherValue then encAes128Cbc else ciphers.userCipherType.toUInt8
  match ciphers.getCipherHandler selected with
  | .error fault => .error fault
  | .ok cipherData =>
      match cipherData.cipherInit with
      | none => .ok .raw
      | some cipherInit =>
          if cipherCount ≤ cipherData.encType.toNat then .error .undefinedBehaviour
          else if isSyncEncryptionKey world cipherData.encType = false then
            .ok (.syncKey cipherData.encType cipherInit)
          else if cipherData.encType = encGreeting then .ok .greeting
          else .ok (.decrypt cipherData.encType cipherData.cipherDec)

/-- The body belongs to the agreement on a key; no packet handler gets to see it. -/
def syncKeyFetch (cipherType : UInt8) (cipherInit : CipherInit ω) : Fetch ω :=
  fun partBodySize msg world =>
    match cipherInit cipherType partBodySize msg world with
    | (.error fault, msg, world) => .leaves (.raised fault) msg world
    | (.ok false, msg, world) => .leaves (.returned false) msg.readAll world
    | (.ok true, msg, world) =>
        if msg.readable partBodySize.toNat then
          match msg.readCount partBodySize.toNat with
          | .error fault => .leaves (.raised fault) msg world
          | .ok msg => .goesOn msg world
        else .leaves (.returned false) msg.readAll world

/-- The body is decrypted into `procMsg` and then dropped from the receive buffer. -/
def decryptFetch (cipherType : UInt8) (cipherDec : Option (CipherDec ω)) : Fetch ω :=
  fun partBodySize msg world =>
    match cipherDec with
    | none => .leaves (.raised (.runtimeError emptyFunctionText)) msg world
    | some cipherDec =>
        match cipherDec cipherType partBodySize msg .empty world with
        | (some fault, msg, _, world) => .leaves (.raised fault) msg world
        | (none, msg, procMsg, world) =>
            match msg.readCount partBodySize.toNat with
            | .error fault => .leaves (.raised fault) msg world
            | .ok msg =>
                if procMsg.size = 0 then .leaves (.returned true) msg world
                else .procMsg msg procMsg world

/-- The stage of `packetParser` that makes `procMsg`. -/
def cipherFetch : Fetch ω := fun partBodySize msg world =>
  match cipherPath ciphers isSyncEncryptionKey world with
  | .error fault => .leaves (.raised fault) msg world
  | .ok .raw => plainFetch partBodySize msg world
  | .ok (.syncKey cipherType cipherInit) => syncKeyFetch cipherType cipherInit partBodySize msg world
  | .ok .greeting => plainFetch partBodySize msg world
  | .ok (.decrypt cipherType cipherDec) => decryptFetch cipherType cipherDec partBodySize msg world

/-! ### The parsers -/

variable {η : Type} (memberFuncMap staticFuncMap : MsgMap η)

/-- The keys and the maps of `SIMPLE_PACKET_PARSING_SUPPORT::packetParser`. -/
def packetParser : FrameParser (MapHandler η) where
  keys := maskedKeys
  codeSize := 4
  route := routeMaps memberFuncMap staticFuncMap

variable (surroundings : Surroundings (MapHandler η) ω)

/-- `SIMPLE_PACKET_PARSING_SUPPORT::packetParser` called on a receive buffer is left with a result. -/
def PacketParser (msg : MessageBuffer) (world : ω) : StagedResult (MapHandler η) ω → Prop :=
  StagedParse (packetParser memberFuncMap staticFuncMap) (cipherFetch ciphers isSyncEncryptionKey)
    surroundings msg world

/-- `SIMPLE_PACKET_PARSING_SUPPORT::packetParser_notUseEnc` with handlers that share a world. -/
def PacketParserNotUseEnc (msg : MessageBuffer) (world : ω) : StagedResult (MapHandler η) ω → Prop :=
  StagedParse (packetParserNotUseEnc memberFuncMap staticFuncMap) plainFetch surroundings msg world

end

end LobbySvr.Net

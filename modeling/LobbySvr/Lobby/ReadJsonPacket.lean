/-
Module: LobbySvr.Lobby.ReadJsonPacket
Layer: Lobby
Purpose: The second stage of reception: `LobbyAcceptorReceiver::readJsonPacket` and
  `BrokerConnector::readJsonPacket` take a part body apart, parse its JSON text and hand it to `dispatch`
  under its URL.  The two differ in the head of the packet, in the limit, and in that only the lobby
  reader looks at the user and at the declared size first.
Imports: LobbySvr.Lobby.Protocol
Trusted boundary: human-reviewed embedding of the C++ source
Main exports: ReadExit, urlString, readBody, LobbyAcceptorReceiver.readJsonPacket,
  BrokerConnector.readJsonPacket, LobbyRead, LobbyAcceptorReceiver.readJsonPacketInto,
  readJsonPacketInto_eq
Open obligations: none
-/
import LobbySvr.Lobby.Protocol

namespace LobbySvr.Lobby

open LobbySvr.Foundation
open LobbySvr.Net

/-- The exits of a reader.  The parsed text is kept, and so is the URL handed to `dispatch`. -/
inductive ReadExit (J : Type) where
  /-- `GET_USER_LOBBY` found no user. -/
  | userIsNull
  /-- The packet is shorter than its head; the lobby reader calls `closeReserve(0)`. -/
  | invalidPacket
  | bodySizeError (bodySize : UInt16)
  | bodyPopError (what : Fault)
  | invalidJson (text : List UInt8)
  | dispatched (url text : List UInt8) (value : J)
deriving DecidableEq, Repr

/-- `urlString` used as a C string.  The array has no room for a terminator of its own, so the string runs
    on into `beyond`, the memory behind the array, when the field holds no NUL. -/
def urlString (field beyond : List UInt8) : List UInt8 := (field ++ beyond).takeWhile (· ≠ 0)

/-- The part that both readers share once the head has been read: the size check, the guarded read of the
    body, the JSON parser, and the call of `dispatch`. -/
def readBody {J : Type} (parseJson : List UInt8 → Option J) (maxBodySize : Nat) (bodySize : UInt16)
    (url : List UInt8) (msg : MessageBuffer) : ReadExit J :=
  if maxBodySize < bodySize.toNat ∨ bodySize = 0 then .bodySizeError bodySize
  else
    match msg.read bodySize.toNat with
    | .error fault => .bodyPopError fault
    | .ok (serializedString, _) =>
        match parseJson serializedString with
        | none => .invalidJson serializedString
        | some value => .dispatched url serializedString value

/-- `LobbyAcceptorReceiver::readJsonPacket`; `user` tells whether the connection's tag holds a user. -/
def LobbyAcceptorReceiver.readJsonPacket {J : Type} (parseJson : List UInt8 → Option J) (user : Bool)
    (beyond : List UInt8) (size : UInt32) (msg : MessageBuffer) : Except Fault (ReadExit J) :=
  if user = false then .ok .userIsNull
  else if size.toNat < LobbyProtocol.headSize then .ok .invalidPacket
  else
    match msg.read LobbyProtocol.headSize with
    | .error fault => .error fault
    | .ok (req, msg) =>
        .ok (readBody parseJson LobbyProtocol.maxBodySize (LobbyProtocol.bodySizeField req)
          (urlString (LobbyProtocol.urlField req) beyond) msg)

/-- `BrokerConnector::readJsonPacket`. -/
def BrokerConnector.readJsonPacket {J : Type} (parseJson : List UInt8 → Option J)
    (beyond : List UInt8) (msg : MessageBuffer) : Except Fault (ReadExit J) :=
  match msg.read BrokerProtocol.headSize with
  | .error fault => .error fault
  | .ok (req, msg) =>
      .ok (readBody parseJson BrokerProtocol.maxBodySize (BrokerProtocol.bodySizeField req)
        (urlString (BrokerProtocol.urlField req) beyond) msg)

/-! ### The lobby reader and its struct -/

/-- What the lobby reader does on its own account: its exit, and the arguments of its `closeReserve`
    calls. -/
structure LobbyRead (J : Type) where
  exit : ReadExit J
  closeReserves : List UInt32
deriving DecidableEq, Repr

/-- `memcpy` to `(char*)&req + offset`.  A byte stored outside the struct has no meaning. -/
def storeInto (req : Nat → UInt8) (offset : Nat) (src : List UInt8) : Except Fault (Nat → UInt8) :=
  if LobbyProtocol.sizePtJson < offset + src.length then .error .undefinedBehaviour
  else .ok (writeRange req offset src)

/-- `LobbyAcceptorReceiver::readJsonPacket` with the `PT_JSON` it reads into; `req` is what the memory of
    the struct held before.  All that is used of the packet is read back from the struct. -/
def LobbyAcceptorReceiver.readJsonPacketInto {J : Type} (parseJson : List UInt8 → Option J)
    (user : Bool) (req : Nat → UInt8) (beyond : List UInt8) (size : UInt32) (msg : MessageBuffer) :
    Except Fault (LobbyRead J) :=
  if user = false then .ok ⟨.userIsNull, []⟩
  else if size.toNat < LobbyProtocol.headSize then .ok ⟨.invalidPacket, [0]⟩
  else
    match msg.read LobbyProtocol.headSize with
    | .error fault => .error fault
    | .ok (head, msg) =>
        match storeInto req 0 head with
        | .error fault => .error fault
        | .ok req =>
            let bodySize := LobbyProtocol.bodySizeField (readRange req 0 LobbyProtocol.headSize)
            if LobbyProtocol.maxBodySize < bodySize.toNat ∨ bodySize = 0 then
              .ok ⟨.bodySizeError bodySize, []⟩
            else
              match msg.read bodySize.toNat with
              | .error fault => .ok ⟨.bodyPopError fault, []⟩
              | .ok (body, _) =>
                  match storeInto req LobbyProtocol.headSize body with
                  | .error fault => .error fault
                  | .ok req =>
                      let serializedString := readRange req LobbyProtocol.headSize bodySize.toNat
                      match parseJson serializedString with
                      | none => .ok ⟨.invalidJson serializedString, []⟩
                      | some value =>
                          let url := LobbyProtocol.urlField (readRange req 0 LobbyProtocol.headSize)
                          .ok ⟨.dispatched (urlString url beyond) serializedString value, []⟩

/-- The lobby reader closes the connection at one of its exits only. -/
def LobbyRead.ofExit {J : Type} (exit : ReadExit J) : LobbyRead J where
  exit := exit
  closeReserves :=
    match exit with
    | .invalidPacket => [0]
    | _ => []

theorem LobbyRead.ofExit_open {J : Type} {exit : ReadExit J} (whole : exit ≠ .invalidPacket) :
    (LobbyRead.ofExit exit).closeReserves = [] := by
  cases exit with
  | invalidPacket => exact absurd rfl whole
  | _ => rfl

theorem storeInto_ok (req : Nat → UInt8) {offset : Nat} {src : List UInt8}
    (room : offset + src.length ≤ LobbyProtocol.sizePtJson) :
    storeInto req offset src = .ok (writeRange req offset src) := by
  rw [storeInto, if_neg (Nat.not_lt_of_le room)]

/-- Both reads of the lobby reader stay inside its struct, and it gets out of the struct what it read:
    whatever the struct held before, it does what the reader without a struct does. -/
theorem readJsonPacketInto_eq {J : Type} (parseJson : List UInt8 → Option J) (user : Bool)
    (req : Nat → UInt8) (beyond : List UInt8) (size : UInt32) (msg : MessageBuffer) :
    LobbyAcceptorReceiver.readJsonPacketInto parseJson user req beyond size msg =
      (LobbyAcceptorReceiver.readJsonPacket parseJson user beyond size msg).map .ofExit := by
  unfold LobbyAcceptorReceiver.readJsonPacketInto LobbyAcceptorReceiver.readJsonPacket
  by_cases nobody : user = false
  · rw [if_pos nobody, if_pos nobody]
    rfl
  · rw [if_neg nobody, if_neg nobody]
    by_cases short : size.toNat < LobbyProtocol.headSize
    · rw [if_pos short, if_pos short]
      rfl
    · rw [if_neg short, if_neg short]
      cases headRead : msg.read LobbyProtocol.headSize with
      | error fault => rfl
      | ok result =>
          obtain ⟨head, later⟩ := result
          have headLength : head.length = LobbyProtocol.headSize := MessageBuffer.read_length headRead
          have headRoom : 0 + head.length ≤ LobbyProtocol.sizePtJson := by
            rw [headLength]
            decide
          have headBack : readRange (writeRange req 0 head) 0 LobbyProtocol.headSize = head := by
            rw [← headLength]
            exact readRange_writeRange_self req 0 head
          simp only [storeInto_ok req headRoom, headBack, readBody]
          by_cases refused : LobbyProtocol.maxBodySize < (LobbyProtocol.bodySizeField head).toNat ∨
              LobbyProtocol.bodySizeField head = 0
          · simp only [if_pos refused]
            rfl
          · simp only [if_neg refused]
            cases bodyRead : later.read (LobbyProtocol.bodySizeField head).toNat with
            | error fault => rfl
            | ok result =>
                obtain ⟨body, rest⟩ := result
                have bodyLength := MessageBuffer.read_length bodyRead
                have within : body.length ≤ LobbyProtocol.maxBodySize := by
                  rw [bodyLength]
                  exact Nat.le_of_not_lt (not_or.mp refused).1
                have bodyRoom : LobbyProtocol.headSize + body.length ≤ LobbyProtocol.sizePtJson :=
                  Nat.add_le_add_left within _
                -- The body is stored behind the head, which keeps its fields.
                have headKept := readRange_writeRange_below (writeRange req 0 head) body
                  (Nat.le_of_eq (Nat.zero_add LobbyProtocol.headSize))
                have bodyBack := readRange_writeRange_self (writeRange req 0 head)
                  LobbyProtocol.headSize body
                rw [bodyLength] at bodyBack
                simp only [storeInto_ok _ bodyRoom, headKept, headBack, bodyBack]
                cases parseJson body with
                | none => rfl
                | some value => rfl

end LobbySvr.Lobby

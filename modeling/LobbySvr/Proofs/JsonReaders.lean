/-
Module: LobbySvr.Proofs.JsonReaders
Layer: Proofs
Purpose: The two JSON packet readers on the readable bytes of the message they are given.  The parsers hand
  on a body together with its own length, so the size check of the lobby reader covers the read of the
  head, and no exception leaves it.
Imports: LobbySvr.Lobby.PacketParserJson, LobbySvr.Proofs.MessageBufferQueue,
  LobbySvr.Proofs.FrameRefinement
Trusted boundary: none
Main exports: parsedExit, readBody_declared, lobby_readJsonPacket_eq, broker_readJsonPacket_eq,
  lobbyHandlers_return
Open obligations: none
-/
import LobbySvr.Lobby.PacketParserJson
import LobbySvr.Proofs.MessageBufferQueue
import LobbySvr.Proofs.FrameRefinement

namespace LobbySvr.Proofs

open LobbySvr.Foundation
open LobbySvr.Net
open LobbySvr.Lobby

variable {J : Type} (parseJson : List UInt8 → Option J)

/-- The exit of a reader that has the whole text. -/
def parsedExit (url text : List UInt8) : ReadExit J :=
  match parseJson text with
  | none => .invalidJson text
  | some value => .dispatched url text value

/-- A body that is within the limit and has arrived is parsed as a whole. -/
theorem readBody_whole {maxBodySize : Nat} {bodySize : UInt16} (url : List UInt8) {msg : MessageBuffer}
    (valid : msg.Valid) (limit : bodySize.toNat ≤ maxBodySize) (positive : bodySize ≠ 0)
    (arrived : bodySize.toNat ≤ msg.bytes.length) :
    readBody parseJson maxBodySize bodySize url msg =
      parsedExit parseJson url (msg.bytes.take bodySize.toNat) := by
  obtain ⟨later, moved, -, -⟩ := MessageBuffer.read_ok valid arrived
  have accepted : ¬ (maxBodySize < bodySize.toNat ∨ bodySize = 0) := by
    rintro (long | zero)
    · exact absurd long (Nat.not_lt_of_le limit)
    · exact positive zero
  cases parsed : parseJson (msg.bytes.take bodySize.toNat) with
  | none => simp only [readBody, if_neg accepted, moved, parsedExit, parsed]
  | some value => simp only [readBody, if_neg accepted, moved, parsedExit, parsed]

/-- The body behind the head of a packet, when the head declares its length. -/
theorem readBody_declared {maxBodySize : Nat} {bodySize : UInt16} (url : List UInt8)
    {msg : MessageBuffer} (valid : msg.Valid) {body : List UInt8} (content : msg.bytes = body)
    (declared : bodySize.toNat = body.length) (positive : body ≠ [])
    (room : body.length ≤ maxBodySize) :
    readBody parseJson maxBodySize bodySize url msg = parsedExit parseJson url body := by
  have nonzero : bodySize ≠ 0 := by
    rintro rfl
    exact positive (List.length_eq_zero_iff.mp declared.symm)
  have arrived : bodySize.toNat ≤ msg.bytes.length := by
    rw [content]
    exact Nat.le_of_eq declared
  have limit : bodySize.toNat ≤ maxBodySize := by
    rw [declared]
    exact room
  rw [readBody_whole parseJson url valid limit nonzero arrived, content, declared, List.take_length]

/-- The lobby reader on a message that has a whole head. -/
theorem lobby_readJsonPacket_eq (beyond : List UInt8) {size : UInt32} {msg : MessageBuffer}
    (valid : msg.Valid) (declared : LobbyProtocol.headSize ≤ size.toNat)
    (arrived : LobbyProtocol.headSize ≤ msg.bytes.length) :
    ∃ later, later.Valid ∧ later.bytes = msg.bytes.drop LobbyProtocol.headSize ∧
      LobbyAcceptorReceiver.readJsonPacket parseJson true beyond size msg =
        .ok (readBody parseJson LobbyProtocol.maxBodySize
          (LobbyProtocol.bodySizeField (msg.bytes.take LobbyProtocol.headSize))
          (urlString (LobbyProtocol.urlField (msg.bytes.take LobbyProtocol.headSize)) beyond) later) := by
  obtain ⟨later, moved, laterValid, laterBytes⟩ := MessageBuffer.read_ok valid arrived
  refine ⟨later, laterValid, laterBytes, ?_⟩
  rw [LobbyAcceptorReceiver.readJsonPacket, if_neg (by decide), if_neg (Nat.not_lt_of_le declared),
    moved]

/-- The broker reader on a message that has a whole head. -/
theorem broker_readJsonPacket_eq (beyond : List UInt8) {msg : MessageBuffer} (valid : msg.Valid)
    (arrived : BrokerProtocol.headSize ≤ msg.bytes.length) :
    ∃ later, later.Valid ∧ later.bytes = msg.bytes.drop BrokerProtocol.headSize ∧
      BrokerConnector.readJsonPacket parseJson beyond msg =
        .ok (readBody parseJson BrokerProtocol.maxBodySize
          (BrokerProtocol.bodySizeField (msg.bytes.take BrokerProtocol.headSize))
          (urlString (BrokerProtocol.urlField (msg.bytes.take BrokerProtocol.headSize)) beyond)
          later) := by
  obtain ⟨later, moved, laterValid, laterBytes⟩ := MessageBuffer.read_ok valid arrived
  refine ⟨later, laterValid, laterBytes, ?_⟩
  rw [BrokerConnector.readJsonPacket, moved]

/-- The lobby reader returns on every body, whatever the connection's tag holds: a body shorter than the
    head is turned away by the size check in front of the unguarded read. -/
theorem lobby_readJsonPacket_returns (user : Bool) (beyond : List UInt8) {body : List UInt8}
    (fits : body.length ≤ MessageBuffer.maxBufferSize) :
    ∃ exit, LobbyAcceptorReceiver.readJsonPacket parseJson user beyond (UInt32.ofNat body.length)
      (.received body) = .ok exit := by
  have maxSize := MessageBuffer.maxBufferSize_eq
  have size : (UInt32.ofNat body.length).toNat = body.length := u32_ofNat_toNat (by omega)
  cases user with
  | false => exact ⟨_, rfl⟩
  | true =>
      by_cases short : body.length < LobbyProtocol.headSize
      · refine ⟨.invalidPacket, ?_⟩
        rw [LobbyAcceptorReceiver.readJsonPacket, if_neg (by decide), size, if_pos short]
      · have declared : LobbyProtocol.headSize ≤ (UInt32.ofNat body.length).toNat := by omega
        have arrived : LobbyProtocol.headSize ≤ (MessageBuffer.received body).bytes.length := by
          rw [MessageBuffer.received_bytes]
          omega
        obtain ⟨later, -, -, eq⟩ := lobby_readJsonPacket_eq parseJson beyond
          (MessageBuffer.received_valid fits) declared arrived
        exact ⟨_, eq⟩

/-- No handler behind the lobby parsers raises on a body the parsers hand on. -/
theorem lobbyHandlers_return (user : Bool) (beyond : List UInt8) (kind : LobbyHandler)
    {body : List UInt8} (fits : body.length ≤ MessageBuffer.maxBufferSize) :
    behaviourOf (lobbyHandlers parseJson user beyond) kind (UInt32.ofNat body.length) body = none := by
  cases kind with
  | heartBeat => rfl
  | readJsonPacket =>
      obtain ⟨exit, eq⟩ := lobby_readJsonPacket_returns parseJson user beyond fits
      simp only [behaviourOf, lobbyHandlers, eq]

end LobbySvr.Proofs

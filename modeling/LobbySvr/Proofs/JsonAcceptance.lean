/-
Module: LobbySvr.Proofs.JsonAcceptance
Layer: Proofs
Purpose: Which part bodies the two JSON readers accept.  Both dispatch exactly the well-formed ones, with the
  text their length field declares.  The lobby reader turns away a body that is shorter than the head; the
  broker reader has no such check, and its read of the head raises.
Imports: LobbySvr.Lobby.PacketParserJson, LobbySvr.Proofs.FrameSteps, LobbySvr.Proofs.JsonReaders
Trusted boundary: none
Main exports: HandedOn, parse_handedOn, WellFormedJson, readBody_dispatches_iff, lobby_accepts_exactly,
  BrokerReadsExactly, broker_reads_exactly_iff
Open obligations: none
-/
import LobbySvr.Lobby.PacketParserJson
import LobbySvr.Proofs.FrameSteps
import LobbySvr.Proofs.JsonReaders

namespace LobbySvr.Proofs

open LobbySvr.Foundation
open LobbySvr.Net
open LobbySvr.Spec
open LobbySvr.Lobby

/-! ### What a parser hands on -/

section

variable {κ : Type} {parser : FrameParser κ} {behaviour : Behaviour κ}

/-- A body of at most `limit` bytes is handed on as its packet code says, with its own length. -/
def HandedOn (parser : FrameParser κ) (limit : Nat) : Call κ → Prop
  | .handler kind size body =>
      parser.route (codeOf parser.codeSize body) = some kind ∧ size.toNat = body.length ∧
        body.length ≤ limit
  | .noHandler body => parser.route (codeOf parser.codeSize body) = none ∧ body.length ≤ limit

/-- The calls of a machine, before a step and behind it. -/
def CallsHandedOn (parser : FrameParser κ) (limit : Nat) (calls : List (Call κ)) : Prop :=
  ∀ call ∈ calls, HandedOn parser limit call

theorem CallsHandedOn.append {limit : Nat} {calls : List (Call κ)} {call : Call κ}
    (earlier : CallsHandedOn parser limit calls) (sound : HandedOn parser limit call) :
    CallsHandedOn parser limit (calls ++ [call]) := by
  intro other member
  rcases List.mem_append.mp member with member | member
  · exact earlier other member
  · rw [List.mem_singleton] at member
    rw [member]
    exact sound

/-- A machine that is left with sound calls, or goes on with them and no more bytes. -/
def StepHandsOn (parser : FrameParser κ) (limit : Nat) :
    LoopStep (FrameState κ) (FrameResult κ) → Prop
  | .next later => CallsHandedOn parser limit later.calls ∧ later.rest.length ≤ limit
  | .done result => CallsHandedOn parser limit result.calls

theorem handOn_handsOn {limit : Nat} {total size : UInt32} {body later : List UInt8}
    {calls : List (Call κ)} (earlier : CallsHandedOn parser limit calls)
    (length : size.toNat = body.length) (bodyFits : body.length ≤ limit)
    (restFits : later.length ≤ limit) :
    StepHandsOn parser limit (handOn parser behaviour total size body later calls) := by
  unfold handOn
  cases routed : parser.route (codeOf parser.codeSize body) with
  | none => exact earlier.append ⟨routed, bodyFits⟩
  | some kind =>
      have sound : HandedOn parser limit (.handler kind size body) := ⟨routed, length, bodyFits⟩
      cases handled : behaviour kind size body with
      | some fault =>
          simp only [handled]
          exact earlier.append sound
      | none =>
          simp only [handled]
          exact ⟨earlier.append sound, restFits⟩

theorem drop_fits {limit : Nat} {rest : List UInt8} (count : Nat) (fits : rest.length ≤ limit) :
    (rest.drop count).length ≤ limit := by
  rw [List.length_drop]
  exact Nat.le_trans (Nat.sub_le ..) fits

theorem partStep_handsOn {limit : Nat} {total : UInt32} {rest : List UInt8} {calls : List (Call κ)}
    (earlier : CallsHandedOn parser limit calls) (fits : rest.length ≤ limit) :
    StepHandsOn parser limit (partStep parser behaviour total rest calls) := by
  unfold partStep
  split
  · exact earlier
  · split
    · simp only
      split
      · exact earlier
      · rename_i enough
        have behindKey : (rest.drop sizeKey).length ≤ limit := drop_fits sizeKey fits
        have taken := List.length_take_of_le (Nat.le_of_not_lt enough)
        apply handOn_handsOn earlier
        · exact taken.symm
        · exact Nat.le_trans (List.length_take_le' ..) behindKey
        · exact drop_fits _ behindKey
    · exact earlier

theorem machineStep_handsOn {limit : Nat} {state : FrameState κ}
    (earlier : CallsHandedOn parser limit state.calls) (fits : state.rest.length ≤ limit) :
    StepHandsOn parser limit (machineStep parser behaviour state) := by
  unfold machineStep
  split
  · exact partStep_handsOn earlier fits
  · split
    · exact earlier
    · split
      · simp only
        split
        · exact earlier
        · exact partStep_handsOn earlier (drop_fits sizeKey fits)
      · exact earlier

theorem runMachine_handsOn {limit : Nat} {state : FrameState κ}
    (earlier : CallsHandedOn parser limit state.calls) (fits : state.rest.length ≤ limit) :
    CallsHandedOn parser limit (runMachine parser behaviour state).calls := by
  refine loop_rule machineStep_decreases
    (motive := fun state result => CallsHandedOn parser limit state.calls →
      state.rest.length ≤ limit → CallsHandedOn parser limit result.calls) ?_ ?_ state earlier fits
  · intro state result iteration earlier fits
    have step : StepHandsOn parser limit (machineStep parser behaviour state) :=
      machineStep_handsOn earlier fits
    rw [iteration] at step
    exact step
  · intro state later iteration inductionHypothesis earlier fits
    have step : StepHandsOn parser limit (machineStep parser behaviour state) :=
      machineStep_handsOn earlier fits
    rw [iteration] at step
    exact inductionHypothesis step.1 step.2

/-- A parser hands on bodies that fit a message, each with its own length. -/
theorem parse_handedOn (parser : FrameParser κ) (handlers : Handlers κ) {msg : MessageBuffer}
    (valid : msg.Valid) :
    CallsHandedOn parser MessageBuffer.maxBufferSize (parse parser handlers msg).calls := by
  have fits : msg.bytes.length ≤ MessageBuffer.maxBufferSize := by
    rw [MessageBuffer.bytes_length]
    exact valid.size_le
  rw [(parse_refines parser handlers valid).calls]
  apply runMachine_handsOn
  · intro call member
    cases member
  · exact fits

end

/-! ### Well-formed packets -/

section

variable {J : Type} (parseJson : List UInt8 → Option J)

/-- The text that a packet with a head of `headSize` bytes declares. -/
def declaredText (headSize : Nat) (bodySize : UInt16) (packet : List UInt8) : List UInt8 :=
  (packet.drop headSize).take bodySize.toNat

/-- A whole head, a length within the limits, the bytes it declares, and JSON in them. -/
structure WellFormedJson (headSize maxBodySize : Nat) (bodySize : UInt16) (packet : List UInt8) : Prop where
  head : headSize ≤ packet.length
  positive : 1 ≤ bodySize.toNat
  limit : bodySize.toNat ≤ maxBodySize
  arrived : headSize + bodySize.toNat ≤ packet.length
  parses : ∃ value, parseJson (declaredText headSize bodySize packet) = some value

/-- `dispatch` is called with what has been parsed from `text`. -/
def Dispatches (exit : ReadExit J) (text : List UInt8) : Prop :=
  ∃ url value, exit = .dispatched url text value

theorem readBody_dispatches_iff {maxBodySize : Nat} {bodySize : UInt16} (url : List UInt8)
    {msg : MessageBuffer} (valid : msg.Valid) (text : List UInt8) :
    Dispatches (readBody parseJson maxBodySize bodySize url msg) text ↔
      1 ≤ bodySize.toNat ∧ bodySize.toNat ≤ maxBodySize ∧ bodySize.toNat ≤ msg.bytes.length ∧
        text = msg.bytes.take bodySize.toNat ∧ ∃ value, parseJson text = some value := by
  by_cases refused : maxBodySize < bodySize.toNat ∨ bodySize = 0
  · constructor
    · rintro ⟨_, _, exit⟩
      rw [readBody, if_pos refused] at exit
      cases exit
    · rintro ⟨positive, limit, -⟩
      rcases refused with long | rfl
      · exact absurd limit (Nat.not_le_of_lt long)
      · exact absurd positive (by decide)
  · obtain ⟨short, nonzero⟩ := not_or.mp refused
    have positive : 1 ≤ bodySize.toNat := by
      apply Nat.pos_of_ne_zero
      intro zero
      exact nonzero (UInt16.toNat_inj.mp zero)
    by_cases arrived : bodySize.toNat ≤ msg.bytes.length
    · rw [readBody_whole parseJson url valid (Nat.le_of_not_lt short) nonzero arrived, parsedExit]
      constructor
      · rintro ⟨_, value, exit⟩
        split at exit
        · cases exit
        · rename_i parsed
          cases exit
          exact ⟨positive, Nat.le_of_not_lt short, arrived, rfl, value, parsed⟩
      · rintro ⟨-, -, -, rfl, value, parsed⟩
        rw [parsed]
        exact ⟨url, value, rfl⟩
    · have missing : msg.bytes.length < bodySize.toNat := Nat.lt_of_not_le arrived
      have small : bodySize.toNat < pointerRange := by
        have range := bodySize.toNat_lt
        have pointers : pointerRange = 9223372036854775808 := rfl
        omega
      constructor
      · rintro ⟨_, _, exit⟩
        rw [readBody, if_neg refused, MessageBuffer.read_short valid.ordered missing small] at exit
        cases exit
      · rintro ⟨-, -, whole, -⟩
        exact absurd whole arrived

theorem readBody_ne_invalidPacket (maxBodySize : Nat) (bodySize : UInt16) (url : List UInt8)
    (msg : MessageBuffer) : readBody parseJson maxBodySize bodySize url msg ≠ .invalidPacket := by
  unfold readBody
  split
  · simp
  · split
    · simp
    · split
      · simp
      · simp

/-- A reader that has a whole head in front of it. -/
theorem readBody_accepts_iff {headSize maxBodySize : Nat} {bodySize : UInt16} (url : List UInt8)
    {packet : List UInt8} {later : MessageBuffer} (head : headSize ≤ packet.length) (valid : later.Valid)
    (behind : later.bytes = packet.drop headSize) (text : List UInt8) :
    Dispatches (readBody parseJson maxBodySize bodySize url later) text ↔
      WellFormedJson parseJson headSize maxBodySize bodySize packet ∧
        text = declaredText headSize bodySize packet := by
  have room : (packet.drop headSize).length = packet.length - headSize := List.length_drop
  rw [readBody_dispatches_iff parseJson url valid, behind]
  constructor
  · rintro ⟨positive, limit, arrived, rfl, parses⟩
    exact ⟨⟨head, positive, limit, by omega, parses⟩, rfl⟩
  · rintro ⟨wellFormed, rfl⟩
    have arrived := wellFormed.arrived
    exact ⟨wellFormed.positive, wellFormed.limit, by omega, rfl, wellFormed.parses⟩

/-! ### The lobby reader -/

/-- The lobby reader on a body together with its own length: it dispatches the well-formed packets, and
    takes the exit that closes the connection when the head is not there. -/
theorem lobby_reader_exits (beyond : List UInt8) {size : UInt32} {body : List UInt8}
    (declared : size.toNat = body.length) (fits : body.length ≤ MessageBuffer.maxBufferSize) :
    ∃ exit, LobbyAcceptorReceiver.readJsonPacket parseJson true beyond size (.received body) = .ok exit ∧
      (∀ text, Dispatches exit text ↔
        WellFormedJson parseJson LobbyProtocol.headSize LobbyProtocol.maxBodySize
            (LobbyProtocol.bodySizeField body) body ∧
          text = declaredText LobbyProtocol.headSize (LobbyProtocol.bodySizeField body) body) ∧
      (exit = .invalidPacket ↔ body.length < LobbyProtocol.headSize) := by
  by_cases short : body.length < LobbyProtocol.headSize
  · refine ⟨.invalidPacket, ?_, ?_, ?_⟩
    · rw [LobbyAcceptorReceiver.readJsonPacket, if_neg (by decide), declared, if_pos short]
    · intro text
      constructor
      · rintro ⟨_, _, exit⟩
        cases exit
      · rintro ⟨wellFormed, -⟩
        exact absurd wellFormed.head (Nat.not_le_of_lt short)
    · exact ⟨fun _ => short, fun _ => rfl⟩
  · have head : LobbyProtocol.headSize ≤ body.length := Nat.le_of_not_lt short
    have content := MessageBuffer.received_bytes body
    obtain ⟨later, laterValid, laterBytes, eq⟩ := lobby_readJsonPacket_eq parseJson beyond
      (MessageBuffer.received_valid fits) (by rw [declared]; exact head) (by rw [content]; exact head)
    rw [content] at laterBytes
    rw [content, LobbyProtocol.bodySizeField_take] at eq
    refine ⟨_, eq, ?_, ?_⟩
    · intro text
      exact readBody_accepts_iff parseJson _ head laterValid laterBytes text
    · constructor
      · intro exit
        exact absurd exit (readBody_ne_invalidPacket parseJson _ _ _ _)
      · intro tooShort
        exact absurd tooShort short

/-- A packet that the client-facing parser hands to the lobby reader, with a user on the connection: it is
    dispatched exactly when it is well formed, with the text it declares, and the connection is closed
    exactly when its head is not whole.  The reader returns, so no store has missed its struct. -/
theorem lobby_accepts_exactly (handlers : Handlers LobbyHandler) (req : Nat → UInt8)
    (beyond : List UInt8) {msg : MessageBuffer} (valid : msg.Valid) {size : UInt32} {body : List UInt8}
    (called : .handler .readJsonPacket size body ∈ (parse packetParserNotUseEncTest handlers msg).calls) :
    ∃ read, LobbyAcceptorReceiver.readJsonPacketInto parseJson true req beyond size (.received body) =
        .ok read ∧
      (∀ text, Dispatches read.exit text ↔
        WellFormedJson parseJson LobbyProtocol.headSize LobbyProtocol.maxBodySize
            (LobbyProtocol.bodySizeField body) body ∧
          text = declaredText LobbyProtocol.headSize (LobbyProtocol.bodySizeField body) body) ∧
      read.closeReserves = if body.length < LobbyProtocol.headSize then [0] else [] := by
  obtain ⟨-, declared, fits⟩ := parse_handedOn packetParserNotUseEncTest handlers valid _ called
  obtain ⟨exit, reads, dispatches, closes⟩ := lobby_reader_exits parseJson beyond declared fits
  refine ⟨.ofExit exit, ?_, dispatches, ?_⟩
  · rw [readJsonPacketInto_eq, reads]
    rfl
  · by_cases short : body.length < LobbyProtocol.headSize
    · rw [closes.mpr short, if_pos short]
      rfl
    · rw [if_neg short]
      exact LobbyRead.ofExit_open (fun exit => short (closes.mp exit))

/-- A packet with the text `7` in it. -/
def digitPacket : List UInt8 :=
  [1, 0, 0, 0, 0, 0] ++ (47 :: List.replicate 31 0) ++ [1, 0, 55]

/-- The text `7` is dispatched, and the connection stays open. -/
theorem lobby_accepts_exactly_digit :
    ∃ read, LobbyAcceptorReceiver.readJsonPacketInto (fun _ => some ()) true (fun _ => 0) [] 41
        (.received digitPacket) = .ok read ∧
      Dispatches read.exit [55] ∧ read.closeReserves = [] := by
  have called : .handler .readJsonPacket 41 digitPacket ∈ (parse packetParserNotUseEncTest
      (lobbyHandlers (fun _ => some ()) true [])
      (.received ([45, 0, 0, 0, 41, 0, 0, 0] ++ digitPacket))).calls := by decide
  obtain ⟨read, reads, dispatches, closes⟩ := lobby_accepts_exactly (fun _ => some ())
    (lobbyHandlers (fun _ => some ()) true []) (fun _ => 0) []
    (MessageBuffer.received_valid (by decide)) called
  refine ⟨read, reads, (dispatches [55]).mpr ⟨⟨by decide, by decide, by decide, by decide, (), rfl⟩,
    by decide⟩, closes⟩

/-! ### The broker reader -/

/-- The broker reader, on a body that `packetParser_brokerTest` hands to it, returns, and dispatches exactly
    the well-formed packets. -/
def BrokerReadsExactly (beyond body : List UInt8) : Prop :=
  packetParserBrokerTest.route (packetCode packetParserBrokerTest.codeSize (.received body)) =
      some .readJsonPacket →
    ∃ exit, BrokerConnector.readJsonPacket parseJson beyond (.received body) = .ok exit ∧
      ∀ text, Dispatches exit text ↔
        WellFormedJson parseJson BrokerProtocol.headSize BrokerProtocol.maxBodySize
            (BrokerProtocol.bodySizeField body) body ∧
          text = declaredText BrokerProtocol.headSize (BrokerProtocol.bodySizeField body) body

/-- The read of the head is not guarded. -/
theorem broker_reader_raises (beyond : List UInt8) {body : List UInt8}
    (short : body.length < BrokerProtocol.headSize) :
    BrokerConnector.readJsonPacket parseJson beyond (.received body) =
      .error (.runtimeError MessageBuffer.cantReadableText) := by
  have limit : BrokerProtocol.headSize = 38 := rfl
  have maxSize := MessageBuffer.maxBufferSize_eq
  have missing : (MessageBuffer.received body).bytes.length < BrokerProtocol.headSize := by
    rw [MessageBuffer.received_bytes]
    exact short
  rw [BrokerConnector.readJsonPacket,
    MessageBuffer.read_short (MessageBuffer.received_valid (by omega)).ordered missing (by decide)]

/-- The broker reader does its work exactly on the bodies that are as long as the head. -/
theorem broker_reads_exactly_iff (beyond : List UInt8) {body : List UInt8}
    (fits : body.length ≤ MessageBuffer.maxBufferSize) :
    BrokerReadsExactly parseJson beyond body ↔
      (packetParserBrokerTest.route (packetCode packetParserBrokerTest.codeSize (.received body)) =
          some .readJsonPacket →
        38 ≤ body.length) := by
  constructor
  · intro holds routed
    apply Nat.le_of_not_lt
    intro short
    obtain ⟨exit, reads, -⟩ := holds routed
    rw [broker_reader_raises parseJson beyond short] at reads
    cases reads
  · intro whole routed
    have head : BrokerProtocol.headSize ≤ body.length := whole routed
    have content := MessageBuffer.received_bytes body
    obtain ⟨later, laterValid, laterBytes, eq⟩ := broker_readJsonPacket_eq parseJson beyond
      (MessageBuffer.received_valid fits) (by rw [content]; exact head)
    rw [content] at laterBytes
    rw [content, BrokerProtocol.bodySizeField_take] at eq
    exact ⟨_, eq, fun text => readBody_accepts_iff parseJson _ head laterValid laterBytes text⟩

end

/-- A packet whose body is its code and nothing more: the exception leaves the reader and the parser. -/
theorem short_packet_raises :
    ¬ BrokerReadsExactly (fun _ => some ()) [] [1, 0, 0, 0] ∧
      (parse packetParserBrokerTest (brokerHandlers (fun _ => some ()) [])
        (.received [8, 0, 0, 0, 4, 0, 0, 0, 1, 0, 0, 0])).ending =
        .raised (.runtimeError "buffer can't readable in MessageBuffer") := by
  refine ⟨?_, by decide⟩
  intro holds
  obtain ⟨exit, reads, -⟩ := holds (by decide)
  rw [broker_reader_raises (fun _ => some ()) [] (by decide)] at reads
  cases reads

/-- The condition at work on a body that is only a code, and on one with a code the parser does not know. -/
theorem broker_reads_exactly_iff_code :
    ¬ BrokerReadsExactly (fun _ => some ()) [] [1, 0, 0, 0] ∧
      BrokerReadsExactly (fun _ => some ()) [] [2, 0, 0, 0] := by
  constructor
  · rw [broker_reads_exactly_iff (fun _ => some ()) [] (by decide)]
    decide
  · rw [broker_reads_exactly_iff (fun _ => some ()) [] (by decide)]
    decide

end LobbySvr.Proofs

/-
Module: LobbySvr.Proofs.FrameRoundTrip
Layer: Proofs
Purpose: Framing round trip.  A parser run on the encoding of a list of packets hands every part body to the
  handler of its code, in order and once, and leaves nothing.  Inside a packet the counter is always four
  more than the encoded size of the parts still to come; that is the invariant that keeps the end-of-packet
  test from firing early or late.
Imports: LobbySvr.Spec.FrameCodec, LobbySvr.Proofs.FrameSteps, LobbySvr.Proofs.FrameRefinement,
  LobbySvr.Proofs.JsonReaders, LobbySvr.Net.SendPacket, LobbySvr.Lobby.PacketParserJson
Trusted boundary: none
Main exports: Deliverable, callFor, runMachine_parts, runMachine_packet, runMachine_unrecognised,
  runMachine_stream, parse_stream, sendPacketFrame_ok, sendPacketFrame_plain, sendPacketFrame_masked, RoundTrips, framing_roundTrips
Open obligations: none
-/
import LobbySvr.Spec.FrameCodec
import LobbySvr.Proofs.FrameSteps
import LobbySvr.Proofs.FrameRefinement
import LobbySvr.Proofs.JsonReaders
import LobbySvr.Net.SendPacket
import LobbySvr.Lobby.PacketParserJson
import Mathlib.Data.List.Forall2

namespace LobbySvr.Proofs

open LobbySvr.Foundation
open LobbySvr.Net
open LobbySvr.Spec
open LobbySvr.Lobby

variable {κ : Type} {parser : FrameParser κ} {behaviour : Behaviour κ}

/-- The call a parser makes for a part body. -/
def callFor (parser : FrameParser κ) (body : List UInt8) : Call κ :=
  match parser.route (codeOf parser.codeSize body) with
  | some kind => .handler kind (UInt32.ofNat body.length) body
  | none => .noHandler body

/-- The body carries a code that has a handler, and the handler returns. -/
def Deliverable (parser : FrameParser κ) (behaviour : Behaviour κ) (body : List UInt8) : Prop :=
  ∃ kind, parser.route (codeOf parser.codeSize body) = some kind ∧
    behaviour kind (UInt32.ofNat body.length) body = none

/-- The body carries a code the parser recognises. -/
def Recognised (parser : FrameParser κ) (body : List UInt8) : Prop :=
  parser.route (codeOf parser.codeSize body) ≠ none

/-- The counter behind a part: what is left of the packet, and the key more. -/
theorem counter_after_part (bodyLength left : Nat) :
    UInt32.ofNat (4 + bodyLength + left + 4) - (UInt32.ofNat bodyLength + 4) =
      UInt32.ofNat (left + 4) := by
  have four : (4 : UInt32) = UInt32.ofNat 4 := rfl
  rw [four, ← UInt32.ofNat_add]
  have sum : 4 + bodyLength + left + 4 = (left + 4) + (bodyLength + 4) := by omega
  rw [sum, UInt32.ofNat_add (left + 4), UInt32.add_sub_cancel]

theorem counter_ne_four {left : Nat} (more : 4 ≤ left) (small : left + 4 < 2 ^ 32) :
    UInt32.ofNat (left + 4) ≠ 4 := by
  intro four
  have value := congrArg UInt32.toNat four
  rw [u32_ofNat_toNat small] at value
  have : (4 : UInt32).toNat = 4 := rfl
  omega

/-- An encoded part is one the machine takes. -/
theorem takesPart_encode {codec : KeyCodec} (keys : parser.keys = codec.keys) {body : List UInt8}
    {kind : κ} (small : body.length < 2 ^ 16)
    (routed : parser.route (codeOf parser.codeSize body) = some kind)
    (returns : behaviour kind (UInt32.ofNat body.length) body = none) :
    TakesPart parser behaviour (u32Bytes (codec.partKey body.length)) body kind where
  keyLength := u32Bytes_length _
  keyOk := by rw [keys, u32Of_u32Bytes, codec.partKeyOk small]
  bodyLength := by
    rw [keys, u32Of_u32Bytes, codec.partLength small, u32_ofNat_toNat (by omega)]
  routed := routed
  returns := by rw [keys, u32Of_u32Bytes, codec.partLength small, returns]

/-- The parts of a packet, from inside it. -/
theorem runMachine_parts {codec : KeyCodec} (keys : parser.keys = codec.keys)
    (later : List UInt8) :
    ∀ (parts : List (List UInt8)) (calls : List (Call κ)), parts ≠ [] →
      partsSize parts < 2 ^ 16 → (∀ body ∈ parts, Deliverable parser behaviour body) →
      runMachine parser behaviour
          ⟨some (UInt32.ofNat (partsSize parts + 4)), parts.flatMap (encodePart codec) ++ later, calls⟩ =
        runMachine parser behaviour ⟨none, later, calls ++ parts.map (callFor parser)⟩
  | [], _, nonempty, _, _ => absurd rfl nonempty
  | body :: parts, calls, _, small, deliverable => by
      obtain ⟨kind, routed, returns⟩ := deliverable body (List.mem_cons_self ..)
      rw [partsSize_cons] at small ⊢
      have call : callFor parser body = .handler kind (UInt32.ofNat body.length) body := by
        simp only [callFor, routed]
      have stream : (body :: parts).flatMap (encodePart codec) ++ later =
          u32Bytes (codec.partKey body.length) ++
            (body ++ (parts.flatMap (encodePart codec) ++ later)) := by
        simp [encodePart]
      have bodySmall : body.length < 2 ^ 16 := by omega
      have part : TakesPart parser behaviour (u32Bytes (codec.partKey body.length)) body kind :=
        takesPart_encode keys bodySmall routed returns
      have size : parser.keys.partLength (u32Of (u32Bytes (codec.partKey body.length))) =
          UInt32.ofNat body.length := by
        rw [keys, u32Of_u32Bytes, codec.partLength bodySmall]
      rw [stream, runMachine_next (machineStep_of_part part _ _ _), afterPart, size,
        counter_after_part, ← call]
      cases parts with
      | nil => simp
      | cons next parts =>
          -- There is a part to come, so the counter is above four and the machine stays inside.
          have more : 4 ≤ partsSize (next :: parts) := partsSize_ge (List.cons_ne_nil _ _)
          rw [if_neg (counter_ne_four more (by omega)),
            runMachine_parts keys later (next :: parts) _ (List.cons_ne_nil _ _) (by omega)
              (fun body member => deliverable body (List.mem_cons_of_mem _ member))]
          simp

/-- The counter a parser starts an encoded packet with. -/
theorem mainLength_encode {codec : KeyCodec} (keys : parser.keys = codec.keys)
    {parts : List (List UInt8)} (small : partsSize parts < 2 ^ 16) :
    parser.keys.mainLength (u32Of (u32Bytes (codec.mainKey (partsSize parts)))) + 4 =
      UInt32.ofNat (partsSize parts + 4) := by
  rw [keys, u32Of_u32Bytes, codec.mainLength small, UInt32.ofNat_add]
  rfl

/-- An encoded packet is one the machine opens. -/
theorem opensPacket_encode {codec : KeyCodec} (keys : parser.keys = codec.keys)
    {parts : List (List UInt8)} (nonempty : parts ≠ []) (small : partsSize parts < 2 ^ 16)
    (later : List UInt8) :
    OpensPacket parser (u32Bytes (codec.mainKey (partsSize parts)))
      (parts.flatMap (encodePart codec) ++ later) := by
  have behind : (parts.flatMap (encodePart codec) ++ later).length = partsSize parts + later.length := by
    rw [List.length_append, flatMap_encodePart_length]
  refine ⟨u32Bytes_length _, ?_, ?_, ?_⟩
  · rw [keys, u32Of_u32Bytes, codec.mainKeyOk small]
  · have := partsSize_ge nonempty
    rw [behind, sizeKey]
    omega
  · rw [mainLength_encode keys small, u32_ofNat_toNat (by omega), List.length_append, behind,
      u32Bytes_length]
    omega

/-- A whole packet, from between packets. -/
theorem runMachine_packet {codec : KeyCodec} (keys : parser.keys = codec.keys)
    {parts : List (List UInt8)} (nonempty : parts ≠ []) (small : partsSize parts < 2 ^ 16)
    (deliverable : ∀ body ∈ parts, Deliverable parser behaviour body)
    (later : List UInt8) (calls : List (Call κ)) :
    runMachine parser behaviour ⟨none, encodePacket codec parts ++ later, calls⟩ =
      runMachine parser behaviour ⟨none, later, calls ++ parts.map (callFor parser)⟩ := by
  have opens := opensPacket_encode keys nonempty small later
  rw [encodePacket, List.append_assoc, runMachine_open opens, mainLength_encode keys small,
    runMachine_parts keys later parts calls nonempty small deliverable]

/-- A packet of one part whose code has no handler ends the run. -/
theorem runMachine_unrecognised {codec : KeyCodec} (keys : parser.keys = codec.keys)
    {body : List UInt8} (small : partsSize [body] < 2 ^ 16) (unknown : ¬ Recognised parser body)
    (later : List UInt8) (calls : List (Call κ)) :
    runMachine parser behaviour ⟨none, encodePacket codec [body] ++ later, calls⟩ =
      ⟨.returned false, [], calls ++ [.noHandler body]⟩ := by
  have opens := opensPacket_encode keys (List.cons_ne_nil body []) small later
  have unrouted : parser.route (codeOf parser.codeSize body) = none := not_not.mp unknown
  rw [partsSize_cons, partsSize_nil] at small
  have bodySmall : body.length < 2 ^ 16 := by omega
  have keyOk : parser.keys.partKeyOk (u32Of (u32Bytes (codec.partKey body.length))) = true := by
    rw [keys, u32Of_u32Bytes, codec.partKeyOk bodySmall]
  have length : body.length =
      (parser.keys.partLength (u32Of (u32Bytes (codec.partKey body.length)))).toNat := by
    rw [keys, u32Of_u32Bytes, codec.partLength bodySmall, u32_ofNat_toNat (by omega)]
  have part : [body].flatMap (encodePart codec) ++ later =
      u32Bytes (codec.partKey body.length) ++ (body ++ later) := by
    simp [encodePart]
  rw [encodePacket, List.append_assoc, runMachine_open opens, part]
  apply runMachine_done
  rw [machineStep]
  change partStep parser behaviour _ _ calls = _
  rw [partStep_eq_handOn (u32Bytes_length _) keyOk length, handOn, unrouted]

/-- Well-formed packets of a stream: each has a part, and every part can be delivered. -/
def WellFormed (parser : FrameParser κ) (behaviour : Behaviour κ)
    (packets : List (List (List UInt8))) : Prop :=
  ∀ parts ∈ packets, parts ≠ [] ∧ ∀ body ∈ parts, Deliverable parser behaviour body

/-- A stream of packets in front of anything else. -/
theorem runMachine_stream {codec : KeyCodec} (keys : parser.keys = codec.keys) (later : List UInt8)
    (packets : List (List (List UInt8))) (calls : List (Call κ))
    (small : (encodeStream codec packets).length ≤ 2 ^ 16)
    (wellFormed : WellFormed parser behaviour packets) :
    runMachine parser behaviour ⟨none, encodeStream codec packets ++ later, calls⟩ =
      runMachine parser behaviour ⟨none, later, calls ++ packets.flatten.map (callFor parser)⟩ := by
  induction packets generalizing calls with
  | nil => simp
  | cons parts packets inductionHypothesis =>
      obtain ⟨nonempty, deliverable⟩ := wellFormed parts (List.mem_cons_self ..)
      rw [encodeStream_cons, List.length_append, encodePacket_length] at small
      rw [encodeStream_cons, List.append_assoc,
        runMachine_packet keys nonempty (by omega) deliverable,
        inductionHypothesis _ (by omega)
          (fun parts member => wellFormed parts (List.mem_cons_of_mem _ member))]
      simp

/-- The parser on a buffer that holds an encoded stream and nothing else. -/
theorem parse_stream {codec : KeyCodec} (keys : parser.keys = codec.keys) {handlers : Handlers κ}
    {msg : MessageBuffer} (valid : msg.Valid) {packets : List (List (List UInt8))}
    (content : msg.bytes = encodeStream codec packets)
    (wellFormed : WellFormed parser (behaviourOf handlers) packets) :
    (parse parser handlers msg).ending = .returned true ∧
      (parse parser handlers msg).msg.bytes = [] ∧
      (parse parser handlers msg).calls = packets.flatten.map (callFor parser) := by
  have small : (encodeStream codec packets).length ≤ 2 ^ 16 := by
    have := valid.size_le
    have := MessageBuffer.maxBufferSize_eq
    rw [← content, MessageBuffer.bytes_length]
    omega
  have run : runFrames parser (behaviourOf handlers) msg.bytes =
      ⟨.returned true, [], packets.flatten.map (callFor parser)⟩ := by
    have stream := runMachine_stream keys [] packets [] small wellFormed
    rw [List.append_nil, List.nil_append] at stream
    rw [runFrames, content, stream]
    exact runMachine_done rfl
  have related := parse_refines parser handlers valid
  rw [run] at related
  exact ⟨related.ending, related.bytes, related.calls⟩

/-! ### What `sendPacket` puts on the wire -/

/-- `sendPacket` writes the header the manipulator makes for the whole message, and the payload. -/
theorem sendPacketFrame_ok {manip : MsgUserManip} {body : List UInt8}
    (headerLength : ∀ currentSize, (manip.facilitate currentSize).length = manip.getHeaderSize)
    (fits : manip.getHeaderSize + body.length ≤ MessageBuffer.maxBufferSize) :
    sendPacketFrame manip body = .ok (manip.facilitate (manip.getHeaderSize + body.length) ++ body) := by
  have emptyValid : ({ MessageBuffer.empty with manip := some manip } : MessageBuffer).Valid :=
    ⟨Nat.le_refl _, Nat.zero_le _⟩
  have opened : MessageBuffer.withHeader manip =
      .ok { MessageBuffer.empty with manip := some manip, writePos := 0 + manip.getHeaderSize } := by
    refine MessageBuffer.writeCount_ok emptyValid ?_
    change 0 + manip.getHeaderSize ≤ MessageBuffer.maxBufferSize
    omega
  have openedValid : ({ MessageBuffer.empty with
      manip := some manip, writePos := 0 + manip.getHeaderSize } : MessageBuffer).Valid :=
    ⟨Nat.zero_le _, by change 0 + manip.getHeaderSize ≤ MessageBuffer.maxBufferSize; omega⟩
  have room : 0 + manip.getHeaderSize + body.length ≤ MessageBuffer.maxBufferSize := by omega
  obtain ⟨msg, written, _, content⟩ := MessageBuffer.write_ok openedValid room
  have attached : msg.manip = some manip := MessageBuffer.write_manip written
  have size : msg.size = manip.getHeaderSize + body.length := by
    rw [← MessageBuffer.bytes_length, content, List.length_append, MessageBuffer.bytes_length]
    simp [MessageBuffer.size, MessageBuffer.empty]
  have replaced := MessageBuffer.facilitate_bytes attached content (by
    rw [headerLength, MessageBuffer.bytes_length]
    simp [MessageBuffer.size, MessageBuffer.empty])
  rw [sendPacketFrame, opened]
  simp only [written, sendFrame, replaced, size]

theorem headerBytes_length (mainKey partKey : UInt32) : (headerBytes mainKey partKey).length = 8 := by
  simp [headerBytes]

/-- The size a manipulator takes for the body is the size of the body. -/
theorem bodySizeOf_eq (bodyLength : Nat) :
    bodySizeOf (sizeHeader + bodyLength) = UInt32.ofNat bodyLength := by
  have eight : (8 : UInt32) = UInt32.ofNat 8 := rfl
  rw [bodySizeOf, sizeHeader, Nat.add_comm, UInt32.ofNat_add, eight, UInt32.add_sub_cancel]

/-- The main key of a message with one part. -/
theorem partKeySize_add (bodyLength : Nat) :
    partKeySize + UInt32.ofNat bodyLength = UInt32.ofNat (4 + bodyLength) := by
  rw [UInt32.ofNat_add]
  rfl

/-- A packet of one part in the plain format is what the `Test` manipulator sends. -/
theorem sendPacketFrame_plain {body : List UInt8}
    (fits : sizeHeader + body.length ≤ MessageBuffer.maxBufferSize) :
    sendPacketFrame manipulatorJsonParserTest body = .ok (encodePacket plainCodec [body]) := by
  rw [sendPacketFrame_ok (fun _ => headerBytes_length _ _) fits]
  change Except.ok (headerBytes (partKeySize + bodySizeOf (sizeHeader + body.length))
    (bodySizeOf (sizeHeader + body.length)) ++ body) = _
  rw [bodySizeOf_eq, partKeySize_add]
  simp [headerBytes, encodePacket, encodePart, plainCodec]

/-- A packet of one part in the masked format is what the simple manipulator sends. -/
theorem sendPacketFrame_masked {body : List UInt8}
    (fits : sizeHeader + body.length ≤ MessageBuffer.maxBufferSize) :
    sendPacketFrame manipulatorSimpleParser body = .ok (encodePacket maskedCodec [body]) := by
  rw [sendPacketFrame_ok (fun _ => headerBytes_length _ _) fits]
  change Except.ok (headerBytes (keyMakeKey mainKeyTag (partKeySize + bodySizeOf (sizeHeader + body.length)))
    (keyMakeKey partKeyTag (bodySizeOf (sizeHeader + body.length))) ++ body) = _
  rw [bodySizeOf_eq, partKeySize_add]
  simp [headerBytes, encodePacket, encodePart, maskedCodec]

/-! ### The round trip of the two formats -/

/-- The call hands the body to the handler of its code, with the body's length as the size. -/
def Delivers (parser : FrameParser κ) (call : Call κ) (body : List UInt8) : Prop :=
  ∃ kind size, parser.route (codeOf parser.codeSize body) = some kind ∧
    call = .handler kind size body ∧ size.toNat = body.length

/-- Every packet has a part, and every part a code the parser recognises. -/
def AllRecognised (parser : FrameParser κ) (packets : List (List (List UInt8))) : Prop :=
  ∀ parts ∈ packets, parts ≠ [] ∧ ∀ body ∈ parts, Recognised parser body

/-- The parser undoes the encoding, and `sendPacket` with the manipulator makes the encoding of one part. -/
structure RoundTrips (parser : FrameParser κ) (handlers : Handlers κ) (codec : KeyCodec)
    (manip : MsgUserManip) : Prop where
  sent : ∀ body : List UInt8, sizeHeader + body.length ≤ MessageBuffer.maxBufferSize →
    sendPacketFrame manip body = .ok (encodePacket codec [body])
  parsed : ∀ (msg : MessageBuffer) (packets : List (List (List UInt8))), msg.Valid →
    msg.bytes = encodeStream codec packets → AllRecognised parser packets →
    (parse parser handlers msg).ending = .returned true ∧
      (parse parser handlers msg).msg.bytes = [] ∧
      List.Forall₂ (Delivers parser) (parse parser handlers msg).calls packets.flatten

/-- A part of a stream is no longer than the stream. -/
theorem body_length_le (codec : KeyCodec) {packets : List (List (List UInt8))} {body : List UInt8}
    (member : body ∈ packets.flatten) : body.length ≤ (encodeStream codec packets).length := by
  obtain ⟨parts, packet, part⟩ := List.mem_flatten.mp member
  have inPart : body.length ≤ (encodePart codec body).length := by
    rw [encodePart_length]
    omega
  have inParts : (encodePart codec body).length ≤ (parts.flatMap (encodePart codec)).length := by
    rw [List.flatMap_def]
    exact (List.sublist_flatten_of_mem (List.mem_map_of_mem part)).length_le
  have inPacket : (parts.flatMap (encodePart codec)).length ≤ (encodePacket codec parts).length := by
    rw [encodePacket, List.length_append]
    omega
  have inStream : (encodePacket codec parts).length ≤ (encodeStream codec packets).length := by
    rw [encodeStream, List.flatMap_def]
    exact (List.sublist_flatten_of_mem (List.mem_map_of_mem packet)).length_le
  omega

/-- Handlers that return on every body a message can hold. -/
def AllReturn (behaviour : Behaviour κ) : Prop :=
  ∀ (kind : κ) (body : List UInt8), body.length ≤ MessageBuffer.maxBufferSize →
    behaviour kind (UInt32.ofNat body.length) body = none

/-- With handlers that return, recognised codes are all a stream needs. -/
theorem wellFormed_of_recognised {codec : KeyCodec} (returns : AllReturn behaviour)
    {packets : List (List (List UInt8))} (recognised : AllRecognised parser packets)
    (fits : (encodeStream codec packets).length ≤ MessageBuffer.maxBufferSize) :
    WellFormed parser behaviour packets := by
  intro parts member
  obtain ⟨nonempty, routed⟩ := recognised parts member
  refine ⟨nonempty, fun body part => ?_⟩
  obtain ⟨kind, eq⟩ := Option.ne_none_iff_exists'.mp (routed body part)
  have inStream := body_length_le codec (List.mem_flatten.mpr ⟨parts, member, part⟩)
  exact ⟨kind, eq, returns kind body (Nat.le_trans inStream fits)⟩

/-- A codec and a parser with the same keys, and handlers that return on bodies of a message. -/
theorem parse_roundTrips {codec : KeyCodec} {handlers : Handlers κ} (keys : parser.keys = codec.keys)
    (returns : AllReturn (behaviourOf handlers)) {msg : MessageBuffer}
    {packets : List (List (List UInt8))} (valid : msg.Valid)
    (content : msg.bytes = encodeStream codec packets) (recognised : AllRecognised parser packets) :
    (parse parser handlers msg).ending = .returned true ∧
      (parse parser handlers msg).msg.bytes = [] ∧
      List.Forall₂ (Delivers parser) (parse parser handlers msg).calls packets.flatten := by
  have fits : (encodeStream codec packets).length ≤ MessageBuffer.maxBufferSize := by
    rw [← content, MessageBuffer.bytes_length]
    exact valid.size_le
  have wellFormed := wellFormed_of_recognised returns recognised fits
  obtain ⟨ending, left, calls⟩ := parse_stream keys valid content wellFormed
  refine ⟨ending, left, ?_⟩
  rw [calls, List.forall₂_map_left_iff, List.forall₂_same]
  intro body member
  obtain ⟨parts, packet, part⟩ := List.mem_flatten.mp member
  obtain ⟨kind, routed, _⟩ := (wellFormed parts packet).2 body part
  have inStream := body_length_le codec member
  have maxSize := MessageBuffer.maxBufferSize_eq
  refine ⟨kind, UInt32.ofNat body.length, routed, ?_, u32_ofNat_toNat (by omega)⟩
  simp only [callFor, routed]

/-- Framing is undone by the parser, in the plain format of the lobby and in the masked format of the simple
    parser.  The lobby's own handlers return on every body; those registered with a simple parser are
    taken to return. -/
theorem framing_roundTrips {J η : Type} (parseJson : List UInt8 → Option J) (user : Bool)
    (beyond : List UInt8) (memberFuncMap staticFuncMap : MsgMap η)
    (handlers : Handlers (MapHandler η)) (returns : ∀ kind size msg, handlers kind size msg = none) :
    RoundTrips packetParserNotUseEncTest (lobbyHandlers parseJson user beyond) plainCodec
        manipulatorJsonParserTest ∧
      RoundTrips (Net.packetParserNotUseEnc memberFuncMap staticFuncMap) handlers maskedCodec
        manipulatorSimpleParser := by
  constructor
  · constructor
    · intro body fits
      exact sendPacketFrame_plain fits
    · intro msg packets valid content recognised
      refine parse_roundTrips rfl ?_ valid content recognised
      intro kind body fits
      exact lobbyHandlers_return parseJson user beyond kind fits
  · constructor
    · intro body fits
      exact sendPacketFrame_masked fits
    · intro msg packets valid content recognised
      refine parse_roundTrips rfl ?_ valid content recognised
      intro kind body _
      exact returns kind _ _

/-- Two heartbeats in one packet and one in another, in both formats. -/
theorem framing_roundTrips_heartBeats :
    (parse packetParserNotUseEncTest (lobbyHandlers (fun _ => some ()) true [])
        (.received [11, 0, 0, 0, 1, 0, 0, 0, 3, 2, 0, 0, 0, 3, 7, 5, 0, 0, 0, 1, 0, 0, 0, 3])).ending =
        .returned true ∧
      (parse (Net.packetParserNotUseEnc (fun _ => some ()) (fun _ => none)) (fun _ _ _ => none)
        (.received [12, 0, 255, 255, 0, 0, 243, 255, 4, 0, 243, 255, 9, 0, 0, 0])).ending =
        .returned true := by
  obtain ⟨plain, masked⟩ := framing_roundTrips (fun _ => some ()) true [] (fun _ => some ())
    (fun _ => none) (fun _ _ _ => none) (fun _ _ _ => rfl)
  constructor
  · refine (plain.parsed _ [[[3], [3, 7]], [[3]]] (MessageBuffer.received_valid (by decide)) ?_ ?_).1
    · rw [MessageBuffer.received_bytes]
      decide
    · unfold AllRecognised Recognised
      decide
  · refine (masked.parsed _ [[[], [9, 0, 0, 0]]] (MessageBuffer.received_valid (by decide)) ?_ ?_).1
    · rw [MessageBuffer.received_bytes]
      decide
    · unfold AllRecognised Recognised
      decide

end LobbySvr.Proofs

/-
Module: LobbySvr.Proofs.WireVariants
Layer: Proofs
Purpose: The two lobby wire variants side by side.  The same packets are framed once with masked and once
  with plain keys and given to the parser of each variant.  The plain parser takes one byte for the packet
  code, the masked one four, so the masked one sees the low bytes of the sequence number in the code: the
  variants agree exactly on lists of JSON packets whose sequence number has its low three bytes zero.
Imports: LobbySvr.Proofs.FrameRoundTrip, LobbySvr.Proofs.JsonPackets
Trusted boundary: none
Main exports: LobbyPacket, frameAll, SameOutcome, LobbyPacket.CodeFitsBoth, wire_variants_agree_iff
Open obligations: none
-/
import LobbySvr.Proofs.FrameRoundTrip
import LobbySvr.Proofs.JsonPackets

namespace LobbySvr.Proofs

open LobbySvr.Foundation
open LobbySvr.Net
open LobbySvr.Spec
open LobbySvr.Lobby

/-! ### Lobby packets -/

/-- A `PT_JSON` as a sender leaves it: its own code, a URL field of full width, and a declared body. -/
structure JsonPacket where
  pk : LobbyProtocol.PtJson
  code : pk.code = LobbyProtocol.jsonPacketValue
  urlField : pk.url.length = maxUrlString
  positive : 0 < pk.bodySize.toNat
  room : pk.bodySize.toNat ≤ LobbyProtocol.maxBodySize

/-- The packets of the lobby protocol that the parsers know. -/
inductive LobbyPacket where
  | json (packet : JsonPacket)
  | heartBeat

/-- The bytes of the struct that are sent. -/
def LobbyPacket.payload : LobbyPacket → List UInt8
  | .json packet => packet.pk.head ++ readRange packet.pk.jsonBody 0 packet.pk.bodySize.toNat
  | .heartBeat => [LobbyProtocol.heartBeatPacketValue]

/-- The packets framed one after the other. -/
def frameAll (manip : MsgUserManip) : List LobbyPacket → Except Fault (List UInt8)
  | [] => .ok []
  | packet :: packets => do
      let frame ← sendPacketFrame manip packet.payload
      let frames ← frameAll manip packets
      pure (frame ++ frames)

/-- The bodies given to `readJsonPacket`, in order. -/
def readJsonBodies (calls : List (Call LobbyHandler)) : List (List UInt8) :=
  calls.filterMap fun
    | .handler .readJsonPacket _ body => some body
    | .handler .heartBeat _ _ => none
    | .noHandler _ => none

/-- The bodies given to `noHandler`, in order. -/
def noHandlerBodies (calls : List (Call LobbyHandler)) : List (List UInt8) :=
  calls.filterMap fun
    | .handler _ _ _ => none
    | .noHandler body => some body

/-- Two runs with the same calls of `readJsonPacket` and `noHandler` and the same result. -/
structure SameOutcome (left right : ParseResult LobbyHandler) : Prop where
  jsonPackets : readJsonBodies left.calls = readJsonBodies right.calls
  noHandlers : noHandlerBodies left.calls = noHandlerBodies right.calls
  ending : left.ending = right.ending

/-- A packet whose first byte and whose first four bytes are the same code. -/
def LobbyPacket.CodeFitsBoth : LobbyPacket → Prop
  | .json packet => packet.pk.sequenceNo.toNat % 2 ^ 24 = 0
  | .heartBeat => False

instance (packet : LobbyPacket) : Decidable packet.CodeFitsBoth :=
  match packet with
  | .json packet => inferInstanceAs (Decidable (packet.pk.sequenceNo.toNat % 2 ^ 24 = 0))
  | .heartBeat => inferInstanceAs (Decidable False)

/-- Every lobby packet has room in a message of its own. -/
theorem payload_length (packet : LobbyPacket) : packet.payload.length ≤ 30040 := by
  cases packet with
  | json packet =>
      have head := lobby_head_length packet.urlField
      have room := packet.room
      have limit : LobbyProtocol.headSize + LobbyProtocol.maxBodySize = 30040 := rfl
      rw [LobbyPacket.payload, List.length_append, head, readRange_length]
      omega
  | heartBeat => exact (by decide : 1 ≤ 30040)

/-! ### Framing -/

/-- Packets of one part each. -/
def singles (packets : List LobbyPacket) : List (List (List UInt8)) :=
  packets.map fun packet => [packet.payload]

theorem singles_flatten (packets : List LobbyPacket) :
    (singles packets).flatten = packets.map LobbyPacket.payload := by
  induction packets with
  | nil => rfl
  | cons packet packets inductionHypothesis =>
      rw [singles, List.map_cons, List.flatten_cons, List.map_cons]
      exact congrArg (packet.payload :: ·) inductionHypothesis

/-- Framing is encoding, for a manipulator that makes the encoding of one part. -/
theorem frameAll_eq (codec : KeyCodec) (manip : MsgUserManip)
    (frames : ∀ body : List UInt8, sizeHeader + body.length ≤ MessageBuffer.maxBufferSize →
      sendPacketFrame manip body = .ok (encodePacket codec [body]))
    (packets : List LobbyPacket) :
    frameAll manip packets = .ok (encodeStream codec (singles packets)) := by
  induction packets with
  | nil => rfl
  | cons packet packets inductionHypothesis =>
      have maxSize := MessageBuffer.maxBufferSize_eq
      have length := payload_length packet
      have frame := frames packet.payload (by rw [sizeHeader]; omega)
      simp only [frameAll, frame, inductionHypothesis, bind, Except.bind, pure, Except.pure]
      rfl

theorem frameAll_masked (packets : List LobbyPacket) :
    frameAll manipulatorJsonParser packets = .ok (encodeStream maskedCodec (singles packets)) :=
  frameAll_eq maskedCodec manipulatorJsonParser (fun _ fits => sendPacketFrame_masked fits) packets

theorem frameAll_plain (packets : List LobbyPacket) :
    frameAll manipulatorJsonParserTest packets = .ok (encodeStream plainCodec (singles packets)) :=
  frameAll_eq plainCodec manipulatorJsonParserTest (fun _ fits => sendPacketFrame_plain fits) packets

/-! ### The packet code in one byte and in four -/

/-- The switch of the lobby parsers, on the number the code denotes. -/
theorem routeLobby_ofNat {value : Nat} (small : value < 2 ^ 32) :
    routeLobby (UInt32.ofNat value) =
      if value = 1 then some .readJsonPacket else if value = 3 then some .heartBeat else none := by
  have same : ∀ code : UInt8, UInt32.ofNat value = code.toUInt32 ↔ value = code.toNat := by
    intro code
    rw [← UInt32.toNat_inj, u32_ofNat_toNat small, UInt8.toNat_toUInt32]
  have json := same LobbyProtocol.jsonPacketValue
  have heartBeat := same LobbyProtocol.heartBeatPacketValue
  rw [routeLobby, if_congr json rfl (if_congr heartBeat rfl rfl)]
  rfl

/-- The front of a JSON payload: the code, and the sequence number behind it. -/
theorem json_payload_front (packet : JsonPacket) :
    ∃ behind, (LobbyPacket.json packet).payload =
      LobbyProtocol.jsonPacketValue :: (leBytes 3 packet.pk.sequenceNo.toNat ++ behind) := by
  have word : u32Bytes packet.pk.sequenceNo = leBytes 3 packet.pk.sequenceNo.toNat ++
      [UInt8.ofNat (packet.pk.sequenceNo.toNat / 256 / 256 / 256)] := rfl
  refine ⟨UInt8.ofNat (packet.pk.sequenceNo.toNat / 256 / 256 / 256) :: packet.pk.isCompressed ::
    (packet.pk.url ++ (u16Bytes packet.pk.bodySize ++
      readRange packet.pk.jsonBody 0 packet.pk.bodySize.toNat)), ?_⟩
  rw [LobbyPacket.payload, LobbyProtocol.PtJson.head, packet.code, word]
  simp only [List.append_assoc, List.cons_append, List.nil_append]

theorem json_code_one_byte (packet : JsonPacket) :
    routeLobby (codeOf 1 (LobbyPacket.json packet).payload) = some .readJsonPacket := by
  obtain ⟨behind, payload⟩ := json_payload_front packet
  rw [payload]
  rfl

/-- The code that the masked parser takes from a JSON packet. -/
theorem json_code_four_bytes (packet : JsonPacket) :
    codeOf 4 (LobbyPacket.json packet).payload =
      UInt32.ofNat (1 + 256 * (packet.pk.sequenceNo.toNat % 2 ^ 24)) := by
  obtain ⟨behind, payload⟩ := json_payload_front packet
  have three : (leBytes 3 packet.pk.sequenceNo.toNat).length = 3 := leBytes_length _ _
  have long : 4 ≤ (LobbyPacket.json packet).payload.length := by
    rw [payload, List.length_cons, List.length_append, three]
    omega
  have front : (LobbyPacket.json packet).payload.take 4 =
      LobbyProtocol.jsonPacketValue :: leBytes 3 packet.pk.sequenceNo.toNat := by
    rw [payload, List.take_succ_cons, List.take_left' three]
  rw [codeOf, if_pos long, front, u32Of, leNat, leNat_leBytes]
  rfl

/-- The plain parser knows every lobby packet. -/
theorem plain_recognises (packet : LobbyPacket) :
    Recognised packetParserNotUseEncTest packet.payload := by
  cases packet with
  | json packet =>
      intro unrouted
      have routed := json_code_one_byte packet
      change routeLobby (codeOf 1 (LobbyPacket.json packet).payload) = none at unrouted
      rw [unrouted] at routed
      cases routed
  | heartBeat =>
      unfold Recognised
      decide

/-- The masked parser takes a packet whose code fits both for a JSON packet. -/
theorem masked_code_fits {packet : LobbyPacket} (fits : packet.CodeFitsBoth) :
    routeLobby (codeOf 4 packet.payload) = some .readJsonPacket := by
  cases packet with
  | json packet =>
      have zero : packet.pk.sequenceNo.toNat % 2 ^ 24 = 0 := fits
      rw [json_code_four_bytes, zero]
      rfl
  | heartBeat => exact absurd fits id

/-- Any other packet has no handler behind the masked parser. -/
theorem masked_code_unknown {packet : LobbyPacket} (unfit : ¬ packet.CodeFitsBoth) :
    routeLobby (codeOf 4 packet.payload) = none := by
  cases packet with
  | json packet =>
      have nonzero : packet.pk.sequenceNo.toNat % 2 ^ 24 ≠ 0 := unfit
      have bound : packet.pk.sequenceNo.toNat % 2 ^ 24 < 2 ^ 24 := Nat.mod_lt _ (by decide)
      have small : 1 + 256 * (packet.pk.sequenceNo.toNat % 2 ^ 24) < 2 ^ 32 := by omega
      rw [json_code_four_bytes, routeLobby_ofNat small, if_neg (by omega), if_neg (by omega)]
  | heartBeat => rfl

/-! ### The two runs -/

theorem singles_recognised {parser : FrameParser LobbyHandler} {packets : List LobbyPacket}
    (recognised : ∀ packet ∈ packets, Recognised parser packet.payload) :
    AllRecognised parser (singles packets) := by
  intro parts member
  obtain ⟨packet, inside, rfl⟩ := List.mem_map.mp member
  refine ⟨List.cons_ne_nil _ _, ?_⟩
  intro body bodyMember
  rw [List.mem_singleton.mp bodyMember]
  exact recognised packet inside

section

variable {parser : FrameParser LobbyHandler} {handlers : Handlers LobbyHandler} {codec : KeyCodec}
  {msg : MessageBuffer}

/-- A run over packets that are all recognised hands every one of them on. -/
theorem parse_singles (keys : parser.keys = codec.keys) (returns : AllReturn (behaviourOf handlers))
    (valid : msg.Valid) {packets : List LobbyPacket}
    (content : msg.bytes = encodeStream codec (singles packets))
    (recognised : ∀ packet ∈ packets, Recognised parser packet.payload) :
    (parse parser handlers msg).ending = .returned true ∧
      (parse parser handlers msg).calls =
        packets.map fun packet => callFor parser packet.payload := by
  have fits : (encodeStream codec (singles packets)).length ≤ MessageBuffer.maxBufferSize := by
    rw [← content, MessageBuffer.bytes_length]
    exact valid.size_le
  have wellFormed := wellFormed_of_recognised returns (singles_recognised recognised) fits
  obtain ⟨ending, -, calls⟩ := parse_stream keys valid content wellFormed
  rw [singles_flatten, List.map_map] at calls
  exact ⟨ending, calls⟩

/-- A run stops at the first packet that is not recognised, with `noHandler`. -/
theorem parse_singles_unrecognised (keys : parser.keys = codec.keys)
    (returns : AllReturn (behaviourOf handlers)) (valid : msg.Valid)
    {front back : List LobbyPacket} {packet : LobbyPacket}
    (content : msg.bytes = encodeStream codec (singles (front ++ packet :: back)))
    (recognised : ∀ packet ∈ front, Recognised parser packet.payload)
    (unknown : ¬ Recognised parser packet.payload) :
    (parse parser handlers msg).calls =
      (front.map fun packet => callFor parser packet.payload) ++ [.noHandler packet.payload] := by
  have maxSize := MessageBuffer.maxBufferSize_eq
  have split : encodeStream codec (singles (front ++ packet :: back)) =
      encodeStream codec (singles front) ++
        (encodePacket codec [packet.payload] ++ encodeStream codec (singles back)) := by
    rw [singles, List.map_append, encodeStream_append, List.map_cons, encodeStream_cons]
    rfl
  have size := valid.size_le
  rw [← MessageBuffer.bytes_length, content, split, List.length_append, List.length_append,
    encodePacket_length] at size
  have frontFits : (encodeStream codec (singles front)).length ≤ MessageBuffer.maxBufferSize := by omega
  have wellFormed := wellFormed_of_recognised returns (singles_recognised recognised) frontFits
  have related := parse_refines parser handlers valid
  rw [runFrames, content, split, runMachine_stream keys _ _ _ (by omega) wellFormed,
    runMachine_unrecognised keys (by omega) unknown] at related
  rw [related.calls, singles_flatten, List.map_map, List.nil_append]
  rfl

end

theorem noHandlerBodies_append (front back : List (Call LobbyHandler)) :
    noHandlerBodies (front ++ back) = noHandlerBodies front ++ noHandlerBodies back :=
  List.filterMap_append

/-- Calls for recognised packets hold no call of `noHandler`. -/
theorem noHandlerBodies_recognised {parser : FrameParser LobbyHandler} {packets : List LobbyPacket}
    (recognised : ∀ packet ∈ packets, Recognised parser packet.payload) :
    noHandlerBodies (packets.map fun packet => callFor parser packet.payload) = [] := by
  apply List.filterMap_eq_nil_iff.mpr
  intro call member
  obtain ⟨packet, inside, rfl⟩ := List.mem_map.mp member
  obtain ⟨kind, routed⟩ := Option.ne_none_iff_exists'.mp (recognised packet inside)
  simp only [callFor, routed]

/-- A list of packets has only packets with a property, or a first one without it. -/
theorem all_or_first (packets : List LobbyPacket) :
    (∀ packet ∈ packets, packet.CodeFitsBoth) ∨
      ∃ front packet back, packets = front ++ packet :: back ∧
        (∀ packet ∈ front, packet.CodeFitsBoth) ∧ ¬ packet.CodeFitsBoth := by
  induction packets with
  | nil => exact Or.inl (by simp)
  | cons first packets inductionHypothesis =>
      by_cases fits : first.CodeFitsBoth
      · rcases inductionHypothesis with others | ⟨front, packet, back, rfl, before, unfit⟩
        · exact Or.inl (List.forall_mem_cons.mpr ⟨fits, others⟩)
        · exact Or.inr ⟨first :: front, packet, back, rfl, List.forall_mem_cons.mpr ⟨fits, before⟩,
            unfit⟩
      · exact Or.inr ⟨[], first, packets, rfl, by simp, fits⟩

/-- A packet whose code fits both parsers is recognised by the masked one. -/
theorem masked_recognises {packet : LobbyPacket} (fits : packet.CodeFitsBoth) :
    Recognised Lobby.packetParserNotUseEnc packet.payload := by
  intro unrouted
  have routed : Lobby.packetParserNotUseEnc.route
      (codeOf Lobby.packetParserNotUseEnc.codeSize packet.payload) = some .readJsonPacket :=
    masked_code_fits fits
  rw [unrouted] at routed
  cases routed

/-- Both parsers make the same call for a packet whose code fits both. -/
theorem callFor_fits {packet : LobbyPacket} (fits : packet.CodeFitsBoth) :
    callFor Lobby.packetParserNotUseEnc packet.payload =
      callFor packetParserNotUseEncTest packet.payload := by
  cases packet with
  | heartBeat => exact absurd fits id
  | json packet =>
      have fourBytes := masked_code_fits fits
      have oneByte := json_code_one_byte packet
      simp only [callFor, Lobby.packetParserNotUseEnc, packetParserNotUseEncTest, fourBytes, oneByte]

/-- The same packets, framed and parsed in the two variants, have the same outcome exactly when they are all
    JSON packets whose sequence number has its low three bytes zero. -/
theorem wire_variants_agree_iff {J : Type} (parseJson : List UInt8 → Option J) (user : Bool)
    (beyond : List UInt8) (packets : List LobbyPacket) {masked plain : MessageBuffer}
    (maskedValid : masked.Valid) (plainValid : plain.Valid)
    (maskedContent : frameAll manipulatorJsonParser packets = .ok masked.bytes)
    (plainContent : frameAll manipulatorJsonParserTest packets = .ok plain.bytes) :
    SameOutcome
        (parse Lobby.packetParserNotUseEnc (lobbyHandlers parseJson user beyond) masked)
        (parse packetParserNotUseEncTest (lobbyHandlers parseJson user beyond) plain) ↔
      ∀ packet ∈ packets, packet.CodeFitsBoth := by
  have returns : AllReturn (behaviourOf (lobbyHandlers parseJson user beyond)) :=
    fun kind body fits => lobbyHandlers_return parseJson user beyond kind fits
  rw [frameAll_masked] at maskedContent
  rw [frameAll_plain] at plainContent
  have maskedBytes := (Except.ok.inj maskedContent).symm
  have plainBytes := (Except.ok.inj plainContent).symm
  have known : ∀ packet ∈ packets, Recognised packetParserNotUseEncTest packet.payload :=
    fun packet _ => plain_recognises packet
  obtain ⟨plainEnding, plainCalls⟩ := parse_singles rfl returns plainValid plainBytes known
  rcases all_or_first packets with fits | ⟨front, packet, back, rfl, before, unfit⟩
  · refine iff_of_true ?_ fits
    obtain ⟨maskedEnding, maskedCalls⟩ := parse_singles rfl returns maskedValid maskedBytes
      (fun packet member => masked_recognises (fits packet member))
    have same : (packets.map fun packet => callFor Lobby.packetParserNotUseEnc packet.payload) =
        packets.map fun packet => callFor packetParserNotUseEncTest packet.payload := by
      apply List.map_congr_left
      intro packet member
      exact callFor_fits (fits packet member)
    have calls := (maskedCalls.trans same).trans plainCalls.symm
    exact ⟨congrArg readJsonBodies calls, congrArg noHandlerBodies calls,
      maskedEnding.trans plainEnding.symm⟩
  · have differs : ¬ ∀ other ∈ front ++ packet :: back, other.CodeFitsBoth := by
      intro fits
      exact unfit (fits packet (by simp))
    refine iff_of_false ?_ differs
    intro outcome
    have unknown : ¬ Recognised Lobby.packetParserNotUseEnc packet.payload :=
      not_not.mpr (masked_code_unknown unfit)
    have maskedCalls := parse_singles_unrecognised rfl returns maskedValid maskedBytes
      (fun packet member => masked_recognises (before packet member)) unknown
    have noHandlers := outcome.noHandlers
    rw [maskedCalls, plainCalls, noHandlerBodies_append, noHandlerBodies_recognised known] at noHandlers
    have none := (List.append_eq_nil_iff.mp noHandlers).2
    cases none

/-- A heartbeat: the plain parser takes it, the masked one reports that it has no handler. -/
theorem wire_variants_differ_heartBeat :
    frameAll manipulatorJsonParser [.heartBeat] = .ok [5, 0, 255, 255, 1, 0, 243, 255, 3] ∧
      frameAll manipulatorJsonParserTest [.heartBeat] = .ok [5, 0, 0, 0, 1, 0, 0, 0, 3] ∧
      ¬ SameOutcome
        (parse Lobby.packetParserNotUseEnc (lobbyHandlers (fun _ => some ()) true [])
          (.received [5, 0, 255, 255, 1, 0, 243, 255, 3]))
        (parse packetParserNotUseEncTest (lobbyHandlers (fun _ => some ()) true [])
          (.received [5, 0, 0, 0, 1, 0, 0, 0, 3])) := by
  refine ⟨?_, ?_, ?_⟩
  · rw [frameAll_masked]
    decide
  · rw [frameAll_plain]
    decide
  · intro outcome
    exact absurd outcome.ending (by decide)

/-- A JSON packet with an empty URL and a body of one byte. -/
def smallJson (sequenceNo : UInt32) : LobbyPacket :=
  .json ⟨{ LobbyProtocol.PtJson.new sequenceNo (fun _ => 0) with bodySize := 1 }, rfl, rfl,
    Nat.one_pos, (by decide : 1 ≤ LobbyProtocol.maxBodySize)⟩

/-- The variants agree on sequence number 2^24 and differ on sequence number 1. -/
theorem wire_variants_agree_iff_smallJson :
    SameOutcome
        (parse Lobby.packetParserNotUseEnc (lobbyHandlers (fun _ => some ()) true [])
          (.received (encodeStream maskedCodec (singles [smallJson 16777216]))))
        (parse packetParserNotUseEncTest (lobbyHandlers (fun _ => some ()) true [])
          (.received (encodeStream plainCodec (singles [smallJson 16777216])))) ∧
      ¬ SameOutcome
        (parse Lobby.packetParserNotUseEnc (lobbyHandlers (fun _ => some ()) true [])
          (.received (encodeStream maskedCodec (singles [smallJson 1]))))
        (parse packetParserNotUseEncTest (lobbyHandlers (fun _ => some ()) true [])
          (.received (encodeStream plainCodec (singles [smallJson 1])))) := by
  have valid : ∀ codec sequenceNo,
      (MessageBuffer.received (encodeStream codec (singles [smallJson sequenceNo]))).Valid := by
    intro codec sequenceNo
    apply MessageBuffer.received_valid
    have length := payload_length (smallJson sequenceNo)
    have maxSize := MessageBuffer.maxBufferSize_eq
    simp only [singles, List.map_cons, List.map_nil, encodeStream_cons, encodeStream_nil,
      List.append_nil, encodePacket_length, partsSize_cons, partsSize_nil]
    omega
  have masked : ∀ sequenceNo, frameAll manipulatorJsonParser [smallJson sequenceNo] = .ok
      (MessageBuffer.received (encodeStream maskedCodec (singles [smallJson sequenceNo]))).bytes := by
    intro sequenceNo
    rw [frameAll_masked, MessageBuffer.received_bytes]
  have plain : ∀ sequenceNo, frameAll manipulatorJsonParserTest [smallJson sequenceNo] = .ok
      (MessageBuffer.received (encodeStream plainCodec (singles [smallJson sequenceNo]))).bytes := by
    intro sequenceNo
    rw [frameAll_plain, MessageBuffer.received_bytes]
  constructor
  · exact (wire_variants_agree_iff _ _ _ _ (valid _ _) (valid _ _) (masked _) (plain _)).mpr
      (by decide)
  · rw [wire_variants_agree_iff _ _ _ _ (valid _ _) (valid _ _) (masked _) (plain _)]
    decide

end LobbySvr.Proofs

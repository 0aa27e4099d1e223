/-
Module: LobbySvr.Proofs.FrameGrammar
Layer: Proofs
Purpose: The inputs on which a parser of the plain format raises.  The branch that starts a packet looks
  before it reads; the branch that goes on inside a packet reads the next part key without looking.  The
  read fails exactly when the input ends inside an open packet: a main key that no initial segment of the
  parts adds up to, and fewer than four bytes behind the last part.
Imports: LobbySvr.Proofs.FrameRoundTrip
Trusted boundary: none
Main exports: OpenPacket, Dangling, runMachine_stranded, endsInside_of_raised, runFrames_raises_iff,
  packetParserNotUseEncTest_returns_iff
Open obligations: none
-/
import LobbySvr.Proofs.FrameRoundTrip

namespace LobbySvr.Proofs

open LobbySvr.Foundation
open LobbySvr.Net
open LobbySvr.Spec
open LobbySvr.Lobby

variable {κ : Type} {parser : FrameParser κ} {behaviour : Behaviour κ}

/-- A packet that is still open behind its last whole part: as many bytes as the main key declares have
    arrived, no initial segment of the parts has the declared size, and no further part key follows. -/
structure OpenPacket (parser : FrameParser κ) (mainKey : UInt32) (parts : List (List UInt8))
    (tail : List UInt8) : Prop where
  started : parts ≠ []
  recognised : ∀ body ∈ parts, Recognised parser body
  unfinished : ∀ front, front <+: parts → front ≠ [] → partsSize front ≠ mainKey.toNat
  arrived : (mainKey + 4).toNat ≤ sizeKey + partsSize parts + tail.length
  noKey : tail.length < sizeKey

/-- Whole packets, and an open one behind them. -/
def Dangling (parser : FrameParser κ) (bytes : List UInt8) : Prop :=
  ∃ packets mainKey parts tail, AllRecognised parser packets ∧ OpenPacket parser mainKey parts tail ∧
    bytes = encodeStream plainCodec packets ++
      (u32Bytes mainKey ++ (parts.flatMap (encodePart plainCodec) ++ tail))

/-- The parts of a packet whose counter is `total`, when none of them brings it down to four. -/
structure Stranded (parser : FrameParser κ) (total : UInt32) (parts : List (List UInt8))
    (tail : List UInt8) : Prop where
  recognised : ∀ body ∈ parts, Recognised parser body
  unfinished : ∀ front, front <+: parts → front ≠ [] → total ≠ UInt32.ofNat (partsSize front + 4)
  noKey : tail.length < sizeKey

/-! ### The counter -/

/-- The counter after a part, and the counter before it. -/
theorem counter_eq_iff (total : UInt32) (bodyLength left : Nat) :
    total - (UInt32.ofNat bodyLength + 4) = UInt32.ofNat (left + 4) ↔
      total = UInt32.ofNat (4 + bodyLength + left + 4) := by
  constructor
  · intro lowered
    have restored : total - (UInt32.ofNat bodyLength + 4) + (UInt32.ofNat bodyLength + 4) = total :=
      UInt32.sub_add_cancel _ _
    have other : UInt32.ofNat (4 + bodyLength + left + 4) - (UInt32.ofNat bodyLength + 4) +
        (UInt32.ofNat bodyLength + 4) = UInt32.ofNat (4 + bodyLength + left + 4) :=
      UInt32.sub_add_cancel _ _
    rw [← restored, lowered, ← counter_after_part bodyLength left, other]
  · intro same
    rw [same, counter_after_part]

/-- The counter of a packet is its main key and four. -/
theorem mainKey_add_four_iff (mainKey : UInt32) {size : Nat} (small : size < 2 ^ 32) :
    mainKey + 4 = UInt32.ofNat (size + 4) ↔ size = mainKey.toNat := by
  have sum : UInt32.ofNat (size + 4) = UInt32.ofNat size + 4 := by
    rw [UInt32.ofNat_add]
    rfl
  rw [sum]
  constructor
  · intro same
    have key : mainKey = UInt32.ofNat size := by
      have cancelled := congrArg (· - 4) same
      simpa [UInt32.add_sub_cancel] using cancelled
    rw [key, u32_ofNat_toNat small]
  · intro same
    have key : UInt32.ofNat size = mainKey := by rw [same, UInt32.ofNat_toNat]
    rw [key]

theorem partsSize_le_of_prefix {front parts : List (List UInt8)} (initial : front <+: parts) :
    partsSize front ≤ partsSize parts := by
  obtain ⟨back, rfl⟩ := initial
  simp [partsSize]

/-! ### Forward: stranded parts raise -/

/-- From inside a packet that no part closes, the machine comes to the part key that is not there. -/
theorem runMachine_stranded (plain : parser.keys = plainKeys) (returns : AllReturn behaviour)
    {tail : List UInt8} :
    ∀ (parts : List (List UInt8)) (total : UInt32) (calls : List (Call κ)),
      Stranded parser total parts tail → partsSize parts ≤ MessageBuffer.maxBufferSize →
      (runMachine parser behaviour
        ⟨some total, parts.flatMap (encodePart plainCodec) ++ tail, calls⟩).ending =
        .raised (.runtimeError MessageBuffer.cantReadableText)
  | [], total, calls, stranded, _ => by
      have short : tail.length < sizeKey := stranded.noKey
      have raised : machineStep parser behaviour ⟨some total, tail, calls⟩ =
          .done ⟨.raised (.runtimeError MessageBuffer.cantReadableText), tail, calls⟩ := by
        simp only [machineStep, partStep, if_pos short]
      rw [List.flatMap_nil, List.nil_append, runMachine_done raised]
  | body :: parts, total, calls, stranded, small => by
      rw [partsSize_cons] at small
      have maxSize := MessageBuffer.maxBufferSize_eq
      obtain ⟨kind, routed⟩ := Option.ne_none_iff_exists'.mp
        (stranded.recognised body (List.mem_cons_self ..))
      have part : TakesPart parser behaviour (u32Bytes (plainCodec.partKey body.length)) body kind :=
        takesPart_encode plain (by omega) routed (returns kind body (by omega))
      have stream : (body :: parts).flatMap (encodePart plainCodec) ++ tail =
          u32Bytes (plainCodec.partKey body.length) ++
            (body ++ (parts.flatMap (encodePart plainCodec) ++ tail)) := by
        simp [encodePart]
      have size : parser.keys.partLength (u32Of (u32Bytes (plainCodec.partKey body.length))) =
          UInt32.ofNat body.length := by
        rw [plain, u32Of_u32Bytes]
        rfl
      -- The part alone does not close the packet, nor does it with any of the parts behind it.
      have stays : ¬ total - (UInt32.ofNat body.length + 4) = 4 := by
        intro closed
        have first : [body] <+: body :: parts := ⟨parts, rfl⟩
        exact stranded.unfinished [body] first (List.cons_ne_nil _ _)
          ((counter_eq_iff total body.length 0).mp closed)
      have behind : Stranded parser (total - (UInt32.ofNat body.length + 4)) parts tail := by
        refine ⟨fun other member => stranded.recognised other (List.mem_cons_of_mem _ member), ?_,
          stranded.noKey⟩
        intro front initial _ closed
        have longer : body :: front <+: body :: parts := List.cons_prefix_cons.mpr ⟨rfl, initial⟩
        exact stranded.unfinished (body :: front) longer (List.cons_ne_nil _ _)
          ((counter_eq_iff total body.length (partsSize front)).mp closed)
      rw [stream, runMachine_next (machineStep_of_part part _ _ _), afterPart, size, if_neg stays]
      exact runMachine_stranded plain returns parts _ _ behind (by omega)

/-- A dangling input raises. -/
theorem runFrames_dangling (plain : parser.keys = plainKeys) (returns : AllReturn behaviour)
    {bytes : List UInt8} (fits : bytes.length ≤ MessageBuffer.maxBufferSize)
    (dangling : Dangling parser bytes) :
    (runFrames parser behaviour bytes).ending =
      .raised (.runtimeError MessageBuffer.cantReadableText) := by
  obtain ⟨packets, mainKey, parts, tail, recognised, packet, rfl⟩ := dangling
  have maxSize := MessageBuffer.maxBufferSize_eq
  rw [List.length_append, List.length_append, List.length_append, u32Bytes_length,
    flatMap_encodePart_length] at fits
  have streamFits : (encodeStream plainCodec packets).length ≤ MessageBuffer.maxBufferSize := by omega
  have wellFormed := wellFormed_of_recognised returns recognised streamFits
  have mainLength : parser.keys.mainLength (u32Of (u32Bytes mainKey)) + 4 = mainKey + 4 := by
    rw [plain, u32Of_u32Bytes]
    rfl
  have opens : OpensPacket parser (u32Bytes mainKey)
      (parts.flatMap (encodePart plainCodec) ++ tail) := by
    refine ⟨u32Bytes_length mainKey, ?_, ?_, ?_⟩
    · rw [plain]
      rfl
    · have := partsSize_ge packet.started
      rw [List.length_append, flatMap_encodePart_length, sizeKey]
      omega
    · have := packet.arrived
      rw [mainLength, List.length_append, List.length_append, u32Bytes_length,
        flatMap_encodePart_length]
      simp only [sizeKey] at this
      omega
  have stranded : Stranded parser (mainKey + 4) parts tail := by
    refine ⟨packet.recognised, ?_, packet.noKey⟩
    intro front initial nonempty closed
    have := partsSize_le_of_prefix initial
    exact packet.unfinished front initial nonempty
      ((mainKey_add_four_iff mainKey (by omega)).mp closed)
  rw [runFrames, runMachine_stream plain _ packets [] (by omega) wellFormed, runMachine_open opens,
    mainLength]
  exact runMachine_stranded plain returns parts _ _ stranded (by omega)

/-! ### Backward: a run that raises was stranded -/

/-- The input ends inside a packet: between packets it is dangling; inside one, either no part closes the
    packet, or some parts close it and a dangling input follows. -/
def EndsInside (parser : FrameParser κ) : Option UInt32 → List UInt8 → Prop
  | none, rest => Dangling parser rest
  | some total, rest =>
      (∃ parts tail, Stranded parser total parts tail ∧
        rest = parts.flatMap (encodePart plainCodec) ++ tail) ∨
      ∃ parts later, parts ≠ [] ∧ (∀ body ∈ parts, Recognised parser body) ∧
        total = UInt32.ofNat (partsSize parts + 4) ∧ Dangling parser later ∧
        rest = parts.flatMap (encodePart plainCodec) ++ later

/-- A part taken off the front is put back. -/
theorem endsInside_cons {body later : List UInt8} {total : UInt32} (recognised : Recognised parser body)
    (ends : EndsInside parser
      (if total - (UInt32.ofNat body.length + 4) = 4 then none
        else some (total - (UInt32.ofNat body.length + 4))) later) :
    EndsInside parser (some total) (encodePart plainCodec body ++ later) := by
  have grown : ∀ {parts : List (List UInt8)}, (∀ other ∈ parts, Recognised parser other) →
      ∀ other ∈ body :: parts, Recognised parser other := by
    intro parts others other member
    rcases List.mem_cons.mp member with rfl | member
    · exact recognised
    · exact others other member
  by_cases closed : total - (UInt32.ofNat body.length + 4) = 4
  · rw [if_pos closed] at ends
    refine Or.inr ⟨[body], later, List.cons_ne_nil _ _, grown (by simp), ?_, ends, by simp⟩
    exact (counter_eq_iff total body.length 0).mp closed
  · rw [if_neg closed] at ends
    rcases ends with ⟨parts, tail, stranded, rfl⟩ | ⟨parts, behind, _, others, counter, dangling, rfl⟩
    · refine Or.inl ⟨body :: parts, tail, ⟨grown stranded.recognised, ?_, stranded.noKey⟩, by simp⟩
      intro front initial nonempty same
      cases front with
      | nil => exact nonempty rfl
      | cons first front =>
          obtain ⟨rfl, shorter⟩ := List.cons_prefix_cons.mp initial
          have lowered := (counter_eq_iff total first.length (partsSize front)).mpr same
          cases front with
          | nil => exact closed lowered
          | cons second front =>
              exact stranded.unfinished _ shorter (List.cons_ne_nil _ _) lowered
    · refine Or.inr ⟨body :: parts, behind, List.cons_ne_nil _ _, grown others, ?_, dangling, by simp⟩
      exact (counter_eq_iff total body.length (partsSize parts)).mp counter

/-- A packet whose main key has been taken off is put back. -/
theorem dangling_of_endsInside {key rest : List UInt8} (plain : parser.keys = plainKeys)
    (opens : OpensPacket parser key rest) (fits : rest.length ≤ MessageBuffer.maxBufferSize)
    (ends : EndsInside parser (some (parser.keys.mainLength (u32Of key) + 4)) rest) :
    Dangling parser (key ++ rest) := by
  have maxSize := MessageBuffer.maxBufferSize_eq
  have mainLength : parser.keys.mainLength (u32Of key) = u32Of key := by
    rw [plain]
    rfl
  have image : u32Bytes (u32Of key) = key := u32Bytes_u32Of opens.keyLength
  rw [mainLength] at ends
  rcases ends with ⟨parts, tail, stranded, rfl⟩ | ⟨parts, later, nonempty, recognised, counter, dangling, rfl⟩
  · rw [List.length_append, flatMap_encodePart_length] at fits
    refine ⟨[], u32Of key, parts, tail, by simp [AllRecognised], ?_, by simp [image]⟩
    have partThere := opens.partThere
    have arrived := opens.arrived
    rw [List.length_append, flatMap_encodePart_length] at partThere
    rw [mainLength, List.length_append, List.length_append, flatMap_encodePart_length,
      opens.keyLength] at arrived
    refine ⟨?_, stranded.recognised, ?_, by omega, stranded.noKey⟩
    · rintro rfl
      have := stranded.noKey
      rw [partsSize_nil] at partThere
      omega
    · intro front initial nonempty same
      have := partsSize_le_of_prefix initial
      exact stranded.unfinished front initial nonempty
        ((mainKey_add_four_iff _ (by omega)).mpr same)
  · rw [List.length_append, flatMap_encodePart_length] at fits
    obtain ⟨packets, mainKey, openParts, tail, others, packet, rfl⟩ := dangling
    have size := (mainKey_add_four_iff _ (by omega)).mp counter
    refine ⟨parts :: packets, mainKey, openParts, tail, ?_, packet, ?_⟩
    · intro other member
      rcases List.mem_cons.mp member with rfl | member
      · exact ⟨nonempty, recognised⟩
      · exact others other member
    · have mainKeyImage : u32Bytes (plainCodec.mainKey (partsSize parts)) = key := by
        rw [size, ← image]
        change u32Bytes (UInt32.ofNat (u32Of (u32Bytes (u32Of key))).toNat) = _
        rw [UInt32.ofNat_toNat, u32Of_u32Bytes]
      simp [encodePacket, mainKeyImage]

/-- A part step that raises found no part key: the handlers return. -/
theorem partStep_raised (returns : AllReturn behaviour) (plain : parser.keys = plainKeys)
    {total : UInt32} {rest : List UInt8} {calls : List (Call κ)} {result : FrameResult κ} {fault : Fault}
    (fits : rest.length ≤ MessageBuffer.maxBufferSize)
    (left : partStep parser behaviour total rest calls = .done result)
    (raised : result.ending = .raised fault) : rest.length < sizeKey := by
  by_cases short : rest.length < sizeKey
  · exact short
  · exfalso
    rw [partStep, if_neg short, if_pos (by rw [plain]; rfl)] at left
    simp only at left
    split at left
    · cases left
      cases raised
    · rename_i enough
      have bodyLength := List.length_take_of_le (Nat.le_of_not_lt enough)
      have bodyFits : ((rest.drop sizeKey).take
          (parser.keys.partLength (u32Of (rest.take sizeKey))).toNat).length ≤
          MessageBuffer.maxBufferSize := by
        simp only [List.length_take, List.length_drop]
        omega
      rw [handOn] at left
      split at left
      · cases left
        cases raised
      · rename_i kind _
        have returned := returns kind _ bodyFits
        rw [bodyLength, UInt32.ofNat_toNat] at returned
        rw [returned] at left
        cases left

/-- The part a step has taken, as the codec writes it. -/
theorem takesPart_image (plain : parser.keys = plainKeys) {key body : List UInt8} {kind : κ}
    (part : TakesPart parser behaviour key body kind) :
    key ++ body = encodePart plainCodec body ∧
      parser.keys.partLength (u32Of key) = UInt32.ofNat body.length ∧ Recognised parser body := by
  have size : parser.keys.partLength (u32Of key) = UInt32.ofNat body.length := by
    rw [part.bodyLength, UInt32.ofNat_toNat]
  have word : u32Of key = UInt32.ofNat body.length := by
    rw [← size, plain]
    rfl
  refine ⟨?_, size, ?_⟩
  · change key ++ body = u32Bytes (UInt32.ofNat body.length) ++ body
    rw [← word, u32Bytes_u32Of part.keyLength]
  · rw [Recognised, part.routed]
    exact Option.some_ne_none kind

/-- The part that a step has taken, inside a packet or behind a main key, is put back in front. -/
theorem endsInside_putBack (plain : parser.keys = plainKeys) {total : UInt32} {rest : List UInt8}
    {calls : List (Call κ)} {later : FrameState κ}
    (went : partStep parser behaviour total rest calls = .next later)
    (ends : EndsInside parser later.inside later.rest) : EndsInside parser (some total) rest := by
  obtain ⟨key, body, behind, kind, part, rfl, rfl⟩ := partStep_next went
  obtain ⟨image, size, recognised⟩ := takesPart_image plain part
  rw [← List.append_assoc, image]
  rw [afterPart, size] at ends
  exact endsInside_cons recognised ends

/-- A run that raises started on an input that ends inside a packet. -/
theorem endsInside_of_raised (plain : parser.keys = plainKeys) (returns : AllReturn behaviour)
    (state : FrameState κ) (fits : state.rest.length ≤ MessageBuffer.maxBufferSize) {fault : Fault}
    (raised : (runMachine parser behaviour state).ending = .raised fault) :
    EndsInside parser state.inside state.rest := by
  refine loop_rule machineStep_decreases
    (motive := fun state result => state.rest.length ≤ MessageBuffer.maxBufferSize →
      result.ending = .raised fault → EndsInside parser state.inside state.rest)
    ?_ ?_ state fits raised
  · intro state result left fits raised
    obtain ⟨inside, rest, calls⟩ := state
    cases inside with
    | some total =>
        have short := partStep_raised returns plain fits left raised
        refine Or.inl ⟨[], rest, ⟨by simp, ?_, short⟩, rfl⟩
        intro front initial nonempty
        exact absurd (List.prefix_nil.mp initial) nonempty
    | none =>
        rcases machineStep_between rest calls with ⟨eq, _⟩ | rejected | ⟨key, behind, rfl, opens, eq⟩
        · rw [eq] at left
          cases left
          cases raised
        · rw [rejected] at left
          cases left
          cases raised
        · rw [eq] at left
          have behindFits : behind.length ≤ MessageBuffer.maxBufferSize := by
            simp only [List.length_append] at fits
            omega
          have short := partStep_raised returns plain behindFits left raised
          exact absurd opens.partThere (Nat.not_le_of_lt short)
  · intro state later went inductionHypothesis fits raised
    have shorter := machineStep_decreases state later went
    have ends := inductionHypothesis (Nat.le_trans (Nat.le_of_lt shorter) fits) raised
    obtain ⟨inside, rest, calls⟩ := state
    cases inside with
    | some total => exact endsInside_putBack plain went ends
    | none =>
        rcases machineStep_between rest calls with ⟨eq, _⟩ | rejected | ⟨key, behind, rfl, opens, eq⟩
        · rw [eq] at went
          cases went
        · rw [rejected] at went
          cases went
        · rw [eq] at went
          have behindFits : behind.length ≤ MessageBuffer.maxBufferSize := by
            simp only [List.length_append] at fits
            omega
          exact dangling_of_endsInside plain opens behindFits (endsInside_putBack plain went ends)

/-- The machine raises on the dangling inputs and on no others. -/
theorem runFrames_raises_iff (plain : parser.keys = plainKeys) (returns : AllReturn behaviour)
    {bytes : List UInt8} (fits : bytes.length ≤ MessageBuffer.maxBufferSize) :
    (∃ fault, (runFrames parser behaviour bytes).ending = .raised fault) ↔ Dangling parser bytes := by
  constructor
  · rintro ⟨fault, raised⟩
    exact endsInside_of_raised plain returns ⟨none, bytes, []⟩ fits raised
  · intro dangling
    exact ⟨_, runFrames_dangling plain returns fits dangling⟩

/-! ### The parser the lobby acceptor installs -/

/-- The client-facing parser returns exactly on the inputs that do not end inside an open packet, whatever
    the connection's tag holds. -/
theorem packetParserNotUseEncTest_returns_iff {J : Type} (parseJson : List UInt8 → Option J)
    (user : Bool) (beyond : List UInt8) (msg : MessageBuffer) (valid : msg.Valid) :
    (∃ result, (parse packetParserNotUseEncTest (lobbyHandlers parseJson user beyond) msg).ending =
        .returned result) ↔
      ¬ Dangling packetParserNotUseEncTest msg.bytes := by
  have returns : AllReturn (behaviourOf (lobbyHandlers parseJson user beyond)) :=
    fun kind body fits => lobbyHandlers_return parseJson user beyond kind fits
  have fits : msg.bytes.length ≤ MessageBuffer.maxBufferSize := by
    rw [MessageBuffer.bytes_length]
    exact valid.size_le
  have related := parse_refines packetParserNotUseEncTest (lobbyHandlers parseJson user beyond) valid
  have raises : (∃ fault, (runFrames packetParserNotUseEncTest
      (behaviourOf (lobbyHandlers parseJson user beyond)) msg.bytes).ending = .raised fault) ↔
      Dangling packetParserNotUseEncTest msg.bytes := runFrames_raises_iff rfl returns fits
  rw [← raises, ← related.ending]
  cases ending : (parse packetParserNotUseEncTest (lobbyHandlers parseJson user beyond) msg).ending with
  | returned result => simp
  | raised fault => simp

/-- A heartbeat in a packet that declares one byte: the parser goes on inside the packet, to a part key that
    is not there. -/
theorem packetParserNotUseEncTest_raises :
    (parse packetParserNotUseEncTest (lobbyHandlers (fun _ => some ()) true [])
      (.received [1, 0, 0, 0, 1, 0, 0, 0, 3])).ending =
      .raised (.runtimeError "buffer can't readable in MessageBuffer") := by
  decide

/-- The condition at work on two inputs: that packet, and the same heartbeat with its size declared. -/
theorem packetParserNotUseEncTest_returns_iff_heartBeat :
    (¬ ∃ result, (parse packetParserNotUseEncTest (lobbyHandlers (fun _ => some ()) true [])
        (.received [1, 0, 0, 0, 1, 0, 0, 0, 3])).ending = .returned result) ∧
      ¬ Dangling packetParserNotUseEncTest [5, 0, 0, 0, 1, 0, 0, 0, 3] := by
  constructor
  · rw [packetParserNotUseEncTest_returns_iff _ _ _ _ (MessageBuffer.received_valid (by decide)),
      MessageBuffer.received_bytes, not_not]
    refine ⟨[], 1, [[3]], [], by simp [AllRecognised], ⟨by simp, ?_, ?_, by decide, by decide⟩,
      by decide⟩
    · unfold Recognised
      decide
    · intro front initial nonempty
      have whole : front = [[3]] := by
        rcases List.prefix_cons_iff.mp initial with rfl | ⟨front, rfl, shorter⟩
        · exact absurd rfl nonempty
        · rw [List.prefix_nil.mp shorter]
      rw [whole]
      decide
  · have returned := (packetParserNotUseEncTest_returns_iff (fun _ => some ()) true []
      (.received [5, 0, 0, 0, 1, 0, 0, 0, 3]) (MessageBuffer.received_valid (by decide))).mp
        ⟨true, by decide⟩
    rwa [MessageBuffer.received_bytes] at returned

end LobbySvr.Proofs

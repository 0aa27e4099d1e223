/-
Module: LobbySvr.Proofs.PacketContainment
Layer: Proofs
Purpose: Where the parts that a parser takes lie in its input.  The loop is opened up between its two stages,
  and beside its state stands the offset at which the current packet started.  A part may run past the end
  that its main key declares, because only the whole receive buffer is asked whether the part is there; it
  does so exactly on the inputs that hold such a part behind whole packets and whole parts, or a main key
  that wraps around when the size of a key is added.
Imports: LobbySvr.Proofs.FrameGrammar, LobbySvr.Foundation.Runs
Trusted boundary: none
Main exports: LoopPoint, LoopPoint.step, LoopPoint.Contained, Overruns, InPacket, InPacket.takes,
  contained_of_not_overruns, not_contained_of_overruns, packets_contained_iff
Open obligations: none
-/
import LobbySvr.Proofs.FrameGrammar
import LobbySvr.Foundation.Runs

namespace LobbySvr.Proofs

open LobbySvr.Foundation
open LobbySvr.Net
open LobbySvr.Spec
open LobbySvr.Lobby

variable {κ : Type}

/-! ### The loop with the positions of its packets -/

/-- A point of the parse loop: the top of an iteration, with the start of the packet that was opened last, or
    the point between the two stages of an iteration, with the start of the open packet. -/
inductive LoopPoint (κ : Type) where
  | top (packetStart : Option Nat) (state : ParseState κ)
  | part (packetStart : Nat) (state : ParseState κ)

/-- The state in which `parse` enters its loop. -/
def loopEntry (msg : MessageBuffer) : ParseState κ where
  readStartFromMainKey := true
  header := default
  totalSize := 0
  msg := msg
  calls := []

/-- How far into the receive buffer `msg` the loop has read. -/
def bytesRead (msg : MessageBuffer) (state : ParseState κ) : Nat := msg.size - state.msg.size

/-- The stages of an iteration, one after the other; none when the loop is left. -/
def LoopPoint.step (parser : FrameParser κ) (handlers : Handlers κ) (msg : MessageBuffer) :
    LoopPoint κ → Unit → Option (LoopPoint κ)
  | .top packetStart state, () =>
      match beginPacket parser state with
      | .next later =>
          if state.readStartFromMainKey then some (.part (bytesRead msg state) later)
          else some (.part (packetStart.getD 0) later)
      | .done _ => none
  | .part packetStart state, () =>
      match takePart parser handlers state with
      | .next later => some (.top (some packetStart) later)
      | .done _ => none

/-- The points that a parser called on `msg` comes to. -/
def Visits (parser : FrameParser κ) (handlers : Handlers κ) (msg : MessageBuffer) : LoopPoint κ → Prop :=
  Reaches (LoopPoint.step parser handlers msg) (fun _ _ => true) (.top none (loopEntry msg))

/-- The end that the main key of a packet declares. -/
def declaredEnd (packetStart : Nat) (state : ParseState κ) : Nat :=
  packetStart + sizeKey + state.header.mainKey.toNat

/-- The counter is four and the bytes of the packet that are still to be read. -/
structure CounterExact (msg : MessageBuffer) (packetStart : Nat) (state : ParseState κ) : Prop where
  inside : bytesRead msg state ≤ declaredEnd packetStart state
  counter : state.totalSize.toNat = sizeKey + (declaredEnd packetStart state - bytesRead msg state)

/-- The calls made when a stage is over. -/
def stepCalls : LoopStep (ParseState κ) (ParseResult κ) → List (Call κ)
  | .next state => state.calls
  | .done result => result.calls

/-- The body that a call hands on. -/
def callBody : Call κ → List UInt8
  | .handler _ _ body => body
  | .noHandler body => body

/-- What keeps the parts inside their packet.  In front of a part the counter is exact, and a body that is
    handed on ends inside the packet; at the top of an iteration the counter is exact, and a new packet is
    begun at the end of the last one only. -/
def LoopPoint.Contained (parser : FrameParser κ) (handlers : Handlers κ) (msg : MessageBuffer) :
    LoopPoint κ → Prop
  | .top none _ => True
  | .top (some packetStart) state =>
      CounterExact msg packetStart state ∧
        (state.readStartFromMainKey = true → bytesRead msg state = declaredEnd packetStart state)
  | .part packetStart state =>
      CounterExact msg packetStart state ∧
        ∀ call, stepCalls (takePart parser handlers state) = state.calls ++ [call] →
          bytesRead msg state + sizeKey + (callBody call).length ≤ declaredEnd packetStart state

/-- The two stages of an iteration of the loop lead to the top of the next one. -/
theorem visits_iteration {parser : FrameParser κ} {handlers : Handlers κ} {msg : MessageBuffer}
    {packetStart : Option Nat} {state later : ParseState κ}
    (went : frameStep parser handlers state = .next later)
    (visited : Visits parser handlers msg (.top packetStart state)) :
    ∃ start, Visits parser handlers msg (.top (some start) later) := by
  unfold frameStep LoopStep.andThen at went
  split at went
  · rename_i middle entered
    have begun : LoopPoint.step parser handlers msg (.top packetStart state) () =
        some (.part (if state.readStartFromMainKey then bytesRead msg state else packetStart.getD 0)
          middle) := by
      simp only [LoopPoint.step, entered]
      split
      · rfl
      · rfl
    have taken : ∀ start, LoopPoint.step parser handlers msg (.part start middle) () =
        some (.top (some start) later) := by
      intro start
      simp only [LoopPoint.step, went]
    exact ⟨_, .step (.step visited rfl begun) rfl (taken _)⟩
  · cases went

/-! ### The inputs that overrun a packet -/

/-- A packet that is opened and overrun: as many bytes as the main key declares have arrived, and the key
    wraps around, or behind some whole parts stands a whole part that ends behind the declared end. -/
structure OverrunPacket (parser : FrameParser κ) (mainKey : UInt32) (rest : List UInt8) : Prop where
  partThere : sizeKey ≤ rest.length
  arrived : (mainKey + 4).toNat ≤ sizeKey + rest.length
  overrun : 2 ^ 32 ≤ mainKey.toNat + 4 ∨
    ∃ parts body later, (∀ other ∈ parts, Recognised parser other) ∧
      (parts = [] ∨ partsSize parts < mainKey.toNat) ∧
      mainKey.toNat < partsSize parts + (4 + body.length) ∧
      rest = parts.flatMap (encodePart plainCodec) ++ (encodePart plainCodec body ++ later)

/-- Whole packets, and an overrun one behind them. -/
def Overruns (parser : FrameParser κ) (bytes : List UInt8) : Prop :=
  ∃ packets mainKey rest, AllRecognised parser packets ∧ OverrunPacket parser mainKey rest ∧
    bytes = encodeStream plainCodec packets ++ (u32Bytes mainKey ++ rest)

/-! ### The stages on a valid buffer -/

section

variable {parser : FrameParser κ} {handlers : Handlers κ} {state : ParseState κ}

/-- The state behind a whole part, before its body is handed on. -/
def behindPart (state : ParseState κ) (bodyLength : Nat) (msg : MessageBuffer) : ParseState κ where
  readStartFromMainKey := state.totalSize - (UInt32.ofNat bodyLength + 4) == 4
  header := { state.header with partKey := UInt32.ofNat bodyLength }
  totalSize := state.totalSize - (UInt32.ofNat bodyLength + 4)
  msg := msg
  calls := state.calls

/-- A whole part at the front of the buffer is taken out and handed on. -/
theorem takePart_whole (handlers : Handlers κ) (plain : parser.keys = plainKeys) (valid : state.msg.Valid)
    {body later : List UInt8} (content : state.msg.bytes = encodePart plainCodec body ++ later) :
    ∃ msg, msg.Valid ∧ msg.bytes = later ∧ takePart parser handlers state =
      callHandler parser handlers (behindPart state body.length msg) (UInt32.ofNat body.length)
        (.received body) := by
  have maxSize := MessageBuffer.maxBufferSize_eq
  have size := valid.size_le
  rw [← MessageBuffer.bytes_length, content, List.length_append, encodePart_length] at size
  have keyThere : sizeKey ≤ state.msg.bytes.length := by
    rw [content, List.length_append, encodePart_length, sizeKey]
    omega
  obtain ⟨msg, keyRead, msgValid, msgBytes⟩ := MessageBuffer.read_ok valid keyThere
  have keyLength : (u32Bytes (UInt32.ofNat body.length)).length = sizeKey := u32Bytes_length _
  have layout : state.msg.bytes = u32Bytes (UInt32.ofNat body.length) ++ (body ++ later) := by
    rw [content, encodePart, List.append_assoc]
    rfl
  have key : u32Of (state.msg.bytes.take sizeKey) = UInt32.ofNat body.length := by
    rw [layout, List.take_left' keyLength, u32Of_u32Bytes]
  have bodySize : (UInt32.ofNat body.length).toNat = body.length := u32_ofNat_toNat (by omega)
  rw [layout, List.drop_left' keyLength] at msgBytes
  have within : (UInt32.ofNat body.length).toNat ≤ msg.bytes.length := by
    rw [msgBytes, bodySize, List.length_append]
    omega
  have enough := (MessageBuffer.readable_iff msgValid.ordered _).mpr within
  obtain ⟨behind, bodyRead, behindValid, behindBytes⟩ := MessageBuffer.read_ok msgValid within
  rw [msgBytes, bodySize, List.drop_left] at behindBytes
  have front : msg.bytes.take (UInt32.ofNat body.length).toNat = body := by
    rw [msgBytes, bodySize, List.take_left]
  rw [front] at bodyRead
  have keyOk : parser.keys.partKeyOk (UInt32.ofNat body.length) = true := by
    rw [plain]
    rfl
  have length : parser.keys.partLength (UInt32.ofNat body.length) = UInt32.ofNat body.length := by
    rw [plain]
    rfl
  have fits : body.length ≤ MessageBuffer.maxBufferSize := by omega
  refine ⟨behind, behindValid, behindBytes, ?_⟩
  simp only [takePart, keyRead, key, keyOk, if_true, length, enough, bodyRead,
    MessageBuffer.fill_empty fits, behindPart]

/-- Without a whole part at the front, the loop is left and nothing is handed on. -/
theorem takePart_missing (handlers : Handlers κ) (plain : parser.keys = plainKeys) (valid : state.msg.Valid)
    (missing : ∀ body later, state.msg.bytes ≠ encodePart plainCodec body ++ later) :
    ∃ result, takePart parser handlers state = .done result ∧ result.calls = state.calls := by
  by_cases keyThere : sizeKey ≤ state.msg.bytes.length
  · obtain ⟨msg, keyRead, msgValid, msgBytes⟩ := MessageBuffer.read_ok valid keyThere
    have keyOk : parser.keys.partKeyOk (u32Of (state.msg.bytes.take sizeKey)) = true := by
      rw [plain]
      rfl
    have length : parser.keys.partLength (u32Of (state.msg.bytes.take sizeKey)) =
        u32Of (state.msg.bytes.take sizeKey) := by
      rw [plain]
      rfl
    have late : ¬ msg.readable (u32Of (state.msg.bytes.take sizeKey)).toNat = true := by
      intro enough
      have within := (MessageBuffer.readable_iff msgValid.ordered _).mp enough
      -- The declared bytes are there after all, so the front of the buffer is a whole part.
      have bodyLength := List.length_take_of_le within
      have keyLength : (state.msg.bytes.take sizeKey).length = 4 := List.length_take_of_le keyThere
      have part : encodePart plainCodec
          (msg.bytes.take (u32Of (state.msg.bytes.take sizeKey)).toNat) =
          state.msg.bytes.take sizeKey ++
            msg.bytes.take (u32Of (state.msg.bytes.take sizeKey)).toNat := by
        change u32Bytes (UInt32.ofNat
          (msg.bytes.take (u32Of (state.msg.bytes.take sizeKey)).toNat).length) ++ _ = _
        rw [bodyLength, UInt32.ofNat_toNat, u32Bytes_u32Of keyLength]
      apply missing _ (msg.bytes.drop (u32Of (state.msg.bytes.take sizeKey)).toNat)
      rw [part, List.append_assoc, List.take_append_drop, msgBytes, List.take_append_drop]
    refine ⟨⟨.returned false, msg.readAll, state.calls⟩, ?_, rfl⟩
    simp only [takePart, keyRead, keyOk, if_true, length, if_neg late]
  · have short := MessageBuffer.read_short valid.ordered (Nat.lt_of_not_le keyThere) (by decide)
    refine ⟨⟨.raised (.runtimeError MessageBuffer.cantReadableText), state.msg, state.calls⟩, ?_, rfl⟩
    simp only [takePart, short]

theorem encodePart_fits (valid : state.msg.Valid) {body later : List UInt8}
    (content : state.msg.bytes = encodePart plainCodec body ++ later) :
    body.length ≤ MessageBuffer.maxBufferSize := by
  have size := valid.size_le
  rw [← MessageBuffer.bytes_length, content, List.length_append, encodePart_length] at size
  omega

/-- Handing a body on makes the call for its code. -/
theorem callHandler_calls (parser : FrameParser κ) (handlers : Handlers κ) (state : ParseState κ) {body : List UInt8}
    (fits : body.length ≤ MessageBuffer.maxBufferSize) :
    stepCalls (callHandler parser handlers state (UInt32.ofNat body.length) (.received body)) =
      state.calls ++ [callFor parser body] := by
  have code := packetCode_eq (MessageBuffer.received_valid fits) parser.codeSize
  rw [MessageBuffer.received_bytes] at code
  unfold callHandler callFor
  rw [code, MessageBuffer.received_bytes]
  cases parser.route (codeOf parser.codeSize body) with
  | none => rfl
  | some kind =>
      cases handled : handlers kind (UInt32.ofNat body.length) (.received body) with
      | none => simp only [handled, stepCalls]
      | some fault => simp only [handled, stepCalls]

/-- A body with a recognised code is handed on and the loop goes round. -/
theorem callHandler_recognised (returns : AllReturn (behaviourOf handlers)) (state : ParseState κ)
    {body : List UInt8} (fits : body.length ≤ MessageBuffer.maxBufferSize)
    (recognised : Recognised parser body) :
    callHandler parser handlers state (UInt32.ofNat body.length) (.received body) =
      .next { state with calls := state.calls ++ [callFor parser body] } := by
  have code := packetCode_eq (MessageBuffer.received_valid fits) parser.codeSize
  rw [MessageBuffer.received_bytes] at code
  obtain ⟨kind, routed⟩ := Option.ne_none_iff_exists'.mp recognised
  have returned : handlers kind (UInt32.ofNat body.length) (.received body) = none :=
    returns kind body fits
  simp only [callHandler, callFor, code, routed, returned, MessageBuffer.received_bytes]

/-- A body whose code has no handler leaves the loop. -/
theorem callHandler_unrecognised (state : ParseState κ) {body : List UInt8}
    (fits : body.length ≤ MessageBuffer.maxBufferSize) (unknown : ¬ Recognised parser body)
    (later : ParseState κ) :
    callHandler parser handlers state (UInt32.ofNat body.length) (.received body) ≠ .next later := by
  have code := packetCode_eq (MessageBuffer.received_valid fits) parser.codeSize
  rw [MessageBuffer.received_bytes] at code
  have unrouted : parser.route (codeOf parser.codeSize body) = none := not_not.mp unknown
  simp only [callHandler, code, unrouted]
  intro went
  cases went

/-- Handing on makes a call for the body of a whole part only. -/
theorem takePart_called (plain : parser.keys = plainKeys) (valid : state.msg.Valid) {call : Call κ}
    (called : stepCalls (takePart parser handlers state) = state.calls ++ [call]) :
    ∃ body later, state.msg.bytes = encodePart plainCodec body ++ later ∧
      call = callFor parser body := by
  by_cases whole : ∃ body later, state.msg.bytes = encodePart plainCodec body ++ later
  · obtain ⟨body, later, content⟩ := whole
    obtain ⟨behind, -, -, took⟩ := takePart_whole handlers plain valid content
    rw [took, callHandler_calls _ _ _ (encodePart_fits valid content)] at called
    exact ⟨body, later, content, (List.singleton_inj.mp (List.append_cancel_left called)).symm⟩
  · obtain ⟨result, left, calls⟩ := takePart_missing handlers plain valid
      (fun body later content => whole ⟨body, later, content⟩)
    rw [left, stepCalls, calls] at called
    have longer := congrArg List.length called
    simp at longer

/-- The loop goes round behind a whole part with a recognised code only. -/
theorem takePart_next (plain : parser.keys = plainKeys) (valid : state.msg.Valid) {next : ParseState κ}
    (took : takePart parser handlers state = .next next) :
    ∃ body later, state.msg.bytes = encodePart plainCodec body ++ later ∧ Recognised parser body := by
  by_cases whole : ∃ body later, state.msg.bytes = encodePart plainCodec body ++ later
  · obtain ⟨body, later, content⟩ := whole
    obtain ⟨behind, -, -, handed⟩ := takePart_whole handlers plain valid content
    refine ⟨body, later, content, ?_⟩
    by_contra unknown
    exact callHandler_unrecognised _ (encodePart_fits valid content) unknown next (handed.symm.trans took)
  · obtain ⟨result, left, -⟩ := takePart_missing handlers plain valid
      (fun body later content => whole ⟨body, later, content⟩)
    rw [left] at took
    cases took

theorem callBody_callFor (parser : FrameParser κ) (body : List UInt8) :
    callBody (callFor parser body) = body := by
  unfold callFor
  split
  · rfl
  · rfl

/-- A main key whose bytes have arrived is stepped over. -/
theorem beginPacket_opens (plain : parser.keys = plainKeys) (valid : state.msg.Valid)
    (fromMainKey : state.readStartFromMainKey = true) {mainKey : UInt32} {rest : List UInt8}
    (content : state.msg.bytes = u32Bytes mainKey ++ rest) (partThere : sizeKey ≤ rest.length)
    (arrived : (mainKey + 4).toNat ≤ sizeKey + rest.length) :
    ∃ later, beginPacket parser state = .next later ∧ later.msg.Valid ∧ later.msg.bytes = rest ∧
      later.header.mainKey = mainKey ∧ later.totalSize = mainKey + 4 ∧ later.calls = state.calls := by
  have keyLength : (u32Bytes mainKey).length = sizeKey := u32Bytes_length mainKey
  have length : state.msg.bytes.length = sizeKey + rest.length := by
    rw [content, List.length_append, keyLength]
  have headerThere : sizeHeader ≤ state.msg.bytes.length := by
    rw [length, sizeHeader]
    simp only [sizeKey] at partThere ⊢
    omega
  have keyThere : sizeKey ≤ state.msg.bytes.length := by
    rw [length]
    exact Nat.le_add_right _ _
  have key : u32Of ((state.msg.bytes.take sizeHeader).take sizeKey) = mainKey := by
    have front : (state.msg.bytes.take sizeHeader).take sizeKey = state.msg.bytes.take sizeKey := by
      rw [List.take_take]
      rfl
    rw [front, content, List.take_left' keyLength, u32Of_u32Bytes]
  have keyOk : parser.keys.mainKeyOk mainKey = true := by
    rw [plain]
    rfl
  have declared : parser.keys.mainLength mainKey = mainKey := by
    rw [plain]
    rfl
  have there : state.msg.readable (mainKey + 4).toNat = true :=
    (MessageBuffer.readable_iff valid.ordered _).mpr (by rw [length]; exact arrived)
  obtain ⟨msg, moved, msgValid, msgBytes⟩ := MessageBuffer.readCount_ok valid keyThere
  rw [content, List.drop_left' keyLength] at msgBytes
  refine ⟨{ state with
    header := ⟨mainKey, u32Of ((state.msg.bytes.take sizeHeader).drop sizeKey)⟩
    totalSize := mainKey + 4
    msg := msg }, ?_, msgValid, msgBytes, rfl, rfl, rfl⟩
  simp only [beginPacket, fromMainKey, if_true, MessageBuffer.readableInto_eq valid.ordered, if_pos headerThere,
    key, keyOk, declared, there, moved]

/-- A packet is begun only at a main key whose bytes have arrived. -/
theorem beginPacket_next (plain : parser.keys = plainKeys) (valid : state.msg.Valid)
    (fromMainKey : state.readStartFromMainKey = true) {later : ParseState κ}
    (went : beginPacket parser state = .next later) :
    ∃ mainKey rest, state.msg.bytes = u32Bytes mainKey ++ rest ∧ sizeKey ≤ rest.length ∧
      (mainKey + 4).toNat ≤ sizeKey + rest.length := by
  by_cases headerThere : sizeHeader ≤ state.msg.bytes.length
  · have keyThere : sizeKey ≤ state.msg.bytes.length :=
      Nat.le_trans (by decide) headerThere
    have keyLength : (state.msg.bytes.take sizeKey).length = 4 := List.length_take_of_le keyThere
    have front : (state.msg.bytes.take sizeHeader).take sizeKey = state.msg.bytes.take sizeKey := by
      rw [List.take_take]
      rfl
    have split : state.msg.bytes.length = sizeKey + (state.msg.bytes.drop sizeKey).length := by
      rw [List.length_drop]
      omega
    refine ⟨u32Of (state.msg.bytes.take sizeKey), state.msg.bytes.drop sizeKey, ?_, ?_, ?_⟩
    · rw [u32Bytes_u32Of keyLength, List.take_append_drop]
    · simp only [sizeHeader, sizeKey] at headerThere split ⊢
      omega
    · rw [← split]
      by_cases there :
          state.msg.readable (u32Of (state.msg.bytes.take sizeKey) + 4).toNat = true
      · exact (MessageBuffer.readable_iff valid.ordered _).mp there
      · have declared : parser.keys.mainLength (u32Of (state.msg.bytes.take sizeKey)) =
            u32Of (state.msg.bytes.take sizeKey) := by
          rw [plain]
          rfl
        have keyOk : parser.keys.mainKeyOk (u32Of (state.msg.bytes.take sizeKey)) = true := by
          rw [plain]
          rfl
        simp only [beginPacket, fromMainKey, if_true, MessageBuffer.readableInto_eq valid.ordered,
          if_pos headerThere, front, keyOk, declared, if_neg there] at went
        cases went
  · simp only [beginPacket, fromMainKey, if_true, MessageBuffer.readableInto_eq valid.ordered,
      if_neg headerThere] at went
    cases went

end

/-! ### What has been read -/

variable {parser : FrameParser κ} {handlers : Handlers κ} {msg : MessageBuffer}

/-- Behind whole packets, inside one: its main key and some whole parts have been read, which do not reach
    the declared end. -/
structure InPacket (parser : FrameParser κ) (msg : MessageBuffer) (packetStart : Nat)
    (packets : List (List (List UInt8))) (parts : List (List UInt8)) (state : ParseState κ) : Prop where
  valid : state.msg.Valid
  knownPackets : AllRecognised parser packets
  knownParts : ∀ body ∈ parts, Recognised parser body
  start : packetStart = (encodeStream plainCodec packets).length
  content : msg.bytes = encodeStream plainCodec packets ++ (u32Bytes state.header.mainKey ++
    (parts.flatMap (encodePart plainCodec) ++ state.msg.bytes))
  room : parts = [] ∨ partsSize parts < state.header.mainKey.toNat
  counter : state.totalSize.toNat + partsSize parts = state.header.mainKey.toNat + 4
  partThere : sizeKey ≤ (parts.flatMap (encodePart plainCodec) ++ state.msg.bytes).length
  arrived : (state.header.mainKey + 4).toNat ≤
    sizeKey + (parts.flatMap (encodePart plainCodec) ++ state.msg.bytes).length

/-- Behind whole packets, and nothing else read. -/
structure BetweenPackets (parser : FrameParser κ) (msg : MessageBuffer)
    (packets : List (List (List UInt8))) (state : ParseState κ) : Prop where
  valid : state.msg.Valid
  fromMainKey : state.readStartFromMainKey = true
  knownPackets : AllRecognised parser packets
  content : msg.bytes = encodeStream plainCodec packets ++ state.msg.bytes

theorem InPacket.bytesRead {packetStart : Nat} {packets : List (List (List UInt8))}
    {parts : List (List UInt8)} {state : ParseState κ}
    (within : InPacket parser msg packetStart packets parts state) :
    bytesRead msg state = packetStart + sizeKey + partsSize parts := by
  have length := congrArg List.length within.content
  simp only [List.length_append, u32Bytes_length, flatMap_encodePart_length,
    MessageBuffer.bytes_length] at length
  rw [Proofs.bytesRead, within.start, sizeKey]
  omega

theorem BetweenPackets.bytesRead {packets : List (List (List UInt8))} {state : ParseState κ}
    (between : BetweenPackets parser msg packets state) :
    bytesRead msg state = (encodeStream plainCodec packets).length := by
  have length := congrArg List.length between.content
  simp only [List.length_append, MessageBuffer.bytes_length] at length
  rw [Proofs.bytesRead]
  omega

/-- The counter is exact inside a packet. -/
theorem InPacket.counterExact {packetStart : Nat} {packets : List (List (List UInt8))}
    {parts : List (List UInt8)} {state : ParseState κ}
    (within : InPacket parser msg packetStart packets parts state) :
    CounterExact msg packetStart state := by
  have read := within.bytesRead
  have counter := within.counter
  have room : partsSize parts ≤ state.header.mainKey.toNat := by
    rcases within.room with rfl | smaller
    · exact Nat.zero_le _
    · exact Nat.le_of_lt smaller
  constructor
  · rw [read, declaredEnd]
    omega
  · rw [read, declaredEnd, sizeKey]
    omega

/-- A main key that does not wrap around opens its packet. -/
theorem BetweenPackets.opens (plain : parser.keys = plainKeys) {packets : List (List (List UInt8))}
    {state : ParseState κ} (between : BetweenPackets parser msg packets state) {mainKey : UInt32}
    {rest : List UInt8} (content : state.msg.bytes = u32Bytes mainKey ++ rest)
    (partThere : sizeKey ≤ rest.length) (arrived : (mainKey + 4).toNat ≤ sizeKey + rest.length)
    (small : mainKey.toNat + 4 < 2 ^ 32) :
    ∃ later, beginPacket parser state = .next later ∧ later.msg.bytes = rest ∧
      later.header.mainKey = mainKey ∧
      InPacket parser msg (Proofs.bytesRead msg state) packets [] later := by
  obtain ⟨later, went, valid, bytes, key, total, -⟩ :=
    beginPacket_opens plain between.valid between.fromMainKey content partThere arrived
  refine ⟨later, went, bytes, key, ?_⟩
  have counter : (mainKey + 4).toNat = mainKey.toNat + 4 := by
    rw [UInt32.toNat_add]
    exact Nat.mod_eq_of_lt small
  constructor
  · exact valid
  · exact between.knownPackets
  · simp
  · exact between.bytesRead
  · rw [between.content, content, key, bytes]
    rfl
  · exact Or.inl rfl
  · rw [total, key, partsSize_nil, counter]
  · rw [bytes]
    exact partThere
  · rw [key, bytes]
    exact arrived

section

variable {packetStart : Nat} {packets : List (List (List UInt8))} {parts : List (List UInt8)}
  {state : ParseState κ} {body later : List UInt8}

/-- The counter behind a part that does not pass the declared end. -/
theorem InPacket.counter_behind (within : InPacket parser msg packetStart packets parts state)
    (content : state.msg.bytes = encodePart plainCodec body ++ later)
    (room : partsSize parts + (4 + body.length) ≤ state.header.mainKey.toNat) :
    (state.totalSize - (UInt32.ofNat body.length + 4)).toNat + (partsSize parts + (4 + body.length)) =
      state.header.mainKey.toNat + 4 := by
  have maxSize := MessageBuffer.maxBufferSize_eq
  have fits := encodePart_fits within.valid content
  have counter := within.counter
  have size : (UInt32.ofNat body.length + 4).toNat = body.length + 4 := by
    have four : (4 : UInt32) = UInt32.ofNat 4 := rfl
    rw [four, ← UInt32.ofNat_add, u32_ofNat_toNat (by omega)]
  have smaller : UInt32.ofNat body.length + 4 ≤ state.totalSize := by
    rw [UInt32.le_iff_toNat_le, size]
    omega
  rw [UInt32.toNat_sub_of_le _ _ smaller, size]
  omega

/-- The parts behind one more part, as bytes. -/
theorem content_behind (parts : List (List UInt8))
    (content : state.msg.bytes = encodePart plainCodec body ++ later) :
    parts.flatMap (encodePart plainCodec) ++ state.msg.bytes =
      (parts ++ [body]).flatMap (encodePart plainCodec) ++ later := by
  rw [content, List.flatMap_append, List.append_assoc]
  simp

/-- A recognised part inside the packet is taken, and the loop goes round. -/
theorem InPacket.takes (plain : parser.keys = plainKeys) (returns : AllReturn (behaviourOf handlers))
    (within : InPacket parser msg packetStart packets parts state)
    (content : state.msg.bytes = encodePart plainCodec body ++ later)
    (recognised : Recognised parser body) :
    ∃ next, takePart parser handlers state = .next next ∧ next.msg.Valid ∧ next.msg.bytes = later ∧
      next.header.mainKey = state.header.mainKey ∧
      next.totalSize = state.totalSize - (UInt32.ofNat body.length + 4) ∧
      next.readStartFromMainKey = (next.totalSize == 4) := by
  obtain ⟨behind, behindValid, behindBytes, took⟩ := takePart_whole handlers plain within.valid content
  rw [callHandler_recognised returns _ (encodePart_fits within.valid content) recognised] at took
  exact ⟨_, took, behindValid, behindBytes, rfl, rfl, rfl⟩

theorem knownParts_append (known : ∀ other ∈ parts, Recognised parser other)
    (recognised : Recognised parser body) : ∀ other ∈ parts ++ [body], Recognised parser other := by
  intro other member
  rcases List.mem_append.mp member with earlier | last
  · exact known other earlier
  · rw [List.mem_singleton.mp last]
    exact recognised

/-- A part that ends in front of the declared end leaves the loop inside the packet. -/
theorem InPacket.takes_inside (plain : parser.keys = plainKeys)
    (returns : AllReturn (behaviourOf handlers))
    (within : InPacket parser msg packetStart packets parts state)
    (content : state.msg.bytes = encodePart plainCodec body ++ later)
    (recognised : Recognised parser body)
    (room : partsSize parts + (4 + body.length) < state.header.mainKey.toNat) :
    ∃ next, takePart parser handlers state = .next next ∧ next.msg.bytes = later ∧
      next.header.mainKey = state.header.mainKey ∧ next.readStartFromMainKey = false ∧
      InPacket parser msg packetStart packets (parts ++ [body]) next := by
  obtain ⟨next, took, valid, bytes, key, total, mode⟩ := within.takes plain returns content recognised
  have counter := within.counter_behind content (Nat.le_of_lt room)
  have behind := content_behind parts content
  have size : partsSize (parts ++ [body]) = partsSize parts + (4 + body.length) := by
    rw [partsSize_append, partsSize_cons, partsSize_nil]
    omega
  have stays : ¬ next.totalSize = 4 := by
    intro four
    have value : next.totalSize.toNat = 4 := congrArg UInt32.toNat four
    rw [total] at value
    omega
  refine ⟨next, took, bytes, key, ?_, ?_⟩
  · rw [mode]
    exact beq_eq_false_iff_ne.mpr stays
  constructor
  · exact valid
  · exact within.knownPackets
  · exact knownParts_append within.knownParts recognised
  · exact within.start
  · rw [within.content, behind, key, bytes]
  · rw [key, size]
    exact Or.inr room
  · rw [total, key, size]
    exact counter
  · rw [bytes, ← behind]
    exact within.partThere
  · rw [key, bytes, ← behind]
    exact within.arrived

/-- A part that ends at the declared end closes the packet. -/
theorem InPacket.takes_last (plain : parser.keys = plainKeys)
    (returns : AllReturn (behaviourOf handlers))
    (within : InPacket parser msg packetStart packets parts state)
    (content : state.msg.bytes = encodePart plainCodec body ++ later)
    (recognised : Recognised parser body)
    (last : partsSize parts + (4 + body.length) = state.header.mainKey.toNat) :
    ∃ next, takePart parser handlers state = .next next ∧ next.msg.bytes = later ∧
      next.header.mainKey = state.header.mainKey ∧ next.totalSize = 4 ∧
      BetweenPackets parser msg (packets ++ [parts ++ [body]]) next := by
  obtain ⟨next, took, valid, bytes, key, total, mode⟩ := within.takes plain returns content recognised
  have counter := within.counter_behind content (Nat.le_of_eq last)
  have behind := content_behind parts content
  have size : partsSize (parts ++ [body]) = state.header.mainKey.toNat := by
    rw [partsSize_append, partsSize_cons, partsSize_nil]
    omega
  have four : next.totalSize = 4 := by
    apply UInt32.toNat_inj.mp
    rw [total]
    change _ = 4
    omega
  refine ⟨next, took, bytes, key, four, ?_⟩
  constructor
  · exact valid
  · rw [mode, four]
    rfl
  · intro packet member
    rcases List.mem_append.mp member with earlier | closed
    · exact within.knownPackets packet earlier
    · rw [List.mem_singleton.mp closed]
      refine ⟨by simp, knownParts_append within.knownParts recognised⟩
  · have mainKey : plainCodec.mainKey (partsSize (parts ++ [body])) = state.header.mainKey := by
      rw [size]
      exact UInt32.ofNat_toNat
    have stream : encodeStream plainCodec (packets ++ [parts ++ [body]]) =
        encodeStream plainCodec packets ++ (u32Bytes state.header.mainKey ++
          (parts ++ [body]).flatMap (encodePart plainCodec)) := by
      rw [encodeStream_append, encodeStream_cons, encodeStream_nil, List.append_nil, encodePacket,
        mainKey]
    rw [within.content, behind, bytes, stream, List.append_assoc, List.append_assoc]

/-- On an input that overruns no packet, no part passes the declared end. -/
theorem InPacket.ends_inside (within : InPacket parser msg packetStart packets parts state)
    (content : state.msg.bytes = encodePart plainCodec body ++ later)
    (sound : ¬ Overruns parser msg.bytes) :
    partsSize parts + (4 + body.length) ≤ state.header.mainKey.toNat := by
  apply Nat.le_of_not_lt
  intro passes
  have partThere := within.partThere
  have arrived := within.arrived
  rw [content] at partThere arrived
  refine sound ⟨packets, state.header.mainKey, _, within.knownPackets, ⟨partThere, arrived, ?_⟩, ?_⟩
  · exact Or.inr ⟨parts, body, later, within.knownParts, within.room, passes, rfl⟩
  · rw [within.content, content]

end

/-! ### Forward: without an overrun every point is contained -/

/-- Every point of the loop stands behind whole packets and whole parts. -/
def Tracks (parser : FrameParser κ) (msg : MessageBuffer) : LoopPoint κ → Prop
  | .top packetStart state =>
      (∃ packets, BetweenPackets parser msg packets state ∧
        ∀ start, packetStart = some start →
          declaredEnd start state = (encodeStream plainCodec packets).length ∧ state.totalSize = 4) ∨
      ∃ start packets parts, packetStart = some start ∧ state.readStartFromMainKey = false ∧
        InPacket parser msg start packets parts state
  | .part start state => ∃ packets parts, InPacket parser msg start packets parts state

theorem tracks_top {packetStart : Option Nat} {state : ParseState κ} {later : LoopPoint κ}
    (plain : parser.keys = plainKeys) (sound : ¬ Overruns parser msg.bytes)
    (tracked : Tracks parser msg (.top packetStart state))
    (taken : LoopPoint.step parser handlers msg (.top packetStart state) () = some later) :
    Tracks parser msg later := by
  rcases tracked with ⟨packets, between, -⟩ | ⟨start, packets, parts, rfl, inside, within⟩
  · cases began : beginPacket parser state with
    | done result =>
        simp only [LoopPoint.step, began] at taken
        cases taken
    | next middle =>
        simp only [LoopPoint.step, began, between.fromMainKey, if_true] at taken
        cases taken
        obtain ⟨mainKey, rest, content, partThere, arrived⟩ :=
          beginPacket_next plain between.valid between.fromMainKey began
        have small : mainKey.toNat + 4 < 2 ^ 32 := by
          apply Nat.lt_of_not_le
          intro wraps
          refine sound ⟨packets, mainKey, rest, between.knownPackets,
            ⟨partThere, arrived, Or.inl wraps⟩, ?_⟩
          rw [between.content, content]
        obtain ⟨opened, went, -, -, within⟩ := between.opens plain content partThere arrived small
        rw [began] at went
        cases went
        exact ⟨packets, [], within⟩
  · have same : beginPacket parser state = .next state := by
      simp only [beginPacket, inside]
      rfl
    simp only [LoopPoint.step, same, inside, Option.getD_some] at taken
    cases taken
    exact ⟨packets, parts, within⟩

theorem tracks_part {packetStart : Nat} {state : ParseState κ} {later : LoopPoint κ}
    (plain : parser.keys = plainKeys) (returns : AllReturn (behaviourOf handlers))
    (sound : ¬ Overruns parser msg.bytes) (tracked : Tracks parser msg (.part packetStart state))
    (taken : LoopPoint.step parser handlers msg (.part packetStart state) () = some later) :
    Tracks parser msg later := by
  obtain ⟨packets, parts, within⟩ := tracked
  cases took : takePart parser handlers state with
  | done result =>
      simp only [LoopPoint.step, took] at taken
      cases taken
  | next state' =>
      simp only [LoopPoint.step, took] at taken
      cases taken
      obtain ⟨body, rest, content, recognised⟩ := takePart_next plain within.valid took
      have inside := within.ends_inside content sound
      rcases Nat.lt_or_eq_of_le inside with room | last
      · obtain ⟨next, went, -, -, mode, behind⟩ :=
          within.takes_inside plain returns content recognised room
        rw [took] at went
        cases went
        exact Or.inr ⟨packetStart, packets, _, rfl, mode, behind⟩
      · obtain ⟨next, went, bytes, key, four, between⟩ :=
          within.takes_last plain returns content recognised last
        rw [took] at went
        cases went
        refine Or.inl ⟨_, between, ?_⟩
        intro start same
        cases same
        refine ⟨?_, four⟩
        have size : partsSize (parts ++ [body]) = state.header.mainKey.toNat := by
          rw [partsSize_append, partsSize_cons, partsSize_nil]
          omega
        rw [declaredEnd, key, within.start, encodeStream_append, encodeStream_cons, encodeStream_nil,
          List.append_nil, List.length_append, encodePacket_length, size, sizeKey, Nat.add_assoc]

/-- A tracked point is contained. -/
theorem tracks_contained (plain : parser.keys = plainKeys) (sound : ¬ Overruns parser msg.bytes)
    {point : LoopPoint κ} (tracked : Tracks parser msg point) :
    point.Contained parser handlers msg := by
  cases point with
  | top packetStart state =>
      cases packetStart with
      | none => trivial
      | some start =>
          rcases tracked with ⟨packets, between, closed⟩ | ⟨_, packets, parts, same, inside, within⟩
          · obtain ⟨ends, four⟩ := closed start rfl
            have read := between.bytesRead
            refine ⟨⟨?_, ?_⟩, ?_⟩
            · rw [read, ends]
            · rw [read, ends, four, Nat.sub_self]
              rfl
            · intro _
              rw [read, ends]
          · cases same
            refine ⟨within.counterExact, ?_⟩
            intro fromMainKey
            rw [inside] at fromMainKey
            cases fromMainKey
  | part start state =>
      obtain ⟨packets, parts, within⟩ := tracked
      refine ⟨within.counterExact, ?_⟩
      intro call called
      obtain ⟨body, later, content, rfl⟩ := takePart_called plain within.valid called
      have inside := within.ends_inside content sound
      rw [within.bytesRead, declaredEnd, callBody_callFor, sizeKey]
      omega

theorem contained_of_not_overruns (plain : parser.keys = plainKeys)
    (returns : AllReturn (behaviourOf handlers)) (valid : msg.Valid)
    (sound : ¬ Overruns parser msg.bytes) {point : LoopPoint κ}
    (visited : Visits parser handlers msg point) : point.Contained parser handlers msg := by
  apply tracks_contained plain sound
  apply Reaches.invariant (motive := Tracks parser msg) _ _ visited
  · refine Or.inl ⟨[], ⟨valid, rfl, by simp [AllRecognised], rfl⟩, ?_⟩
    intro start absent
    cases absent
  · intro earlier later label _ tracked _ taken
    cases earlier with
    | top packetStart state => exact tracks_top plain sound tracked taken
    | part packetStart state => exact tracks_part plain returns sound tracked taken

/-! ### Backward: an overrun is come to -/

theorem visits_open {packetStart : Option Nat} {state later : ParseState κ}
    (visited : Visits parser handlers msg (.top packetStart state))
    (fromMainKey : state.readStartFromMainKey = true) (began : beginPacket parser state = .next later) :
    Visits parser handlers msg (.part (bytesRead msg state) later) := by
  have taken : LoopPoint.step parser handlers msg (.top packetStart state) () =
      some (.part (bytesRead msg state) later) := by
    simp only [LoopPoint.step, began, fromMainKey, if_true]
  exact Reaches.step visited rfl taken

theorem visits_taken {packetStart : Nat} {state later : ParseState κ}
    (visited : Visits parser handlers msg (.part packetStart state))
    (took : takePart parser handlers state = .next later) :
    Visits parser handlers msg (.top (some packetStart) later) := by
  have taken : LoopPoint.step parser handlers msg (.part packetStart state) () =
      some (.top (some packetStart) later) := by
    simp only [LoopPoint.step, took]
  exact Reaches.step visited rfl taken

/-- The top of an iteration inside a packet leads to its next part. -/
theorem visits_inside {packetStart : Nat} {state : ParseState κ}
    (visited : Visits parser handlers msg (.top (some packetStart) state))
    (inside : state.readStartFromMainKey = false) :
    Visits parser handlers msg (.part packetStart state) := by
  have same : beginPacket parser state = .next state := by
    simp only [beginPacket, inside]
    rfl
  have taken : LoopPoint.step parser handlers msg (.top (some packetStart) state) () =
      some (.part packetStart state) := by
    simp only [LoopPoint.step, same, inside]
    rfl
  exact Reaches.step visited rfl taken

/-- Recognised parts that do not reach the declared end are taken one after the other. -/
theorem visits_parts (plain : parser.keys = plainKeys) (returns : AllReturn (behaviourOf handlers))
    {packetStart : Nat} {packets : List (List (List UInt8))} {rest : List UInt8}
    (more : List (List UInt8)) {parts : List (List UInt8)} {state : ParseState κ}
    (visited : Visits parser handlers msg (.part packetStart state))
    (within : InPacket parser msg packetStart packets parts state)
    (content : state.msg.bytes = more.flatMap (encodePart plainCodec) ++ rest)
    (known : ∀ body ∈ more, Recognised parser body)
    (room : more = [] ∨ partsSize parts + partsSize more < state.header.mainKey.toNat) :
    ∃ later, Visits parser handlers msg (.part packetStart later) ∧ later.msg.bytes = rest ∧
      later.header.mainKey = state.header.mainKey ∧
      InPacket parser msg packetStart packets (parts ++ more) later := by
  induction more generalizing parts state with
  | nil =>
      rw [List.append_nil]
      exact ⟨state, visited, content, rfl, within⟩
  | cons body more inductionHypothesis =>
      have smaller : partsSize parts + partsSize (body :: more) < state.header.mainKey.toNat := by
        rcases room with absent | smaller
        · cases absent
        · exact smaller
      rw [partsSize_cons] at smaller
      rw [List.flatMap_cons, List.append_assoc] at content
      obtain ⟨next, took, bytes, key, mode, behind⟩ := within.takes_inside plain returns content
        (known body (List.mem_cons_self ..)) (by omega)
      have nextVisited := visits_inside (visits_taken visited took) mode
      obtain ⟨later, laterVisited, laterBytes, laterKey, laterWithin⟩ :=
        inductionHypothesis nextVisited behind bytes
          (fun other member => known other (List.mem_cons_of_mem _ member)) (by
            rw [key, partsSize_append, partsSize_cons, partsSize_nil]
            exact Or.inr (by omega))
      refine ⟨later, laterVisited, laterBytes, laterKey.trans key, ?_⟩
      rw [List.append_assoc] at laterWithin
      exact laterWithin

/-- A whole packet with recognised parts is taken, and the loop is between packets again. -/
theorem visits_packet (plain : parser.keys = plainKeys) (returns : AllReturn (behaviourOf handlers))
    {rest : List UInt8} {packet : List (List UInt8)} {packets : List (List (List UInt8))}
    {packetStart : Option Nat} {state : ParseState κ}
    (visited : Visits parser handlers msg (.top packetStart state))
    (between : BetweenPackets parser msg packets state)
    (content : state.msg.bytes = encodePacket plainCodec packet ++ rest)
    (nonempty : packet ≠ []) (recognised : ∀ body ∈ packet, Recognised parser body) :
    ∃ start later, Visits parser handlers msg (.top start later) ∧ later.msg.bytes = rest ∧
      BetweenPackets parser msg (packets ++ [packet]) later := by
  obtain ⟨front, last, split⟩ := (List.eq_nil_or_concat packet).resolve_left nonempty
  rw [List.concat_eq_append] at split
  subst split
  have maxSize := MessageBuffer.maxBufferSize_eq
  have size := between.valid.size_le
  rw [← MessageBuffer.bytes_length, content, List.length_append, encodePacket_length] at size
  have whole : partsSize (front ++ [last]) = partsSize front + (4 + last.length) := by
    rw [partsSize_append, partsSize_cons, partsSize_nil]
    omega
  have key : (plainCodec.mainKey (partsSize (front ++ [last]))).toNat = partsSize (front ++ [last]) :=
    u32_ofNat_toNat (by omega)
  have counter : (plainCodec.mainKey (partsSize (front ++ [last])) + 4).toNat =
      partsSize (front ++ [last]) + 4 := by
    rw [UInt32.toNat_add, key]
    exact Nat.mod_eq_of_lt (by change _ + 4 < _; omega)
  -- The main key, all parts but the last, the last part, and what is behind the packet.
  rw [encodePacket, List.append_assoc, List.flatMap_append, List.append_assoc] at content
  obtain ⟨opened, began, bytes, mainKey, within⟩ := between.opens plain content
    (by
      rw [List.length_append, flatMap_encodePart_length, List.length_append,
        flatMap_encodePart_length, partsSize_cons, sizeKey]
      omega)
    (by
      rw [counter, List.length_append, flatMap_encodePart_length, List.length_append,
        flatMap_encodePart_length, whole, partsSize_cons, partsSize_nil, sizeKey]
      omega)
    (by omega)
  obtain ⟨beforeLast, lastVisited, lastBytes, lastKey, lastWithin⟩ :=
    visits_parts plain returns front (visits_open visited between.fromMainKey began) within bytes
      (fun body member => recognised body (List.mem_append_left _ member)) (by
        rw [mainKey, key, whole, partsSize_nil]
        exact Or.inr (by omega))
  rw [List.flatMap_singleton] at lastBytes
  obtain ⟨next, took, nextBytes, -, -, nextBetween⟩ := lastWithin.takes_last plain returns lastBytes
    (recognised last (by simp)) (by
      rw [lastKey, mainKey, key, whole, List.nil_append])
  exact ⟨_, next, visits_taken lastVisited took, nextBytes, nextBetween⟩

/-- Whole packets with recognised parts are taken one after the other. -/
theorem visits_packets (plain : parser.keys = plainKeys) (returns : AllReturn (behaviourOf handlers))
    {rest : List UInt8} (more : List (List (List UInt8))) {packets : List (List (List UInt8))}
    {packetStart : Option Nat} {state : ParseState κ}
    (visited : Visits parser handlers msg (.top packetStart state))
    (between : BetweenPackets parser msg packets state)
    (content : state.msg.bytes = encodeStream plainCodec more ++ rest)
    (known : AllRecognised parser more) :
    ∃ start later, Visits parser handlers msg (.top start later) ∧ later.msg.bytes = rest ∧
      BetweenPackets parser msg (packets ++ more) later := by
  induction more generalizing packets packetStart state with
  | nil =>
      rw [List.append_nil]
      exact ⟨packetStart, state, visited, content, between⟩
  | cons packet more inductionHypothesis =>
      obtain ⟨nonempty, recognised⟩ := known packet (List.mem_cons_self ..)
      rw [encodeStream_cons, List.append_assoc] at content
      obtain ⟨_, next, nextVisited, nextBytes, nextBetween⟩ :=
        visits_packet plain returns visited between content nonempty recognised
      obtain ⟨start, later, laterVisited, laterBytes, laterBetween⟩ :=
        inductionHypothesis nextVisited nextBetween nextBytes
          (fun other member => known other (List.mem_cons_of_mem _ member))
      refine ⟨start, later, laterVisited, laterBytes, ?_⟩
      rw [List.append_assoc] at laterBetween
      exact laterBetween

/-- On an input that overruns a packet the loop comes to a point that is not contained. -/
theorem not_contained_of_overruns (plain : parser.keys = plainKeys)
    (returns : AllReturn (behaviourOf handlers)) (valid : msg.Valid)
    (overruns : Overruns parser msg.bytes) :
    ∃ point, Visits parser handlers msg point ∧ ¬ point.Contained parser handlers msg := by
  obtain ⟨packets, mainKey, rest, known, packet, content⟩ := overruns
  obtain ⟨start, state, visited, bytes, between⟩ :=
    visits_packets plain returns packets Reaches.start
      (⟨valid, rfl, by simp [AllRecognised], rfl⟩ : BetweenPackets parser msg [] (loopEntry msg))
      content known
  by_cases wraps : 2 ^ 32 ≤ mainKey.toNat + 4
  · obtain ⟨opened, began, -, -, key, total, -⟩ := beginPacket_opens plain between.valid
      between.fromMainKey bytes packet.partThere packet.arrived
    refine ⟨_, visits_open visited between.fromMainKey began, ?_⟩
    rintro ⟨exact, -⟩
    -- The wrapped counter is below the size of a key.
    have counter := exact.counter
    have bound : mainKey.toNat < 2 ^ 32 := mainKey.toNat_lt
    have wrapped : (mainKey + 4).toNat = mainKey.toNat + 4 - 2 ^ 32 := by
      rw [UInt32.toNat_add]
      change (mainKey.toNat + 4) % 2 ^ 32 = _
      omega
    rw [total, wrapped, sizeKey] at counter
    omega
  · obtain ⟨opened, began, openedBytes, key, within⟩ := between.opens plain bytes packet.partThere
      packet.arrived (by omega)
    rcases packet.overrun with absurdly | ⟨parts, body, later, knownParts, room, passes, rfl⟩
    · exact absurd absurdly wraps
    · obtain ⟨last, lastVisited, lastBytes, lastKey, lastWithin⟩ :=
        visits_parts plain returns parts (visits_open visited between.fromMainKey began) within
          openedBytes knownParts (by rw [key, partsSize_nil, Nat.zero_add]; exact room)
      refine ⟨_, lastVisited, ?_⟩
      rintro ⟨-, inside⟩
      obtain ⟨behind, -, -, took⟩ := takePart_whole handlers plain lastWithin.valid lastBytes
      have calls := callHandler_calls parser handlers
        (behindPart last body.length behind) (encodePart_fits lastWithin.valid lastBytes)
      have ends := inside (callFor parser body) (by rw [took]; exact calls)
      rw [lastWithin.bytesRead, callBody_callFor, declaredEnd, lastKey, key, List.nil_append,
        sizeKey] at ends
      omega

/-! ### The parser the lobby acceptor installs -/

/-- The client-facing parser keeps the parts of every packet inside it exactly on the inputs that overrun no
    packet. -/
theorem packets_contained_iff {J : Type} (parseJson : List UInt8 → Option J) (user : Bool)
    (beyond : List UInt8) (msg : MessageBuffer) (valid : msg.Valid) :
    (∀ point, Visits packetParserNotUseEncTest (lobbyHandlers parseJson user beyond) msg point →
        point.Contained packetParserNotUseEncTest (lobbyHandlers parseJson user beyond) msg) ↔
      ¬ Overruns packetParserNotUseEncTest msg.bytes := by
  have returns : AllReturn (behaviourOf (lobbyHandlers parseJson user beyond)) :=
    fun kind body fits => lobbyHandlers_return parseJson user beyond kind fits
  constructor
  · intro contained overruns
    obtain ⟨point, visited, outside⟩ := not_contained_of_overruns rfl returns valid overruns
    exact outside (contained point visited)
  · intro sound point visited
    exact contained_of_not_overruns rfl returns valid sound visited

/-- A heartbeat in a packet that declares one byte. -/
theorem overruns_heartBeat : Overruns packetParserNotUseEncTest [1, 0, 0, 0, 1, 0, 0, 0, 3] := by
  refine ⟨[], 1, [1, 0, 0, 0, 3], by simp [AllRecognised], ⟨by decide, by decide, Or.inr ?_⟩, by decide⟩
  exact ⟨[], [3], [], by simp, Or.inl rfl, by decide, by decide⟩

/-- The same heartbeat with its size declared. -/
theorem not_overruns_heartBeat : ¬ Overruns packetParserNotUseEncTest [5, 0, 0, 0, 1, 0, 0, 0, 3] := by
  rintro ⟨packets, mainKey, rest, known, packet, content⟩
  have length := congrArg List.length content
  have partThere := packet.partThere
  simp only [List.length_append, u32Bytes_length, List.length_cons, List.length_nil] at length
  rw [sizeKey] at partThere
  cases packets with
  | cons first packets =>
      have size := partsSize_ge (known first (List.mem_cons_self ..)).1
      rw [encodeStream_cons, List.length_append, encodePacket_length] at length
      omega
  | nil =>
      have key : mainKey = 5 := by
        have front := congrArg (fun bytes => u32Of (bytes.take 4)) content
        rw [encodeStream_nil, List.nil_append] at front
        simp only [List.take_left' (u32Bytes_length mainKey), u32Of_u32Bytes] at front
        exact front.symm.trans (by decide)
      rw [encodeStream_nil, List.length_nil] at length
      rcases packet.overrun with wraps | ⟨parts, body, later, -, -, passes, rfl⟩
      · rw [key] at wraps
        exact absurd wraps (by decide)
      · have five : (5 : UInt32).toNat = 5 := rfl
        rw [key, five] at passes
        rw [List.length_append, List.length_append, flatMap_encodePart_length, encodePart_length] at length
        omega

/-- The body of that heartbeat ends four bytes behind the end of its packet. -/
theorem heartBeat_leaves_its_packet :
    ¬ ∀ point, Visits packetParserNotUseEncTest (lobbyHandlers (fun _ => some ()) true [])
        (.received [1, 0, 0, 0, 1, 0, 0, 0, 3]) point →
      point.Contained packetParserNotUseEncTest (lobbyHandlers (fun _ => some ()) true [])
        (.received [1, 0, 0, 0, 1, 0, 0, 0, 3]) := by
  intro contained
  have returns : AllReturn (behaviourOf (lobbyHandlers (fun _ => some ()) true [])) :=
    fun kind body fits => lobbyHandlers_return (fun _ => some ()) true [] kind fits
  have overruns := overruns_heartBeat
  rw [← MessageBuffer.received_bytes [1, 0, 0, 0, 1, 0, 0, 0, 3]] at overruns
  obtain ⟨point, visited, outside⟩ := not_contained_of_overruns rfl returns
    (MessageBuffer.received_valid (by decide)) overruns
  exact outside (contained point visited)

/-- The condition at work on these two inputs. -/
theorem packets_contained_iff_heartBeat :
    (¬ ∀ point, Visits packetParserNotUseEncTest (lobbyHandlers (fun _ => some ()) true [])
        (.received [1, 0, 0, 0, 1, 0, 0, 0, 3]) point →
      point.Contained packetParserNotUseEncTest (lobbyHandlers (fun _ => some ()) true [])
        (.received [1, 0, 0, 0, 1, 0, 0, 0, 3])) ∧
    ∀ point, Visits packetParserNotUseEncTest (lobbyHandlers (fun _ => some ()) true [])
        (.received [5, 0, 0, 0, 1, 0, 0, 0, 3]) point →
      point.Contained packetParserNotUseEncTest (lobbyHandlers (fun _ => some ()) true [])
        (.received [5, 0, 0, 0, 1, 0, 0, 0, 3]) := by
  rw [packets_contained_iff _ _ _ _ (MessageBuffer.received_valid (by decide)),
    packets_contained_iff _ _ _ _ (MessageBuffer.received_valid (by decide)),
    MessageBuffer.received_bytes, MessageBuffer.received_bytes, not_not]
  exact ⟨overruns_heartBeat, not_overruns_heartBeat⟩

end LobbySvr.Proofs

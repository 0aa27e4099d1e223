/-
Module: LobbySvr.Net.FrameParser
Layer: Net
Purpose: The `do { ... } while (true)` loop shared by the plain packet parsers.  The parsers of
  `net/packetParserSimple.cpp` and `lobbysvr/packetParserJson.cpp` differ in three places only: how a key
  is checked and its length taken out, how many bytes of the body the packet code has, and which codes
  have a handler.  These are the fields of `FrameParser`; one iteration is `frameStep`.
Imports: LobbySvr.Foundation.Words, LobbySvr.Foundation.StepLoop, LobbySvr.Net.MessageBuffer
Trusted boundary: human-reviewed embedding of the C++ source
Main exports: KeyFormat, FrameParser, Call, ParseState, ParseResult, frameStep, parse
Open obligations: none
-/
import LobbySvr.Foundation.Words
import LobbySvr.Foundation.StepLoop
import LobbySvr.Net.MessageBuffer

namespace LobbySvr.Net

open LobbySvr.Foundation

/-- `HEADER`.  The two keys are `int32_t` in the source; they are only masked, added to and compared, so
    their 32 bits are kept. -/
structure Header where
  mainKey : UInt32
  partKey : UInt32
deriving DecidableEq, Repr, Inhabited

/-- `sizeof(HEADER)`. -/
def sizeHeader : Nat := 8

/-- `sizeof(header.mainKey)` and `sizeof(header.partKey)`. -/
def sizeKey : Nat := 4

/-- How a parser checks its two keys and takes the lengths out of them. -/
structure KeyFormat where
  mainKeyOk : UInt32 → Bool
  mainLength : UInt32 → UInt32
  partKeyOk : UInt32 → Bool
  partLength : UInt32 → UInt32

/-- What distinguishes one parser of the family from another. -/
structure FrameParser (κ : Type) where
  keys : KeyFormat
  /-- `sizeof(packetCode)`. -/
  codeSize : Nat
  /-- The handler a packet code leads to, none when the source falls through to `noHandler`. -/
  route : UInt32 → Option κ

/-- A call made by the parse loop: a packet handler with its size argument and the bytes of its message,
    or the receiver's `noHandler`. -/
inductive Call (κ : Type) where
  | handler (kind : κ) (size : UInt32) (body : List UInt8)
  | noHandler (body : List UInt8)
deriving DecidableEq, Repr

/-- Packet handlers as the loop sees them: their result is ignored, so only the exception that escapes
    from one, if any, matters. -/
abbrev Handlers (κ : Type) := κ → UInt32 → MessageBuffer → Option Fault

/-- The local variables of the loop, the receive buffer, and the calls made so far. -/
structure ParseState (κ : Type) where
  readStartFromMainKey : Bool
  header : Header
  totalSize : UInt32
  msg : MessageBuffer
  calls : List (Call κ)

/-- How a parser ends. -/
inductive ParseEnd where
  | returned (result : Bool)
  | raised (fault : Fault)
deriving DecidableEq, Repr

/-- The end of a parser run, the receive buffer it leaves, and the calls it made. -/
structure ParseResult (κ : Type) where
  ending : ParseEnd
  msg : MessageBuffer
  calls : List (Call κ)

section

variable {κ : Type} (parser : FrameParser κ) (handlers : Handlers κ)

/-- The packet code at the front of a message; it stays zero when the message is too short. -/
def packetCode (codeSize : Nat) (procMsg : MessageBuffer) : UInt32 :=
  match procMsg.readableInto codeSize with
  | some copied => u32Of copied
  | none => 0

/-- The branch taken when `readStartFromMainKey` holds: peek at both keys, and step over the main key
    once the whole packet has arrived. -/
def beginPacket (state : ParseState κ) : LoopStep (ParseState κ) (ParseResult κ) :=
  if state.readStartFromMainKey then
    match state.msg.readableInto sizeHeader with
    | none => .done ⟨.returned true, state.msg, state.calls⟩
    | some copied =>
        let header : Header := ⟨u32Of (copied.take sizeKey), u32Of (copied.drop sizeKey)⟩
        if parser.keys.mainKeyOk header.mainKey then
          let totalSize := parser.keys.mainLength header.mainKey + 4
          if state.msg.readable totalSize.toNat then
            match state.msg.readCount sizeKey with
            | .error fault => .done ⟨.raised fault, state.msg, state.calls⟩
            | .ok msg => .next { state with header := header, totalSize := totalSize, msg := msg }
          else .done ⟨.returned true, state.msg, state.calls⟩
        else .done ⟨.returned false, state.msg.readAll, state.calls⟩
  else .next state

/-- The switch at the end of an iteration. -/
def callHandler (state : ParseState κ) (partBodySize : UInt32) (procMsg : MessageBuffer) :
    LoopStep (ParseState κ) (ParseResult κ) :=
  match parser.route (packetCode parser.codeSize procMsg) with
  | none =>
      .done ⟨.returned false, state.msg.readAll, state.calls ++ [.noHandler procMsg.bytes]⟩
  | some kind =>
      let calls := state.calls ++ [.handler kind partBodySize procMsg.bytes]
      match handlers kind partBodySize procMsg with
      | some fault => .done ⟨.raised fault, state.msg, calls⟩
      | none => .next { state with calls := calls }

/-- The rest of an iteration: read the part key, take the body out into a fresh message, and hand it on.
    The body is read into the storage of `procMsg` and then announced with `write`. -/
def takePart (state : ParseState κ) : LoopStep (ParseState κ) (ParseResult κ) :=
  match state.msg.read sizeKey with
  | .error fault => .done ⟨.raised fault, state.msg, state.calls⟩
  | .ok (copied, msg) =>
      let partKey := u32Of copied
      if parser.keys.partKeyOk partKey then
        let partBodySize := parser.keys.partLength partKey
        let partSize := partBodySize + 4
        if msg.readable partBodySize.toNat then
          let totalSize := state.totalSize - partSize
          match msg.read partBodySize.toNat with
          | .error fault => .done ⟨.raised fault, msg, state.calls⟩
          | .ok (body, msg) =>
              match MessageBuffer.empty.fill body with
              | .error fault => .done ⟨.raised fault, msg, state.calls⟩
              | .ok procMsg =>
                  callHandler parser handlers
                    { readStartFromMainKey := totalSize == 4
                      header := { state.header with partKey := partKey }
                      totalSize := totalSize
                      msg := msg
                      calls := state.calls }
                    partBodySize procMsg
        else .done ⟨.returned false, msg.readAll, state.calls⟩
      else .done ⟨.returned false, msg.readAll, state.calls⟩

/-- One iteration of the loop. -/
def frameStep (state : ParseState κ) : LoopStep (ParseState κ) (ParseResult κ) :=
  (beginPacket parser state).andThen (takePart parser handlers)

/-! ### Every iteration shortens the receive buffer -/

variable {parser handlers}

theorem beginPacket_size {state later : ParseState κ}
    (went : beginPacket parser state = .next later) : later.msg.size ≤ state.msg.size := by
  unfold beginPacket at went
  split at went
  · split at went
    · cases went
    · simp only at went
      split at went
      · split at went
        · split at went
          · cases went
          · rename_i moved
            have shorter := MessageBuffer.readCount_size moved
            cases went
            simp only
            omega
        · cases went
      · cases went
  · cases went
    exact Nat.le_refl _

theorem callHandler_msg {state later : ParseState κ} {partBodySize : UInt32}
    {procMsg : MessageBuffer}
    (went : callHandler parser handlers state partBodySize procMsg = .next later) :
    later.msg = state.msg := by
  unfold callHandler at went
  split at went
  · cases went
  · simp only at went
    split at went
    · cases went
    · cases went
      rfl

theorem takePart_size {state later : ParseState κ}
    (went : takePart parser handlers state = .next later) :
    later.msg.size + 4 ≤ state.msg.size := by
  unfold takePart at went
  split at went
  · cases went
  · rename_i keyRead
    have afterKey := MessageBuffer.read_size keyRead
    simp only at went
    split at went
    · split at went
      · split at went
        · cases went
        · rename_i bodyRead
          have afterBody := MessageBuffer.read_size bodyRead
          split at went
          · cases went
          · have same := callHandler_msg went
            rw [same]
            simp only [sizeKey] at afterKey ⊢
            omega
      · cases went
    · cases went

/-- An iteration that goes round again leaves the receive buffer at least four bytes shorter. -/
theorem frameStep_shortens {state later : ParseState κ}
    (went : frameStep parser handlers state = .next later) :
    later.msg.size + 4 ≤ state.msg.size := by
  unfold frameStep LoopStep.andThen at went
  split at went
  · rename_i middle entered
    have before := beginPacket_size entered
    have after := takePart_size went
    omega
  · cases went

theorem frameStep_decreases :
    Decreases (frameStep parser handlers) (fun state => state.msg.size) := by
  intro state later went
  have shorter : later.msg.size + 4 ≤ state.msg.size := frameStep_shortens went
  change later.msg.size < state.msg.size
  omega

end

/-- A parser called on a receive buffer.  `header` is not initialised by the source. -/
def parse {κ : Type} (parser : FrameParser κ) (handlers : Handlers κ) (msg : MessageBuffer) :
    ParseResult κ :=
  loop (frameStep parser handlers) (fun state => state.msg.size) frameStep_decreases
    { readStartFromMainKey := true, header := default, totalSize := 0, msg := msg, calls := [] }

end LobbySvr.Net

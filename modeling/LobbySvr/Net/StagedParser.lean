/-
Module: LobbySvr.Net.StagedParser
Layer: Net
Purpose: The loop of the packet parsers that do not hand on the body as it came.  An iteration is the same as in
  the plain parsers up to the point where the body has been announced; a parser of this family then has a
  stage of its own that makes the message for the handlers.  A stage, and the handlers, may change what
  they share with the connection, so a world is carried along, and a stage may keep the loop from ending.
Imports: LobbySvr.Net.FrameParser
Trusted boundary: human-reviewed embedding of the C++ source
Main exports: Surroundings, Fetched, Fetch, StagedState, StagedResult, takeKey, enterPart, stagedStep,
  StagedParse, plainFetch, AddsNothing, stagedStep_shortens, frameStep_staged, staged_parse
Open obligations: none
-/
import LobbySvr.Net.FrameParser

namespace LobbySvr.Net

open LobbySvr.Foundation

/-- The packet handlers and the receiver's `noHandler`, in a world that they may change. -/
structure Surroundings (κ ω : Type) where
  handler : κ → UInt32 → MessageBuffer → ω → Option Fault × ω
  noHandler : MessageBuffer → ω → Option Fault × ω

/-- What comes of the stage that makes `procMsg`. -/
inductive Fetched (ω : Type) where
  | procMsg (msg procMsg : MessageBuffer) (world : ω)
  /-- `continue`. -/
  | goesOn (msg : MessageBuffer) (world : ω)
  /-- `break`, a `return`, or an exception. -/
  | leaves (ending : ParseEnd) (msg : MessageBuffer) (world : ω)

/-- The stage, given `part_body_size` and the receive buffer with the body at its front. -/
abbrev Fetch (ω : Type) := UInt32 → MessageBuffer → ω → Fetched ω

structure StagedState (κ ω : Type) where
  parse : ParseState κ
  world : ω

structure StagedResult (κ ω : Type) where
  result : ParseResult κ
  world : ω

section

variable {κ ω : Type} (parser : FrameParser κ)

/-- From the part key to the point where the body is known to be there. -/
def takeKey (state : ParseState κ) : LoopStep (UInt32 × ParseState κ) (ParseResult κ) :=
  match state.msg.read sizeKey with
  | .error fault => .done ⟨.raised fault, state.msg, state.calls⟩
  | .ok (copied, msg) =>
      let partKey := u32Of copied
      if parser.keys.partKeyOk partKey then
        let partBodySize := parser.keys.partLength partKey
        let partSize := partBodySize + 4
        if msg.readable partBodySize.toNat then
          let totalSize := state.totalSize - partSize
          .next (partBodySize,
            { readStartFromMainKey := totalSize == 4
              header := { state.header with partKey := partKey }
              totalSize := totalSize
              msg := msg
              calls := state.calls })
        else .done ⟨.returned false, msg.readAll, state.calls⟩
      else .done ⟨.returned false, msg.readAll, state.calls⟩

/-- An iteration up to the body. -/
def enterPart (state : ParseState κ) : LoopStep (UInt32 × ParseState κ) (ParseResult κ) :=
  match beginPacket parser state with
  | .done result => .done result
  | .next state => takeKey parser state

variable (fetch : Fetch ω) (surroundings : Surroundings κ ω)

/-- The end of an iteration: look up the handler of the packet code and call it. -/
def callStaged (state : ParseState κ) (partBodySize : UInt32) (procMsg : MessageBuffer) (world : ω) :
    LoopStep (StagedState κ ω) (StagedResult κ ω) :=
  match parser.route (packetCode parser.codeSize procMsg) with
  | none =>
      let calls := state.calls ++ [.noHandler procMsg.bytes]
      match surroundings.noHandler procMsg world with
      | (some fault, world) => .done ⟨⟨.raised fault, state.msg, calls⟩, world⟩
      | (none, world) => .done ⟨⟨.returned false, state.msg.readAll, calls⟩, world⟩
  | some kind =>
      let calls := state.calls ++ [.handler kind partBodySize procMsg.bytes]
      match surroundings.handler kind partBodySize procMsg world with
      | (some fault, world) => .done ⟨⟨.raised fault, state.msg, calls⟩, world⟩
      | (none, world) => .next ⟨{ state with calls := calls }, world⟩

/-- One iteration. -/
def stagedStep (state : StagedState κ ω) : LoopStep (StagedState κ ω) (StagedResult κ ω) :=
  match enterPart parser state.parse with
  | .done result => .done ⟨result, state.world⟩
  | .next (partBodySize, entered) =>
      match fetch partBodySize entered.msg state.world with
      | .leaves ending msg world => .done ⟨⟨ending, msg, entered.calls⟩, world⟩
      | .goesOn msg world => .next ⟨{ entered with msg := msg }, world⟩
      | .procMsg msg procMsg world =>
          callStaged parser surroundings { entered with msg := msg } partBodySize procMsg world

/-- The state in which a parser enters its loop.  `header` is not initialised by the source. -/
def parseEntry (msg : MessageBuffer) : ParseState κ where
  readStartFromMainKey := true
  header := default
  totalSize := 0
  msg := msg
  calls := []

/-- A parser called on a receive buffer is left with a result. -/
def StagedParse (msg : MessageBuffer) (world : ω) : StagedResult κ ω → Prop :=
  LoopEnds (stagedStep parser fetch surroundings) ⟨parseEntry msg, world⟩

end

/-- The body as it came: it is read into the storage of `procMsg` and then announced with `write`. -/
def plainFetch {ω : Type} : Fetch ω := fun partBodySize msg world =>
  match msg.read partBodySize.toNat with
  | .error fault => .leaves (.raised fault) msg world
  | .ok (body, msg) =>
      match MessageBuffer.empty.fill body with
      | .error fault => .leaves (.raised fault) msg world
      | .ok procMsg => .procMsg msg procMsg world

/-! ### Every iteration shortens the receive buffer -/

section

variable {κ ω : Type} {parser : FrameParser κ} {fetch : Fetch ω} {surroundings : Surroundings κ ω}

theorem enterPart_size {state entered : ParseState κ} {size : UInt32}
    (enters : enterPart parser state = .next (size, entered)) :
    entered.msg.size + 4 ≤ state.msg.size := by
  unfold enterPart at enters
  split at enters
  · cases enters
  · rename_i middle begun
    have before := beginPacket_size begun
    unfold takeKey at enters
    split at enters
    · cases enters
    · rename_i keyRead
      have afterKey := MessageBuffer.read_size keyRead
      simp only [sizeKey] at enters afterKey
      split at enters
      · split at enters
        · cases enters
          simp only
          omega
        · cases enters
      · cases enters

/-- A stage behind which the receive buffer, where the loop goes on with it, is no longer than before. -/
structure AddsNothing (fetch : Fetch ω) : Prop where
  procMsg : ∀ {size msg world later procMsg after},
    fetch size msg world = .procMsg later procMsg after → later.size ≤ msg.size
  goesOn : ∀ {size msg world later after},
    fetch size msg world = .goesOn later after → later.size ≤ msg.size

theorem plainFetch_addsNothing : AddsNothing (plainFetch : Fetch ω) where
  procMsg := by
    intro size msg world later procMsg after fetched
    unfold plainFetch at fetched
    split at fetched
    · cases fetched
    · rename_i bodyRead
      have afterBody := MessageBuffer.read_size bodyRead
      split at fetched
      · cases fetched
      · cases fetched
        omega
  goesOn := by
    intro size msg world later after fetched
    unfold plainFetch at fetched
    split at fetched
    · cases fetched
    · split at fetched
      · cases fetched
      · cases fetched

theorem callStaged_msg {state : ParseState κ} {size : UInt32} {procMsg : MessageBuffer} {world : ω}
    {later : StagedState κ ω}
    (went : callStaged parser surroundings state size procMsg world = .next later) :
    later.parse.msg = state.msg := by
  unfold callStaged at went
  split at went
  · simp only at went
    split at went
    · cases went
    · cases went
  · simp only at went
    split at went
    · cases went
    · cases went
      rfl

/-- An iteration that goes round again, by `continue` or behind a handler, leaves the receive buffer at least
    four bytes shorter. -/
theorem stagedStep_shortens (adds : AddsNothing fetch) {state later : StagedState κ ω}
    (went : stagedStep parser fetch surroundings state = .next later) :
    later.parse.msg.size + 4 ≤ state.parse.msg.size := by
  unfold stagedStep at went
  split at went
  · cases went
  · rename_i size entered enters
    have front := enterPart_size enters
    split at went
    · cases went
    · rename_i fetched
      have body := adds.goesOn fetched
      cases went
      simp only
      omega
    · rename_i fetched
      have body := adds.procMsg fetched
      rw [callStaged_msg went]
      simp only
      omega

theorem stagedStep_decreases (adds : AddsNothing fetch) :
    Decreases (stagedStep parser fetch surroundings) (fun state => state.parse.msg.size) := by
  intro state later went
  have shorter := stagedStep_shortens adds went
  change later.parse.msg.size < state.parse.msg.size
  omega

end

/-! ### The plain parsers -/

section

variable {κ : Type} {parser : FrameParser κ} {handlers : Handlers κ}

/-- Handlers without a world, and a `noHandler` that returns. -/
def Surroundings.ofHandlers (handlers : Handlers κ) : Surroundings κ Unit where
  handler kind size procMsg _ := (handlers kind size procMsg, ())
  noHandler _ _ := (none, ())

/-- A step that carries the empty world along. -/
def inUnit : LoopStep (ParseState κ) (ParseResult κ) → LoopStep (StagedState κ Unit) (StagedResult κ Unit)
  | .next state => .next ⟨state, ()⟩
  | .done result => .done ⟨result, ()⟩

/-- The end of an iteration of the plain loop. -/
def takeBody (parser : FrameParser κ) (handlers : Handlers κ) (partBodySize : UInt32)
    (entered : ParseState κ) : LoopStep (ParseState κ) (ParseResult κ) :=
  match entered.msg.read partBodySize.toNat with
  | .error fault => .done ⟨.raised fault, entered.msg, entered.calls⟩
  | .ok (body, msg) =>
      match MessageBuffer.empty.fill body with
      | .error fault => .done ⟨.raised fault, msg, entered.calls⟩
      | .ok procMsg =>
          callHandler parser handlers { entered with msg := msg } partBodySize procMsg

theorem takePart_eq (state : ParseState κ) :
    takePart parser handlers state =
      match takeKey parser state with
      | .done result => .done result
      | .next (size, entered) => takeBody parser handlers size entered := by
  unfold takePart takeKey
  cases state.msg.read sizeKey with
  | error fault => rfl
  | ok result =>
      obtain ⟨copied, msg⟩ := result
      simp only
      split
      · split
        · rfl
        · rfl
      · rfl

/-- An iteration of the plain loop is its front, and the body. -/
theorem frameStep_eq (state : ParseState κ) :
    frameStep parser handlers state =
      match enterPart parser state with
      | .done result => .done result
      | .next (size, entered) => takeBody parser handlers size entered := by
  unfold frameStep enterPart
  cases beginPacket parser state with
  | done result => rfl
  | next middle => exact takePart_eq middle

theorem callHandler_staged (state : ParseState κ) (partBodySize : UInt32) (procMsg : MessageBuffer) :
    callStaged parser (.ofHandlers handlers) state partBodySize procMsg () =
      inUnit (callHandler parser handlers state partBodySize procMsg) := by
  unfold callStaged callHandler Surroundings.ofHandlers
  cases parser.route (packetCode parser.codeSize procMsg) with
  | none => rfl
  | some kind =>
      cases handled : handlers kind partBodySize procMsg with
      | none => simp only [handled, inUnit]
      | some fault => simp only [handled, inUnit]

/-- An iteration of the plain loop is one with the plain stage. -/
theorem frameStep_staged (state : ParseState κ) :
    stagedStep parser plainFetch (.ofHandlers handlers) ⟨state, ()⟩ =
      inUnit (frameStep parser handlers state) := by
  rw [frameStep_eq, stagedStep]
  cases enterPart parser state with
  | done result => rfl
  | next front =>
      obtain ⟨partBodySize, entered⟩ := front
      simp only [takeBody, plainFetch]
      cases entered.msg.read partBodySize.toNat with
      | error fault => rfl
      | ok result =>
          obtain ⟨body, msg⟩ := result
          simp only
          cases MessageBuffer.empty.fill body with
          | error fault => rfl
          | ok procMsg => exact callHandler_staged _ partBodySize procMsg

/-- The staged loop with the plain stage is left as the plain parser is. -/
theorem staged_parse (parser : FrameParser κ) (handlers : Handlers κ) (msg : MessageBuffer) :
    StagedParse parser plainFetch (.ofHandlers handlers) msg () ⟨parse parser handlers msg, ()⟩ := by
  have agree : ∀ (state : ParseState κ) (staged : StagedState κ Unit), staged = ⟨state, ()⟩ →
      StepsAgree (fun state staged => staged = ⟨state, ()⟩) (fun result staged => staged = ⟨result, ()⟩)
        (frameStep parser handlers state)
        (stagedStep parser plainFetch (.ofHandlers handlers) staged) := by
    rintro state _ rfl
    rw [frameStep_staged]
    cases frameStep parser handlers state with
    | next later => exact .next rfl
    | done result => exact .done rfl
  have decreases : Decreases (frameStep parser handlers) (fun state => state.msg.size) :=
    frameStep_decreases
  obtain ⟨result, ends, rfl⟩ := (loopEnds_loop decreases _).simulation agree rfl
  exact ends

end

end LobbySvr.Net

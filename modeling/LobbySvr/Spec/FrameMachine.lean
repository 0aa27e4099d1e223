/-
Module: LobbySvr.Spec.FrameMachine
Layer: Spec
Purpose: What a frame parser is for, said on byte strings.  A stream is cut into packets, a packet into
  parts, and each part body goes to the handler of its code.  The machine keeps only the bytes still to be
  read and, inside a packet, the running counter; storage, cursors and the stale local variables of the
  source are gone.  `LobbySvr.Proofs.FrameRefinement` shows that every parser of the family runs this
  machine.
Imports: LobbySvr.Net.FrameParser
Trusted boundary: none
Main exports: FrameState, FrameResult, Behaviour, partStep, machineStep, runMachine
Open obligations: none
-/
import LobbySvr.Net.FrameParser

namespace LobbySvr.Spec

open LobbySvr.Foundation
open LobbySvr.Net

/-- The bytes still to be read, the counter when the machine is inside a packet, and the calls made. -/
structure FrameState (κ : Type) where
  inside : Option UInt32
  rest : List UInt8
  calls : List (Call κ)

/-- How the machine stopped, the bytes it left, and the calls it made. -/
structure FrameResult (κ : Type) where
  ending : ParseEnd
  rest : List UInt8
  calls : List (Call κ)
deriving DecidableEq

/-- The same machine with calls already made before its own. -/
def FrameState.withCalls {κ : Type} (earlier : List (Call κ)) (state : FrameState κ) : FrameState κ :=
  { state with calls := earlier ++ state.calls }

/-- The same result with calls made before its own. -/
def FrameResult.withCalls {κ : Type} (earlier : List (Call κ)) (result : FrameResult κ) :
    FrameResult κ :=
  { result with calls := earlier ++ result.calls }

/-- The same machine with more bytes behind those it already has. -/
def FrameState.followedBy {κ : Type} (state : FrameState κ) (more : List UInt8) : FrameState κ :=
  { state with rest := state.rest ++ more }

/-- Handlers as functions of the body: the exception that escapes, if any. -/
abbrev Behaviour (κ : Type) := κ → UInt32 → List UInt8 → Option Fault

/-- The packet code of a body, zero when the body is too short to hold one. -/
def codeOf (codeSize : Nat) (body : List UInt8) : UInt32 :=
  if codeSize ≤ body.length then u32Of (body.take codeSize) else 0

section

variable {κ : Type} (parser : FrameParser κ) (behaviour : Behaviour κ)

/-- Hand one body on and continue with `later`, outside the packet when its counter has come down to the
    size of a key. -/
def handOn (total : UInt32) (size : UInt32) (body later : List UInt8) (calls : List (Call κ)) :
    LoopStep (FrameState κ) (FrameResult κ) :=
  match parser.route (codeOf parser.codeSize body) with
  | none => .done ⟨.returned false, [], calls ++ [.noHandler body]⟩
  | some kind =>
      match behaviour kind size body with
      | some fault => .done ⟨.raised fault, later, calls ++ [.handler kind size body]⟩
      | none =>
          .next ⟨if total = 4 then none else some total, later, calls ++ [.handler kind size body]⟩

/-- Take one part off the front of `rest`. -/
def partStep (total : UInt32) (rest : List UInt8) (calls : List (Call κ)) :
    LoopStep (FrameState κ) (FrameResult κ) :=
  if rest.length < sizeKey then
    .done ⟨.raised (.runtimeError MessageBuffer.cantReadableText), rest, calls⟩
  else if parser.keys.partKeyOk (u32Of (rest.take sizeKey)) then
    let size := parser.keys.partLength (u32Of (rest.take sizeKey))
    if (rest.drop sizeKey).length < size.toNat then .done ⟨.returned false, [], calls⟩
    else
      handOn parser behaviour (total - (size + 4)) size ((rest.drop sizeKey).take size.toNat)
        ((rest.drop sizeKey).drop size.toNat) calls
  else .done ⟨.returned false, [], calls⟩

/-- One step: between packets the main key is taken first. -/
def machineStep (state : FrameState κ) : LoopStep (FrameState κ) (FrameResult κ) :=
  match state.inside with
  | some total => partStep parser behaviour total state.rest state.calls
  | none =>
      if state.rest.length < sizeHeader then .done ⟨.returned true, state.rest, state.calls⟩
      else if parser.keys.mainKeyOk (u32Of (state.rest.take sizeKey)) then
        let total := parser.keys.mainLength (u32Of (state.rest.take sizeKey)) + 4
        if state.rest.length < total.toNat then .done ⟨.returned true, state.rest, state.calls⟩
        else partStep parser behaviour total (state.rest.drop sizeKey) state.calls
      else .done ⟨.returned false, [], state.calls⟩

variable {parser behaviour}

theorem handOn_rest {total size : UInt32} {body later : List UInt8} {calls : List (Call κ)}
    {state : FrameState κ} (went : handOn parser behaviour total size body later calls = .next state) :
    state.rest = later := by
  unfold handOn at went
  split at went
  · cases went
  · split at went
    · cases went
    · cases went
      rfl

theorem partStep_shortens {total : UInt32} {rest : List UInt8} {calls : List (Call κ)}
    {state : FrameState κ} (went : partStep parser behaviour total rest calls = .next state) :
    state.rest.length + 4 ≤ rest.length := by
  unfold partStep at went
  split at went
  · cases went
  · split at went
    · simp only at went
      split at went
      · cases went
      · rename_i enough _ _
        rw [handOn_rest went]
        simp only [List.length_drop, sizeKey] at enough ⊢
        omega
    · cases went

theorem machineStep_decreases :
    Decreases (machineStep parser behaviour) (fun state => state.rest.length) := by
  intro state later went
  change later.rest.length < state.rest.length
  unfold machineStep at went
  split at went
  · have shorter := partStep_shortens went
    omega
  · split at went
    · cases went
    · split at went
      · simp only at went
        split at went
        · cases went
        · have shorter := partStep_shortens went
          simp only [List.length_drop] at shorter
          omega
      · cases went

end

/-- The machine run to its end from any state. -/
def runMachine {κ : Type} (parser : FrameParser κ) (behaviour : Behaviour κ) (state : FrameState κ) :
    FrameResult κ :=
  loop (machineStep parser behaviour) (fun state => state.rest.length) machineStep_decreases state

/-- The machine run on a byte string, from between two packets. -/
def runFrames {κ : Type} (parser : FrameParser κ) (behaviour : Behaviour κ) (bytes : List UInt8) :
    FrameResult κ :=
  runMachine parser behaviour ⟨none, bytes, []⟩

end LobbySvr.Spec

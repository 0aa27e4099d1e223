/-
Module: LobbySvr.Proofs.FrameSteps
Layer: Proofs
Purpose: What one step of the frame machine can do, said once.  Going forward, a part or a main key at the
  front of the stream is taken off it; going backward, a step that went round again took exactly one part.
  The machine only ever appends to its calls and only ever looks at a prefix of its bytes.
Imports: LobbySvr.Spec.FrameMachine
Trusted boundary: none
Main exports: TakesPart, partStep_of_part, partStep_next, machineStep_of_mainKey, machineStep_of_part,
  machineStep_between, runMachine_next, runMachine_done, runMachine_calls
Open obligations: none
-/
import LobbySvr.Spec.FrameMachine

namespace LobbySvr.Proofs

open LobbySvr.Foundation
open LobbySvr.Net
open LobbySvr.Spec

variable {κ : Type} {parser : FrameParser κ} {behaviour : Behaviour κ}

/-- A key and a body of the length the key declares, with a code that has a handler which returns. -/
structure TakesPart (parser : FrameParser κ) (behaviour : Behaviour κ) (key body : List UInt8)
    (kind : κ) : Prop where
  keyLength : key.length = sizeKey
  keyOk : parser.keys.partKeyOk (u32Of key) = true
  bodyLength : body.length = (parser.keys.partLength (u32Of key)).toNat
  routed : parser.route (codeOf parser.codeSize body) = some kind
  returns : behaviour kind (parser.keys.partLength (u32Of key)) body = none

/-- The machine after a part: between packets when the counter has come down to four. -/
def afterPart (total size : UInt32) (kind : κ) (body later : List UInt8) (calls : List (Call κ)) :
    FrameState κ :=
  ⟨if total - (size + 4) = 4 then none else some (total - (size + 4)), later,
    calls ++ [.handler kind size body]⟩

/-! ### Forward -/

/-- A part whose declared bytes have arrived is handed on. -/
theorem partStep_eq_handOn {key body : List UInt8} (keyLength : key.length = sizeKey)
    (keyOk : parser.keys.partKeyOk (u32Of key) = true)
    (bodyLength : body.length = (parser.keys.partLength (u32Of key)).toNat)
    (total : UInt32) (later : List UInt8) (calls : List (Call κ)) :
    partStep parser behaviour total (key ++ (body ++ later)) calls =
      handOn parser behaviour (total - (parser.keys.partLength (u32Of key) + 4))
        (parser.keys.partLength (u32Of key)) body later calls := by
  have enough : ¬ (key ++ (body ++ later)).length < sizeKey := by simp [keyLength]
  have arrived : ¬ (body ++ later).length < (parser.keys.partLength (u32Of key)).toNat := by
    simp [bodyLength]
  simp only [partStep, if_neg enough, List.take_left' keyLength, List.drop_left' keyLength, keyOk,
    if_true, if_neg arrived, List.take_left' bodyLength, List.drop_left' bodyLength]

theorem partStep_of_part {key body : List UInt8} {kind : κ}
    (part : TakesPart parser behaviour key body kind) (total : UInt32) (later : List UInt8)
    (calls : List (Call κ)) :
    partStep parser behaviour total (key ++ (body ++ later)) calls =
      .next (afterPart total (parser.keys.partLength (u32Of key)) kind body later calls) := by
  rw [partStep_eq_handOn part.keyLength part.keyOk part.bodyLength]
  simp only [handOn, part.routed, part.returns, afterPart]

theorem machineStep_of_part {key body : List UInt8} {kind : κ}
    (part : TakesPart parser behaviour key body kind) (total : UInt32) (later : List UInt8)
    (calls : List (Call κ)) :
    machineStep parser behaviour ⟨some total, key ++ (body ++ later), calls⟩ =
      .next (afterPart total (parser.keys.partLength (u32Of key)) kind body later calls) :=
  partStep_of_part part total later calls

/-- A main key whose declared bytes have arrived opens its packet. -/
theorem machineStep_of_mainKey {key rest : List UInt8} (keyLength : key.length = sizeKey)
    (keyOk : parser.keys.mainKeyOk (u32Of key) = true) (partThere : sizeKey ≤ rest.length)
    (arrived : (parser.keys.mainLength (u32Of key) + 4).toNat ≤ (key ++ rest).length)
    (calls : List (Call κ)) :
    machineStep parser behaviour ⟨none, key ++ rest, calls⟩ =
      partStep parser behaviour (parser.keys.mainLength (u32Of key) + 4) rest calls := by
  have headerThere : ¬ (key ++ rest).length < sizeHeader := by
    simp only [List.length_append, keyLength, sizeHeader, sizeKey] at partThere ⊢
    omega
  simp only [machineStep, if_neg headerThere, List.take_left' keyLength,
    List.drop_left' keyLength, keyOk, if_true, if_neg (Nat.not_lt_of_le arrived)]

/-! ### Backward -/

/-- A part step that goes round again has taken one part off the front. -/
theorem partStep_next {total : UInt32} {rest : List UInt8} {calls : List (Call κ)}
    {state : FrameState κ} (went : partStep parser behaviour total rest calls = .next state) :
    ∃ key body later kind, TakesPart parser behaviour key body kind ∧
      rest = key ++ (body ++ later) ∧
      state = afterPart total (parser.keys.partLength (u32Of key)) kind body later calls := by
  by_cases short : rest.length < sizeKey
  · simp [partStep, short] at went
  by_cases keyOk : parser.keys.partKeyOk (u32Of (rest.take sizeKey)) = true
  · by_cases late : (rest.drop sizeKey).length <
        (parser.keys.partLength (u32Of (rest.take sizeKey))).toNat
    · simp only [partStep, if_neg short, keyOk, if_true, if_pos late] at went
      cases went
    · have keyLength : (rest.take sizeKey).length = sizeKey :=
        List.length_take_of_le (Nat.le_of_not_lt short)
      have bodyLength := List.length_take_of_le (Nat.le_of_not_lt late)
      have split : rest = rest.take sizeKey ++
          ((rest.drop sizeKey).take (parser.keys.partLength (u32Of (rest.take sizeKey))).toNat ++
            (rest.drop sizeKey).drop (parser.keys.partLength (u32Of (rest.take sizeKey))).toNat) := by
        rw [List.take_append_drop, List.take_append_drop]
      rw [split, partStep_eq_handOn keyLength keyOk bodyLength, handOn] at went
      split at went
      · cases went
      · rename_i kind routed
        split at went
        · cases went
        · rename_i returns
          cases went
          exact ⟨_, _, _, kind, ⟨keyLength, keyOk, bodyLength, routed, returns⟩, split, rfl⟩
  · simp only [partStep, if_neg short, keyOk] at went
    cases went

/-- A main key at the front of the stream, with everything it declares. -/
structure OpensPacket (parser : FrameParser κ) (key rest : List UInt8) : Prop where
  keyLength : key.length = sizeKey
  keyOk : parser.keys.mainKeyOk (u32Of key) = true
  partThere : sizeKey ≤ rest.length
  arrived : (parser.keys.mainLength (u32Of key) + 4).toNat ≤ (key ++ rest).length

/-- Between packets the machine stops, rejects the stream, or opens a packet. -/
theorem machineStep_between (rest : List UInt8) (calls : List (Call κ)) :
    (machineStep parser behaviour ⟨none, rest, calls⟩ = .done ⟨.returned true, rest, calls⟩ ∧
        (rest.length < sizeHeader ∨
          rest.length < (parser.keys.mainLength (u32Of (rest.take sizeKey)) + 4).toNat)) ∨
      machineStep parser behaviour ⟨none, rest, calls⟩ = .done ⟨.returned false, [], calls⟩ ∨
      ∃ key later, rest = key ++ later ∧ OpensPacket parser key later ∧
        machineStep parser behaviour ⟨none, rest, calls⟩ =
          partStep parser behaviour (parser.keys.mainLength (u32Of key) + 4) later calls := by
  by_cases short : rest.length < sizeHeader
  · left
    simp [machineStep, short]
  by_cases keyOk : parser.keys.mainKeyOk (u32Of (rest.take sizeKey)) = true
  · by_cases late : rest.length < (parser.keys.mainLength (u32Of (rest.take sizeKey)) + 4).toNat
    · left
      simp only [machineStep, if_neg short, keyOk, if_true, if_pos late]
      exact ⟨trivial, Or.inr late⟩
    · right; right
      have keyLength : (rest.take sizeKey).length = sizeKey := by
        simp only [List.length_take, sizeHeader, sizeKey] at short ⊢
        omega
      have partThere : sizeKey ≤ (rest.drop sizeKey).length := by
        simp only [List.length_drop, sizeHeader, sizeKey] at short ⊢
        omega
      have opens : OpensPacket parser (rest.take sizeKey) (rest.drop sizeKey) :=
        ⟨keyLength, keyOk, partThere, by simpa using Nat.le_of_not_lt late⟩
      refine ⟨_, _, (List.take_append_drop sizeKey rest).symm, opens, ?_⟩
      simp only [machineStep, if_neg short, keyOk, if_true, if_neg late]
  · right; left
    simp only [machineStep, if_neg short, keyOk]
    rfl

/-! ### Whole runs -/

theorem runMachine_next {state later : FrameState κ}
    (went : machineStep parser behaviour state = .next later) :
    runMachine parser behaviour state = runMachine parser behaviour later :=
  loop_next machineStep_decreases went

theorem runMachine_done {state : FrameState κ} {result : FrameResult κ}
    (left : machineStep parser behaviour state = .done result) :
    runMachine parser behaviour state = result :=
  loop_done machineStep_decreases left

/-- Two states with the same next step have the same run. -/
theorem runMachine_congr {state other : FrameState κ}
    (same : machineStep parser behaviour state = machineStep parser behaviour other) :
    runMachine parser behaviour state = runMachine parser behaviour other := by
  cases step : machineStep parser behaviour other with
  | next later => rw [runMachine_next (same.trans step), runMachine_next step]
  | done result => rw [runMachine_done (same.trans step), runMachine_done step]

/-- A packet that has arrived is entered through its main key. -/
theorem runMachine_open {key rest : List UInt8} (opens : OpensPacket parser key rest)
    (calls : List (Call κ)) :
    runMachine parser behaviour ⟨none, key ++ rest, calls⟩ =
      runMachine parser behaviour ⟨some (parser.keys.mainLength (u32Of key) + 4), rest, calls⟩ :=
  runMachine_congr
    (machineStep_of_mainKey opens.keyLength opens.keyOk opens.partThere opens.arrived calls)

theorem partStep_calls (earlier : List (Call κ)) (total : UInt32) (rest : List UInt8)
    (calls : List (Call κ)) :
    StepsAgree (fun later state => later = FrameState.withCalls earlier state)
      (fun later result => later = FrameResult.withCalls earlier result)
      (partStep parser behaviour total rest (earlier ++ calls))
      (partStep parser behaviour total rest calls) := by
  unfold partStep
  split
  · exact .done rfl
  · split
    · simp only
      split
      · exact .done rfl
      · unfold handOn
        split
        · exact .done (by simp [FrameResult.withCalls])
        · split
          · exact .done (by simp [FrameResult.withCalls])
          · exact .next (by simp [FrameState.withCalls])
    · exact .done rfl

theorem machineStep_calls (earlier : List (Call κ)) (state : FrameState κ) :
    StepsAgree (fun later state => later = FrameState.withCalls earlier state)
      (fun later result => later = FrameResult.withCalls earlier result)
      (machineStep parser behaviour (FrameState.withCalls earlier state))
      (machineStep parser behaviour state) := by
  obtain ⟨inside, rest, calls⟩ := state
  cases inside with
  | some total => exact partStep_calls earlier total rest calls
  | none =>
      have front : FrameState.withCalls earlier ⟨none, rest, calls⟩ =
          ⟨none, rest, earlier ++ calls⟩ := rfl
      rw [front]
      by_cases short : rest.length < sizeHeader
      · simp only [machineStep, if_pos short]
        exact .done rfl
      · by_cases keyOk : parser.keys.mainKeyOk (u32Of (rest.take sizeKey)) = true
        · by_cases late :
              rest.length < (parser.keys.mainLength (u32Of (rest.take sizeKey)) + 4).toNat
          · simp only [machineStep, if_neg short, if_pos keyOk, if_pos late]
            exact .done rfl
          · simp only [machineStep, if_neg short, if_pos keyOk, if_neg late]
            exact partStep_calls earlier _ _ calls
        · simp only [machineStep, if_neg short, if_neg keyOk]
          exact .done rfl

/-- The calls made before a run only stand in front of those the run makes. -/
theorem runMachine_calls (earlier : List (Call κ)) (state : FrameState κ) :
    runMachine parser behaviour (FrameState.withCalls earlier state) =
      FrameResult.withCalls earlier (runMachine parser behaviour state) := by
  have agree : ∀ later state, later = FrameState.withCalls earlier state →
      StepsAgree (fun later state => later = FrameState.withCalls earlier state)
        (fun later result => later = FrameResult.withCalls earlier result)
        (machineStep parser behaviour later) (machineStep parser behaviour state) := by
    rintro _ state rfl
    exact machineStep_calls earlier state
  exact loop_simulation machineStep_decreases machineStep_decreases agree rfl

end LobbySvr.Proofs

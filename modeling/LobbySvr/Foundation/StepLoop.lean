/-
Module: LobbySvr.Foundation.StepLoop
Layer: Foundation
Purpose: Loops given by one iteration.  An iteration either goes round again in a new state or leaves the
  loop with a result.  A loop whose iterations lower a measure is a total function, obeys its unfolding
  equation, and has an induction rule and a simulation rule.  A loop without one is a relation between
  the state it is entered in and the result it is left with.
Imports: Mathlib tactics only
Trusted boundary: none
Main exports: LoopStep, runLoop, Decreases, loop, loop_rule, StepsAgree, StepsAgree.of_next,
  StepsAgree.of_done, loop_simulation, LoopEnds, LoopReaches, LoopEnds.unique, loopEnds_loop,
  LoopEnds.simulation
Open obligations: none
-/
import Mathlib.Tactic.Common

namespace LobbySvr.Foundation

/-- What one iteration does: go round again, or leave the loop. -/
inductive LoopStep (σ ρ : Type) where
  | next (state : σ)
  | done (result : ρ)

/-- One stage of an iteration after another; leaving in the first stage leaves the iteration. -/
def LoopStep.andThen {σ ρ : Type} (first : LoopStep σ ρ) (rest : σ → LoopStep σ ρ) : LoopStep σ ρ :=
  match first with
  | .next state => rest state
  | .done result => .done result

/-- At most `fuel` iterations. -/
def runLoop {σ ρ : Type} (step : σ → LoopStep σ ρ) : Nat → σ → Option ρ
  | 0, _ => none
  | fuel + 1, state =>
      match step state with
      | .done result => some result
      | .next later => runLoop step fuel later

/-- Every iteration that goes round again lowers the measure. -/
def Decreases {σ ρ : Type} (step : σ → LoopStep σ ρ) (measure : σ → Nat) : Prop :=
  ∀ state later, step state = .next later → measure later < measure state

section

variable {σ ρ : Type} {step : σ → LoopStep σ ρ} {measure : σ → Nat}

theorem runLoop_isSome (decreases : Decreases step measure) :
    ∀ (fuel : Nat) (state : σ), measure state < fuel → (runLoop step fuel state).isSome
  | 0, _, bound => absurd bound (Nat.not_lt_zero _)
  | fuel + 1, state, bound => by
      rw [runLoop]
      cases iteration : step state with
      | done result => rfl
      | next later =>
          have lower := decreases state later iteration
          exact runLoop_isSome decreases fuel later (by omega)

/-- The result of a loop does not depend on how much fuel beyond the need it is given. -/
theorem runLoop_mono : ∀ {fuel more : Nat} {state : σ} {result : ρ}, fuel ≤ more →
    runLoop step fuel state = some result → runLoop step more state = some result
  | 0, _, _, _, _, ran => by simp [runLoop] at ran
  | fuel + 1, 0, _, _, within, _ => absurd within (by omega)
  | fuel + 1, more + 1, state, result, within, ran => by
      rw [runLoop] at ran ⊢
      cases iteration : step state with
      | done early => simpa [iteration] using ran
      | next later =>
          simp only [iteration] at ran
          exact runLoop_mono (by omega) ran

/-- The total function computed by a loop with a measure. -/
def loop (step : σ → LoopStep σ ρ) (measure : σ → Nat) (decreases : Decreases step measure)
    (state : σ) : ρ :=
  (runLoop step (measure state + 1) state).get
    (runLoop_isSome decreases _ state (Nat.lt_succ_self _))

theorem loop_eq_of_runLoop (decreases : Decreases step measure) {fuel : Nat} {state : σ} {result : ρ}
    (ran : runLoop step fuel state = some result) : loop step measure decreases state = result := by
  obtain ⟨other, otherRan⟩ := Option.isSome_iff_exists.mp
    (runLoop_isSome decreases (measure state + 1) state (Nat.lt_succ_self _))
  have raised := runLoop_mono (Nat.le_max_left fuel (measure state + 1)) ran
  have otherRaised := runLoop_mono (Nat.le_max_right fuel (measure state + 1)) otherRan
  rw [raised] at otherRaised
  simp only [loop, otherRan, Option.get_some]
  exact (Option.some.inj otherRaised).symm

theorem loop_done (decreases : Decreases step measure) {state : σ} {result : ρ}
    (iteration : step state = .done result) : loop step measure decreases state = result := by
  have ran : runLoop step 1 state = some result := by simp [runLoop, iteration]
  exact loop_eq_of_runLoop decreases ran

theorem loop_next (decreases : Decreases step measure) {state later : σ}
    (iteration : step state = .next later) :
    loop step measure decreases state = loop step measure decreases later := by
  obtain ⟨result, ran⟩ := Option.isSome_iff_exists.mp
    (runLoop_isSome decreases (measure later + 1) later (Nat.lt_succ_self _))
  have ranBefore : runLoop step (measure later + 2) state = some result := by
    simpa [runLoop, iteration] using ran
  rw [loop_eq_of_runLoop decreases ran, loop_eq_of_runLoop decreases ranBefore]

/-- Induction along the iterations of a loop: what holds of the result when the loop is left, and is
    carried back over each iteration that goes round, holds of the whole loop. -/
theorem loop_rule (decreases : Decreases step measure) {motive : σ → ρ → Prop}
    (done : ∀ state result, step state = .done result → motive state result)
    (next : ∀ state later, step state = .next later →
      motive later (loop step measure decreases later) →
      motive state (loop step measure decreases later))
    (state : σ) : motive state (loop step measure decreases state) := by
  -- Strong induction on the measure, the only thing an iteration is known to lower.
  induction bound : measure state using Nat.strongRecOn generalizing state with
  | ind bound inductionHypothesis =>
      cases iteration : step state with
      | done result =>
          rw [loop_done decreases iteration]
          exact done state result iteration
      | next later =>
          rw [loop_next decreases iteration]
          have lower := decreases state later iteration
          exact next state later iteration
            (inductionHypothesis (measure later) (by omega) later rfl)

end

/-- Two iterations agree when both go round to related states or both leave with related results. -/
inductive StepsAgree {σ ρ τ θ : Type} (states : σ → τ → Prop) (results : ρ → θ → Prop) :
    LoopStep σ ρ → LoopStep τ θ → Prop where
  | next {left : σ} {right : τ} (related : states left right) :
      StepsAgree states results (.next left) (.next right)
  | done {left : ρ} {right : θ} (related : results left right) :
      StepsAgree states results (.done left) (.done right)

section

variable {σ ρ τ θ : Type} {states : σ → τ → Prop} {results : ρ → θ → Prop}

/-- Beside an iteration that goes round the other one does. -/
theorem StepsAgree.of_next {left : σ} {other : LoopStep τ θ}
    (agree : StepsAgree states results (.next left) other) :
    ∃ right, other = .next right ∧ states left right := by
  cases agree with
  | next related => exact ⟨_, rfl, related⟩

/-- Beside an iteration that leaves the other one does. -/
theorem StepsAgree.of_done {left : ρ} {other : LoopStep τ θ}
    (agree : StepsAgree states results (.done left) other) :
    ∃ right, other = .done right ∧ results left right := by
  cases agree with
  | done related => exact ⟨_, rfl, related⟩

/-- The same from the other side. -/
theorem StepsAgree.next_of {right : τ} {step : LoopStep σ ρ}
    (agree : StepsAgree states results step (.next right)) :
    ∃ left, step = .next left ∧ states left right := by
  cases agree with
  | next related => exact ⟨_, rfl, related⟩

theorem StepsAgree.done_of {right : θ} {step : LoopStep σ ρ}
    (agree : StepsAgree states results step (.done right)) :
    ∃ left, step = .done left ∧ results left right := by
  cases agree with
  | done related => exact ⟨_, rfl, related⟩

end

/-- Loops whose iterations agree on related states have related results. -/
theorem loop_simulation {σ ρ τ θ : Type} {step : σ → LoopStep σ ρ} {measure : σ → Nat}
    {other : τ → LoopStep τ θ} {otherMeasure : τ → Nat}
    {states : σ → τ → Prop} {results : ρ → θ → Prop}
    (decreases : Decreases step measure) (otherDecreases : Decreases other otherMeasure)
    (agree : ∀ left right, states left right →
      StepsAgree states results (step left) (other right))
    {left : σ} {right : τ} (related : states left right) :
    results (loop step measure decreases left) (loop other otherMeasure otherDecreases right) := by
  refine loop_rule decreases
    (motive := fun left result =>
      ∀ right, states left right → results result (loop other otherMeasure otherDecreases right))
    ?_ ?_ left right related
  · intro state result iteration right related
    have agreed := agree state right related
    rw [iteration] at agreed
    obtain ⟨otherResult, otherIteration, related⟩ := agreed.of_done
    rw [loop_done otherDecreases otherIteration]
    exact related
  · intro state later iteration inductionHypothesis right related
    have agreed := agree state right related
    rw [iteration] at agreed
    obtain ⟨otherLater, otherIteration, related⟩ := agreed.of_next
    rw [loop_next otherDecreases otherIteration]
    exact inductionHypothesis otherLater related

/-! ### Loops without a measure -/

section

variable {σ ρ τ θ : Type} {step : σ → LoopStep σ ρ}

/-- A loop that need not come to an end is left with a result. -/
inductive LoopEnds (step : σ → LoopStep σ ρ) : σ → ρ → Prop where
  | done {state : σ} {result : ρ} (iteration : step state = .done result) : LoopEnds step state result
  | next {state later : σ} {result : ρ} (iteration : step state = .next later)
      (ends : LoopEnds step later result) : LoopEnds step state result

/-- The states in which a loop begins an iteration. -/
inductive LoopReaches (step : σ → LoopStep σ ρ) (start : σ) : σ → Prop where
  | start : LoopReaches step start start
  | next {state later : σ} (earlier : LoopReaches step start state)
      (iteration : step state = .next later) : LoopReaches step start later

/-- A loop has at most one result. -/
theorem LoopEnds.unique {state : σ} {result other : ρ} (ends : LoopEnds step state result)
    (otherEnds : LoopEnds step state other) : result = other := by
  induction ends with
  | done iteration =>
      cases otherEnds with
      | done otherIteration =>
          rw [iteration] at otherIteration
          exact LoopStep.done.inj otherIteration
      | next otherIteration _ =>
          rw [iteration] at otherIteration
          cases otherIteration
  | next iteration _ inductionHypothesis =>
      cases otherEnds with
      | done otherIteration =>
          rw [iteration] at otherIteration
          cases otherIteration
      | next otherIteration otherEnds =>
          rw [iteration] at otherIteration
          cases otherIteration
          exact inductionHypothesis otherEnds

/-- A loop with a measure is left with the result it computes. -/
theorem loopEnds_loop {measure : σ → Nat} (decreases : Decreases step measure) (state : σ) :
    LoopEnds step state (loop step measure decreases state) := by
  apply loop_rule decreases (motive := fun state result => LoopEnds step state result)
  · intro state result iteration
    exact .done iteration
  · intro state later iteration ends
    exact .next iteration ends

/-- A loop that agrees with one that is left is left too, with a related result. -/
theorem LoopEnds.simulation {other : τ → LoopStep τ θ} {states : σ → τ → Prop}
    {results : ρ → θ → Prop}
    (agree : ∀ left right, states left right → StepsAgree states results (step left) (other right))
    {left : σ} {result : ρ} (ends : LoopEnds step left result) {right : τ}
    (related : states left right) :
    ∃ otherResult, LoopEnds other right otherResult ∧ results result otherResult := by
  induction ends generalizing right with
  | @done left result iteration =>
      have agreed := agree left right related
      rw [iteration] at agreed
      obtain ⟨otherResult, otherIteration, same⟩ := agreed.of_done
      exact ⟨otherResult, .done otherIteration, same⟩
  | @next left later result iteration _ inductionHypothesis =>
      have agreed := agree left right related
      rw [iteration] at agreed
      obtain ⟨otherLater, otherIteration, related⟩ := agreed.of_next
      obtain ⟨otherResult, otherEnds, same⟩ := inductionHypothesis related
      exact ⟨otherResult, .next otherIteration otherEnds, same⟩

end

end LobbySvr.Foundation

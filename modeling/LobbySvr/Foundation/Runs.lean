/-
Module: LobbySvr.Foundation.Runs
Layer: Foundation
Purpose: Runs of a labelled step function.  A guard says which steps a run may take; a state is reached when
  a run of allowed steps leads to it.  An invariant that holds at the start and is kept by every allowed
  step holds in every state reached.  For steps that are always possible, `EveryStep` says something of
  every step along a list of labels; for steps that may fail, `EveryStepTried` does, up to the first one
  that fails.  `pick` takes any one element out of a queue.
Imports: Mathlib tactics only
Trusted boundary: none
Main exports: Reaches, Reaches.trans, Reaches.invariant, runGuarded, reaches_of_runGuarded,
  exists_reaches, EveryStep, everyStep_related, everyStep_iff, everyStep_labels, EveryStepTried,
  everyStepTried_iff, pick, pick_split, exists_pick, pick_map, pick_countP, mem_of_pick,
  mem_of_pick_others, pick_mem, append_eq_split, append_singleton_split
Open obligations: none
-/
import Mathlib.Tactic.Common

namespace LobbySvr.Foundation

section

variable {σ ℓ : Type} {step : σ → ℓ → Option σ} {guard : σ → ℓ → Bool} {start : σ}

/-- The states that runs of allowed steps lead to. -/
inductive Reaches (step : σ → ℓ → Option σ) (guard : σ → ℓ → Bool) (start : σ) : σ → Prop where
  | start : Reaches step guard start start
  | step {state later : σ} {label : ℓ} (earlier : Reaches step guard start state)
      (allowed : guard state label = true) (taken : step state label = some later) :
      Reaches step guard start later

theorem Reaches.trans {middle later : σ} (reached : Reaches step guard start middle)
    (further : Reaches step guard middle later) : Reaches step guard start later := by
  induction further with
  | start => exact reached
  | step _ allowed taken inductionHypothesis => exact .step inductionHypothesis allowed taken

/-- What holds at the start and is kept by every allowed step holds in every state reached. -/
theorem Reaches.invariant {motive : σ → Prop} {state : σ} (initially : motive start)
    (kept : ∀ {state later : σ} {label : ℓ}, Reaches step guard start state → motive state →
      guard state label = true → step state label = some later → motive later)
    (reached : Reaches step guard start state) : motive state := by
  induction reached with
  | start => exact initially
  | step earlier allowed taken inductionHypothesis =>
      exact kept earlier inductionHypothesis allowed taken

/-- The state after a list of labels, none when a step is not allowed or not possible. -/
def runGuarded (step : σ → ℓ → Option σ) (guard : σ → ℓ → Bool) : σ → List ℓ → Option σ
  | state, [] => some state
  | state, label :: labels =>
      if guard state label then
        match step state label with
        | some later => runGuarded step guard later labels
        | none => none
      else none

/-- What a list of labels leads to is reached. -/
theorem reaches_of_runGuarded {labels : List ℓ} {state later : σ}
    (reached : Reaches step guard start state) (ran : runGuarded step guard state labels = some later) :
    Reaches step guard start later := by
  induction labels generalizing state with
  | nil =>
      cases ran
      exact reached
  | cons label labels inductionHypothesis =>
      rw [runGuarded] at ran
      split at ran
      · rename_i allowed
        split at ran
        · rename_i middle taken
          exact inductionHypothesis (.step reached allowed taken) ran
        · cases ran
      · cases ran

/-- A state with given properties is reached when a list of labels leads to it. -/
theorem exists_reaches {β : Type} {labels : List ℓ} {value : β} (project : σ → β)
    (ran : (runGuarded step guard start labels).map project = some value) :
    ∃ state, Reaches step guard start state ∧ project state = value := by
  obtain ⟨state, found, same⟩ := Option.map_eq_some_iff.mp ran
  exact ⟨state, reaches_of_runGuarded .start found, same⟩

end

section

variable {σ ℓ : Type} {step : σ → ℓ → σ}

/-- Something holds of every step that a list of labels makes. -/
def EveryStep (step : σ → ℓ → σ) (property : σ → ℓ → Prop) : σ → List ℓ → Prop
  | _, [] => True
  | state, label :: labels => property state label ∧ EveryStep step property (step state label) labels

/-- A property of the steps of one system and a condition on those of another agree along every list of labels
    when they agree in related states, and steps that meet the condition lead to related states. -/
theorem everyStep_related {τ : Type} {step' : τ → ℓ → τ} {property : σ → ℓ → Prop} {condition : τ → ℓ → Prop}
    (related : σ → τ → Prop)
    (same : ∀ state other label, related state other → (property state label ↔ condition other label))
    (kept : ∀ state other label, related state other → condition other label →
      related (step state label) (step' other label))
    {state : σ} {other : τ} (initially : related state other) (labels : List ℓ) :
    EveryStep step property state labels ↔ EveryStep step' condition other labels := by
  induction labels generalizing state other with
  | nil => exact Iff.rfl
  | cons label labels inductionHypothesis =>
      rw [EveryStep, EveryStep, same state other label initially]
      apply and_congr_right
      intro allowed
      exact inductionHypothesis (kept state other label initially allowed)

/-- Two properties of steps that agree where an invariant holds agree along every run from such a state,
    when steps with the second property keep the invariant. -/
theorem everyStep_iff {property condition : σ → ℓ → Prop} (invariant : σ → Prop)
    (same : ∀ state label, invariant state → (property state label ↔ condition state label))
    (kept : ∀ state label, invariant state → condition state label → invariant (step state label))
    {state : σ} (initially : invariant state) (labels : List ℓ) :
    EveryStep step property state labels ↔ EveryStep step condition state labels := by
  apply everyStep_related fun state other => state = other ∧ invariant other
  · rintro state _ label ⟨rfl, holds⟩
    exact same state label holds
  · rintro state _ label ⟨rfl, holds⟩ allowed
    exact ⟨rfl, kept state label holds allowed⟩
  · exact ⟨rfl, initially⟩

/-- A property of the labels alone. -/
theorem everyStep_labels (step : σ → ℓ → σ) {property : ℓ → Prop} (state : σ) (labels : List ℓ) :
    EveryStep step (fun _ label => property label) state labels ↔ ∀ label ∈ labels, property label := by
  induction labels generalizing state with
  | nil => simp [EveryStep]
  | cons label labels inductionHypothesis =>
      rw [EveryStep, inductionHypothesis, List.forall_mem_cons]

end

section

variable {σ ℓ ε : Type} {step : σ → ℓ → Except ε σ}

/-- Something holds of every step that a list of labels tries; nothing is tried behind a step that fails. -/
def EveryStepTried (step : σ → ℓ → Except ε σ) (property : σ → ℓ → Prop) : σ → List ℓ → Prop
  | _, [] => True
  | state, label :: labels =>
      property state label ∧
        ∀ later, step state label = .ok later → EveryStepTried step property later labels

/-- The same rule for steps that may fail; the invariant is asked of those that succeed. -/
theorem everyStepTried_iff {property condition : σ → ℓ → Prop} (invariant : σ → Prop)
    (same : ∀ state label, invariant state → (property state label ↔ condition state label))
    (kept : ∀ state label later, invariant state → condition state label →
      step state label = .ok later → invariant later)
    {state : σ} (initially : invariant state) (labels : List ℓ) :
    EveryStepTried step property state labels ↔ EveryStepTried step condition state labels := by
  induction labels generalizing state with
  | nil => exact Iff.rfl
  | cons label labels inductionHypothesis =>
      constructor
      · rintro ⟨here, behind⟩
        have allowed := (same state label initially).mp here
        refine ⟨allowed, fun later taken => ?_⟩
        exact (inductionHypothesis (kept state label later initially allowed taken)).mp (behind later taken)
      · rintro ⟨allowed, behind⟩
        refine ⟨(same state label initially).mpr allowed, fun later taken => ?_⟩
        exact (inductionHypothesis (kept state label later initially allowed taken)).mpr (behind later taken)

end

section

variable {α : Type}

/-- The element at an index, and the others in order. -/
def pick : Nat → List α → Option (α × List α)
  | _, [] => none
  | 0, first :: others => some (first, others)
  | index + 1, first :: others =>
      match pick index others with
      | some (chosen, rest) => some (chosen, first :: rest)
      | none => none

/-- The picked element stands somewhere in the queue, and exactly it is gone. -/
theorem pick_split : ∀ {index : Nat} {queue others : List α} {chosen : α},
    pick index queue = some (chosen, others) →
    ∃ before behind, queue = before ++ chosen :: behind ∧ others = before ++ behind
  | 0, [], _, _, picked => by cases picked
  | _ + 1, [], _, _, picked => by cases picked
  | 0, first :: rest, _, _, picked => by
      cases picked
      exact ⟨[], rest, rfl, rfl⟩
  | index + 1, first :: rest, others, chosen, picked => by
      rw [pick] at picked
      split at picked
      · rename_i inner left found
        cases picked
        obtain ⟨before, behind, rfl, rfl⟩ := pick_split found
        exact ⟨first :: before, behind, rfl, rfl⟩
      · cases picked

theorem pick_zero {queue others : List α} {chosen : α} (picked : pick 0 queue = some (chosen, others)) :
    queue = chosen :: others := by
  cases queue with
  | nil => cases picked
  | cons first rest =>
      cases picked
      rfl

/-- Every element can be picked. -/
theorem exists_pick {queue : List α} {element : α} (member : element ∈ queue) :
    ∃ index others, pick index queue = some (element, others) := by
  induction queue with
  | nil => cases member
  | cons first rest inductionHypothesis =>
      rcases List.mem_cons.mp member with rfl | later
      · exact ⟨0, rest, rfl⟩
      · obtain ⟨index, others, picked⟩ := inductionHypothesis later
        refine ⟨index + 1, first :: others, ?_⟩
        rw [pick, picked]

/-- Picking from a queue of images. -/
theorem pick_map {β : Type} (image : α → β) : ∀ (index : Nat) (queue : List α),
    pick index (queue.map image) =
      (pick index queue).map fun picked => (image picked.1, picked.2.map image)
  | 0, [] => rfl
  | _ + 1, [] => rfl
  | 0, _ :: _ => rfl
  | index + 1, first :: rest => by
      rw [List.map_cons, pick, pick, pick_map image index rest]
      cases pick index rest with
      | none => rfl
      | some picked => rfl

/-- A count over the queue, with and without the picked element. -/
theorem pick_countP {index : Nat} {queue others : List α} {chosen : α}
    (picked : pick index queue = some (chosen, others)) (test : α → Bool) :
    queue.countP test = others.countP test + if test chosen = true then 1 else 0 := by
  obtain ⟨before, behind, rfl, rfl⟩ := pick_split picked
  rw [List.countP_append, List.countP_append, List.countP_cons, Nat.add_assoc]

/-- What is picked was in the queue. -/
theorem mem_of_pick {index : Nat} {queue others : List α} {chosen : α}
    (picked : pick index queue = some (chosen, others)) : chosen ∈ queue := by
  obtain ⟨before, behind, rfl, -⟩ := pick_split picked
  exact List.mem_append_right before (List.mem_cons_self ..)

/-- What is left was in the queue. -/
theorem mem_of_pick_others {index : Nat} {queue others : List α} {chosen element : α}
    (picked : pick index queue = some (chosen, others)) (member : element ∈ others) : element ∈ queue := by
  obtain ⟨before, behind, rfl, rfl⟩ := pick_split picked
  rcases List.mem_append.mp member with member | member
  · exact List.mem_append_left _ member
  · exact List.mem_append_right _ (List.mem_cons_of_mem _ member)

/-- Everything but the picked element is still there. -/
theorem pick_mem {index : Nat} {queue others : List α} {chosen element : α}
    (picked : pick index queue = some (chosen, others)) (member : element ∈ queue) :
    element = chosen ∨ element ∈ others := by
  obtain ⟨before, behind, rfl, rfl⟩ := pick_split picked
  rcases List.mem_append.mp member with member | member
  · exact Or.inr (List.mem_append_left _ member)
  · rcases List.mem_cons.mp member with same | member
    · exact Or.inl same
    · exact Or.inr (List.mem_append_right _ member)

/-- An element of a lengthened list that is not among the new ones stands where it stood before. -/
theorem append_eq_split {list more before after : List α} {element : α}
    (fresh : element ∉ more) (split : list ++ more = before ++ element :: after) :
    ∃ earlier, list = before ++ element :: earlier ∧ after = earlier ++ more := by
  rcases List.append_eq_append_iff.mp split with ⟨front, rfl, inMore⟩ | ⟨back, rfl, inList⟩
  · rw [inMore] at fresh
    exact absurd (List.mem_append_right front (List.mem_cons_self ..)) fresh
  · cases back with
    | nil =>
        rw [List.nil_append] at inList
        rw [← inList] at fresh
        exact absurd (List.mem_cons_self ..) fresh
    | cons first back =>
        obtain ⟨rfl, rfl⟩ := List.cons.inj inList
        exact ⟨back, rfl, rfl⟩

/-- An element that was not in a list stands at the end once it has been added. -/
theorem append_singleton_split {list before after : List α} {element : α} (fresh : element ∉ list)
    (split : list ++ [element] = before ++ element :: after) : before = list ∧ after = [] := by
  rcases List.append_eq_append_iff.mp split with ⟨front, rfl, inMore⟩ | ⟨back, rfl, inList⟩
  · cases front with
    | nil =>
        obtain ⟨_, rfl⟩ := List.cons.inj inMore
        exact ⟨List.append_nil _, rfl⟩
    | cons first front =>
        have tooLong := congrArg List.length inMore
        simp at tooLong
  · cases back with
    | nil =>
        obtain ⟨_, rfl⟩ := List.cons.inj inList
        exact ⟨(List.append_nil _).symm, rfl⟩
    | cons first back =>
        obtain ⟨rfl, _⟩ := List.cons.inj inList
        exact absurd (List.mem_append_right before (List.mem_cons_self ..)) fresh

end

end LobbySvr.Foundation

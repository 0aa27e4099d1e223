/-
Module: LobbySvr.Foundation.BitFlags
Layer: Foundation
Purpose: Sets of flags kept in a machine word and changed with `+` and `-`.  A word shows a set when its bits
  are the members.  Adding the value of an absent flag and subtracting that of a present one changes the set
  as it should; everything else carries or borrows.
Imports: Mathlib big operators on lists
Trusted boundary: none
Main exports: flagValue, Shows, Shows.unique, Shows.add, shows_add_iff, shows_sub_iff, withFlags, surplus,
  shows_sum_iff
Open obligations: none
-/
import Mathlib.Algebra.BigOperators.Group.List.Basic
import Mathlib.Data.BitVec
import Mathlib.Logic.Function.Basic

namespace LobbySvr.Foundation

variable {w : Nat}

/-- The value of a flag. -/
def flagValue (flag : Fin w) : BitVec w := 1#w <<< flag.val

/-- The bits of a word are the members of a set of flags. -/
def Shows (word : BitVec w) (members : Fin w → Bool) : Prop :=
  ∀ flag, word.getLsbD flag.val = members flag

@[simp] theorem getLsbD_flagValue (flag other : Fin w) :
    (flagValue flag).getLsbD other.val = decide (other = flag) := by
  rw [flagValue, ← BitVec.twoPow_eq, BitVec.getLsbD_twoPow]
  simp [Fin.ext_iff, eq_comm]

theorem flagValue_ne_zero (flag : Fin w) : flagValue flag ≠ 0 := by
  intro zero
  have bit := getLsbD_flagValue flag flag
  rw [zero] at bit
  simp at bit

/-- The test for a flag reads its bit. -/
theorem and_flagValue_ne_zero (word : BitVec w) (flag : Fin w) :
    0 ≠ word &&& flagValue flag ↔ word.getLsbD flag.val = true := by
  rw [flagValue, ← BitVec.twoPow_eq, BitVec.and_twoPow, BitVec.twoPow_eq]
  cases word.getLsbD flag.val with
  | false => simp
  | true =>
      have nonzero := (flagValue_ne_zero flag).symm
      simpa [flagValue] using nonzero

/-- A set is shown by one word only. -/
theorem Shows.unique {word other : BitVec w} {members : Fin w → Bool} (shown : Shows word members)
    (alsoShown : Shows other members) : word = other := by
  apply BitVec.eq_of_getLsbD_eq
  intro index within
  have here := shown ⟨index, within⟩
  have there := alsoShown ⟨index, within⟩
  exact here.trans there.symm

theorem shows_zero : Shows (0 : BitVec w) fun _ => false := by
  intro flag
  simp

/-- The value of an absent flag has no bit in common with the word, so the sum is the union. -/
theorem Shows.add {word : BitVec w} {members : Fin w → Bool} (shown : Shows word members) {flag : Fin w}
    (absent : members flag = false) :
    Shows (word + flagValue flag) (Function.update members flag true) := by
  have disjoint : word &&& flagValue flag = 0 := by
    apply Classical.byContradiction
    intro common
    have present := (and_flagValue_ne_zero word flag).mp (Ne.symm common)
    rw [shown flag, absent] at present
    cases present
  rw [BitVec.add_eq_or_of_and_eq_zero word (flagValue flag) disjoint]
  intro other
  rw [BitVec.getLsbD_or, getLsbD_flagValue, shown other]
  by_cases same : other = flag
  · subst same
    simp
  · simp [same]

/-- Clearing a flag and adding it again is setting it, so a present flag can be subtracted. -/
theorem Shows.sub {word : BitVec w} {members : Fin w → Bool} (shown : Shows word members) {flag : Fin w}
    (present : members flag = true) :
    Shows (word - flagValue flag) (Function.update members flag false) := by
  have cleared : Shows (word &&& ~~~flagValue flag) (Function.update members flag false) := by
    intro other
    rw [BitVec.getLsbD_and, BitVec.getLsbD_not, getLsbD_flagValue, shown other]
    by_cases same : other = flag
    · subst same
      simp
    · simp [same]
  have absent : Function.update members flag false flag = false := Function.update_self flag false members
  have again := cleared.add absent
  rw [Function.update_idem, ← present, Function.update_eq_self] at again
  rw [shown.unique again, BitVec.add_sub_cancel]
  exact cleared

/-- A flag can be added exactly when it is absent. -/
theorem shows_add_iff {word : BitVec w} {members : Fin w → Bool} (shown : Shows word members)
    (flag : Fin w) :
    Shows (word + flagValue flag) (Function.update members flag true) ↔ members flag = false := by
  constructor
  · intro changed
    apply Bool.eq_false_of_not_eq_true
    intro present
    rw [← present, Function.update_eq_self] at changed
    have same := changed.unique shown
    exact flagValue_ne_zero flag (by simpa using same)
  · exact shown.add

/-- A flag can be subtracted exactly when it is present. -/
theorem shows_sub_iff {word : BitVec w} {members : Fin w → Bool} (shown : Shows word members)
    (flag : Fin w) :
    Shows (word - flagValue flag) (Function.update members flag false) ↔ members flag = true := by
  constructor
  · intro changed
    apply Classical.byContradiction
    intro absent
    rw [← Bool.eq_false_of_not_eq_true absent, Function.update_eq_self] at changed
    have same := changed.unique shown
    exact flagValue_ne_zero flag (by simpa [sub_eq_self] using same)
  · exact shown.sub

/-! ### Several flags at once -/

/-- A set with flags added one after the other. -/
def withFlags (members : Fin w → Bool) (flags : List (Fin w)) : Fin w → Bool :=
  flags.foldl (fun members flag => Function.update members flag true) members

/-- The flags of a list that are there already when their turn comes. -/
def surplus (members : Fin w → Bool) : List (Fin w) → List (Fin w)
  | [] => []
  | flag :: flags =>
      if members flag then flag :: surplus members flags
      else surplus (Function.update members flag true) flags

theorem withFlags_apply (members : Fin w → Bool) (flags : List (Fin w)) (flag : Fin w) :
    withFlags members flags flag = (members flag || decide (flag ∈ flags)) := by
  induction flags generalizing members with
  | nil => simp [withFlags]
  | cons first flags inductionHypothesis =>
      rw [withFlags, List.foldl_cons, ← withFlags, inductionHypothesis]
      by_cases same : flag = first
      · subst same
        simp
      · simp [same]

/-- The sum is that of the union and of what was there already. -/
theorem Shows.sum {word : BitVec w} {members : Fin w → Bool} (shown : Shows word members)
    (flags : List (Fin w)) :
    ∃ union, Shows union (withFlags members flags) ∧
      word + (flags.map flagValue).sum = union + ((surplus members flags).map flagValue).sum := by
  induction flags generalizing word members with
  | nil => exact ⟨word, shown, rfl⟩
  | cons flag flags inductionHypothesis =>
      rw [withFlags, List.foldl_cons, ← withFlags, surplus, List.map_cons, List.sum_cons]
      cases there : members flag with
      | true =>
          obtain ⟨union, shows, summed⟩ := inductionHypothesis shown
          rw [← there, Function.update_eq_self]
          refine ⟨union, shows, ?_⟩
          rw [if_pos rfl, List.map_cons, List.sum_cons, add_left_comm, summed, add_left_comm]
      | false =>
          obtain ⟨union, shows, summed⟩ := inductionHypothesis (shown.add there)
          refine ⟨union, shows, ?_⟩
          rw [if_neg Bool.false_ne_true, ← add_assoc, summed]

/-- Flags can be added by their sum exactly when the values of those that are there already vanish. -/
theorem shows_sum_iff {word : BitVec w} {members : Fin w → Bool} (shown : Shows word members)
    (flags : List (Fin w)) :
    Shows (word + (flags.map flagValue).sum) (withFlags members flags) ↔
      ((surplus members flags).map flagValue).sum = 0 := by
  obtain ⟨union, shows, summed⟩ := shown.sum flags
  rw [summed]
  constructor
  · intro alsoShows
    have same := alsoShows.unique shows
    simpa using same
  · intro nothing
    rw [nothing, add_zero]
    exact shows

end LobbySvr.Foundation

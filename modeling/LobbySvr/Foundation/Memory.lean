/-
Module: LobbySvr.Foundation.Memory
Layer: Foundation
Purpose: Ranges of a flat memory.  A memory is a function from cell numbers to cells; `readRange` copies a
  range out and `writeRange` copies a list in, which is all that `memcpy` and `memmove` do.
Imports: Mathlib only
Trusted boundary: none
Main exports: readRange, writeRange, readRange_writeRange_self, readRange_writeRange_below,
  readRange_writeRange_above, readRange_terminated, readRange_take, readRange_drop, readRange_append
Open obligations: none
-/
import Mathlib.Tactic.Common
import Mathlib.Algebra.Ring.Nat
import Mathlib.Data.List.Basic

namespace LobbySvr.Foundation

variable {α : Type}

/-- The `count` cells from `start` on. -/
def readRange (memory : Nat → α) (start count : Nat) : List α :=
  (List.range count).map fun offset => memory (start + offset)

/-- The memory after `cells` has been copied to `start`. -/
def writeRange (memory : Nat → α) (start : Nat) (cells : List α) : Nat → α :=
  fun cell => if start ≤ cell then (cells[cell - start]?).getD (memory cell) else memory cell

@[simp] theorem readRange_length (memory : Nat → α) (start count : Nat) :
    (readRange memory start count).length = count := by
  simp [readRange]

@[simp] theorem readRange_zero (memory : Nat → α) (start : Nat) :
    readRange memory start 0 = [] := rfl

/-- A range splits at any point into the range before and the range after it. -/
theorem readRange_append (memory : Nat → α) (start first second : Nat) :
    readRange memory start (first + second) =
      readRange memory start first ++ readRange memory (start + first) second := by
  simp [readRange, List.range_add, Nat.add_assoc]

theorem readRange_take (memory : Nat → α) {start count taken : Nat} (within : taken ≤ count) :
    (readRange memory start count).take taken = readRange memory start taken := by
  obtain ⟨rest, rfl⟩ := Nat.exists_eq_add_of_le within
  rw [readRange_append, List.take_left' (readRange_length memory start taken)]

theorem readRange_drop (memory : Nat → α) {start count dropped : Nat} (within : dropped ≤ count) :
    (readRange memory start count).drop dropped =
      readRange memory (start + dropped) (count - dropped) := by
  obtain ⟨rest, rfl⟩ := Nat.exists_eq_add_of_le within
  rw [readRange_append, List.drop_left' (readRange_length memory start dropped),
    Nat.add_sub_cancel_left]

/-- A list copied into memory is read back unchanged. -/
theorem readRange_writeRange_self (memory : Nat → α) (start : Nat) (cells : List α) :
    readRange (writeRange memory start cells) start cells.length = cells := by
  apply List.ext_getElem
  · simp
  · intro index _ inside
    simp [readRange, writeRange, inside]

/-- Copying a list in leaves the cells below it alone. -/
theorem readRange_writeRange_below (memory : Nat → α) {start count target : Nat} (cells : List α)
    (below : start + count ≤ target) :
    readRange (writeRange memory target cells) start count = readRange memory start count := by
  apply List.ext_getElem
  · simp
  · intro index inside _
    rw [readRange_length] at inside
    simp [readRange, writeRange, show ¬ target ≤ start + index by omega]

/-- Copying a list in leaves the cells above it alone. -/
theorem readRange_writeRange_above (memory : Nat → α) {start count target : Nat} (cells : List α)
    (above : target + cells.length ≤ start) :
    readRange (writeRange memory target cells) start count = readRange memory start count := by
  apply List.ext_getElem
  · simp
  · intro index inside _
    have past : cells.length ≤ start + index - target := by omega
    simp [readRange, writeRange, past]

/-- A list copied in and one more cell behind it. -/
theorem readRange_terminated (memory : Nat → α) (cells : List α) (last : α) :
    readRange (writeRange (writeRange memory 0 cells) cells.length [last]) 0 (cells.length + 1) =
      cells ++ [last] := by
  have terminator := readRange_writeRange_self (writeRange memory 0 cells) cells.length [last]
  rw [List.length_singleton] at terminator
  have front := readRange_writeRange_below (writeRange memory 0 cells) [last]
    (Nat.le_of_eq (Nat.zero_add cells.length))
  rw [readRange_append, front, readRange_writeRange_self, Nat.zero_add, terminator]

end LobbySvr.Foundation

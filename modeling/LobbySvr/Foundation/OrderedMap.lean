/-
Module: LobbySvr.Foundation.OrderedMap
Layer: Foundation
Purpose: Maps ordered by their keys, with the operations of `std::map`.  `emplace` inserts unless the key is
  there and tells whether it did; `erase` by key is a no-op without the key.  The lemmas say what a lookup
  finds behind each operation and what the entries in order are.
Imports: Mathlib only
Trusted boundary: none
Main exports: OrderedMap, emplace, emplace_fresh, emplace_known, find_emplace, find_erase, mem_iff_find,
  entry_iff_find, entries_distinct
Open obligations: none
-/
import Mathlib

namespace LobbySvr.Foundation

/-- `std::map`. -/
abbrev OrderedMap (κ υ : Type) [Ord κ] := Std.TreeMap κ υ

section

variable {κ υ : Type} [Ord κ]

/-- Insert a value under a key unless the key is there, and tell whether it was inserted. -/
def emplace (map : OrderedMap κ υ) (key : κ) (value : υ) : Bool × OrderedMap κ υ :=
  (!map.contains key, map.insertIfNew key value)

variable [Std.TransOrd κ] {map : OrderedMap κ υ} {key other : κ} {value : υ}

theorem mem_iff_find : key ∈ map ↔ map[key]? ≠ none := by
  rw [Std.TreeMap.mem_iff_isSome_getElem?, Option.isSome_iff_ne_none]

theorem not_mem_iff_find : key ∉ map ↔ map[key]? = none := by
  rw [mem_iff_find, not_not]

theorem emplace_fresh (fresh : map[key]? = none) : (emplace map key value).1 = true := by
  have absent : ¬ map.contains key = true := by
    rw [Std.TreeMap.contains_iff_mem]
    exact not_mem_iff_find.mpr fresh
  simp only [emplace, Bool.not_eq_true] at absent ⊢
  rw [absent]
  rfl

theorem emplace_known (known : map[key]? ≠ none) : (emplace map key value).1 = false := by
  have present : map.contains key = true := Std.TreeMap.contains_iff_mem.mpr (mem_iff_find.mpr known)
  simp only [emplace, present, Bool.not_true]

variable [Std.LawfulEqOrd κ]

theorem entry_iff_find : (key, value) ∈ map.toList ↔ map[key]? = some value :=
  Std.TreeMap.mem_toList_iff_getElem?_eq_some

/-- No two entries have the same key. -/
theorem entries_distinct (map : OrderedMap κ υ) :
    map.toList.Pairwise fun left right => left.1 ≠ right.1 := by
  apply Std.TreeMap.distinct_keys_toList.imp
  intro left right distinct same
  exact distinct (Std.LawfulEqOrd.compare_eq_iff_eq.mpr same)

variable [DecidableEq κ]

/-- What a lookup finds behind an `emplace`. -/
theorem find_emplace : (emplace map key value).2[other]? =
    if key = other ∧ map[key]? = none then some value else map[other]? := by
  rw [emplace, Std.TreeMap.getElem?_insertIfNew]
  apply if_congr _ rfl rfl
  rw [Std.LawfulEqOrd.compare_eq_iff_eq, not_mem_iff_find]

/-- What a lookup finds behind an `erase`. -/
theorem find_erase : (map.erase key)[other]? = if key = other then none else map[other]? := by
  rw [Std.TreeMap.getElem?_erase]
  exact if_congr Std.LawfulEqOrd.compare_eq_iff_eq rfl rfl

end

end LobbySvr.Foundation

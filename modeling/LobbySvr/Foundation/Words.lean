/-
Module: LobbySvr.Foundation.Words
Layer: Foundation
Purpose: Little-endian machine words as byte lists.  A word of `width` bytes is read back as its value
  modulo `256 ^ width`, and every byte list is the little-endian image of its own value, so decoding a
  field and encoding it again never changes the bytes on the wire.
Imports: Mathlib only
Trusted boundary: none
Main exports: leBytes, leNat, leNat_leBytes, leBytes_leNat, u32Bytes, u32Of, u32Of_u32Bytes, u16Bytes, u16Of,
  u16Of_u16Bytes
Open obligations: none
-/
import Mathlib.Tactic.Common
import Mathlib.Algebra.Ring.Nat
import Mathlib.Data.List.Basic

namespace LobbySvr.Foundation

/-- The `width` low-order bytes of `value`, least significant first. -/
def leBytes : Nat → Nat → List UInt8
  | 0, _ => []
  | width + 1, value => UInt8.ofNat value :: leBytes width (value / 256)

/-- The number a byte list denotes, least significant byte first. -/
def leNat : List UInt8 → Nat
  | [] => 0
  | byte :: rest => byte.toNat + 256 * leNat rest

@[simp] theorem leBytes_length (width value : Nat) : (leBytes width value).length = width := by
  induction width generalizing value with
  | zero => rfl
  | succ width inductionHypothesis => simp [leBytes, inductionHypothesis]

theorem leNat_lt (bytes : List UInt8) : leNat bytes < 256 ^ bytes.length := by
  induction bytes with
  | nil => simp [leNat]
  | cons byte rest inductionHypothesis =>
      have byteBound : byte.toNat < 256 := byte.toNat_lt
      rw [leNat, List.length_cons, Nat.pow_succ]
      omega

/-- Reading a word back yields its value modulo the range of the word. -/
theorem leNat_leBytes (width value : Nat) :
    leNat (leBytes width value) = value % 256 ^ width := by
  induction width generalizing value with
  | zero => simp [leNat, leBytes, Nat.mod_one]
  | succ width inductionHypothesis =>
      have low : (UInt8.ofNat value).toNat = value % 256 := UInt8.toNat_ofNat'
      rw [leBytes, leNat, inductionHypothesis, low, Nat.pow_succ', Nat.mod_mul]

/-- Every byte list is the word of its own length that denotes its value. -/
theorem leBytes_leNat (bytes : List UInt8) : leBytes bytes.length (leNat bytes) = bytes := by
  induction bytes with
  | nil => rfl
  | cons byte rest inductionHypothesis =>
      have byteBound : byte.toNat < 256 := byte.toNat_lt
      have quotient : (byte.toNat + 256 * leNat rest) / 256 = leNat rest := by omega
      have low : UInt8.ofNat (byte.toNat + 256 * leNat rest) = byte := by
        apply UInt8.toNat_inj.mp
        rw [UInt8.toNat_ofNat']
        omega
      rw [List.length_cons, leNat, leBytes, quotient, inductionHypothesis, low]

/-- The four bytes of a 32-bit word. -/
def u32Bytes (word : UInt32) : List UInt8 := leBytes 4 word.toNat

/-- The 32-bit word held by a byte list, of which only the first four bytes count. -/
def u32Of (bytes : List UInt8) : UInt32 := UInt32.ofNat (leNat bytes)

/-- A length below the range of the word is kept by it. -/
theorem u32_ofNat_toNat {value : Nat} (small : value < 2 ^ 32) : (UInt32.ofNat value).toNat = value := by
  rw [UInt32.toNat_ofNat', Nat.mod_eq_of_lt small]

@[simp] theorem u32Bytes_length (word : UInt32) : (u32Bytes word).length = 4 := by
  simp [u32Bytes]

@[simp] theorem u32Of_u32Bytes (word : UInt32) : u32Of (u32Bytes word) = word := by
  apply UInt32.toNat_inj.mp
  have bound : word.toNat < 2 ^ 32 := word.toNat_lt
  rw [u32Of, u32Bytes, leNat_leBytes, UInt32.toNat_ofNat']
  omega

/-- Four bytes are exactly the image of the word they hold. -/
theorem u32Bytes_u32Of {bytes : List UInt8} (four : bytes.length = 4) :
    u32Bytes (u32Of bytes) = bytes := by
  have bound : leNat bytes < 256 ^ 4 := four ▸ leNat_lt bytes
  have value : (u32Of bytes).toNat = leNat bytes := by
    rw [u32Of, UInt32.toNat_ofNat']
    omega
  rw [u32Bytes, value, ← four, leBytes_leNat]

/-- The two bytes of a 16-bit word. -/
def u16Bytes (word : UInt16) : List UInt8 := leBytes 2 word.toNat

/-- The 16-bit word held by a byte list, of which only the first two bytes count. -/
def u16Of (bytes : List UInt8) : UInt16 := UInt16.ofNat (leNat bytes)

theorem u16_ofNat_toNat {value : Nat} (small : value < 2 ^ 16) : (UInt16.ofNat value).toNat = value := by
  rw [UInt16.toNat_ofNat', Nat.mod_eq_of_lt small]

@[simp] theorem u16Bytes_length (word : UInt16) : (u16Bytes word).length = 2 := by
  simp [u16Bytes]

@[simp] theorem u16Of_u16Bytes (word : UInt16) : u16Of (u16Bytes word) = word := by
  apply UInt16.toNat_inj.mp
  have bound : word.toNat < 2 ^ 16 := word.toNat_lt
  rw [u16Of, u16Bytes, leNat_leBytes, UInt16.toNat_ofNat']
  omega

end LobbySvr.Foundation

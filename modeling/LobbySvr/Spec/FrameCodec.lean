/-
Module: LobbySvr.Spec.FrameCodec
Layer: Spec
Purpose: The wire encoding the frame parsers are meant for.  A packet is a non-empty list of part bodies: a
  main key that declares the size of all parts, then each part as its own key and its body.  A key codec
  carries the proof that its parser reads back the lengths it writes, for every length below 2^16, which
  is beyond anything one message buffer holds.
Imports: LobbySvr.Net.PacketParserSimple
Trusted boundary: none
Main exports: KeyCodec, plainCodec, maskedCodec, partsSize, encodePart, encodePacket, encodeStream
Open obligations: none
-/
import LobbySvr.Net.PacketParserSimple

namespace LobbySvr.Spec

open LobbySvr.Foundation
open LobbySvr.Net

/-- Keys together with the way to write them. -/
structure KeyCodec where
  keys : KeyFormat
  mainKey : Nat → UInt32
  partKey : Nat → UInt32
  mainKeyOk : ∀ {length : Nat}, length < 2 ^ 16 → keys.mainKeyOk (mainKey length) = true
  mainLength : ∀ {length : Nat}, length < 2 ^ 16 →
    keys.mainLength (mainKey length) = UInt32.ofNat length
  partKeyOk : ∀ {length : Nat}, length < 2 ^ 16 → keys.partKeyOk (partKey length) = true
  partLength : ∀ {length : Nat}, length < 2 ^ 16 →
    keys.partLength (partKey length) = UInt32.ofNat length

/-- Keys that are the length. -/
def plainCodec : KeyCodec where
  keys := plainKeys
  mainKey := UInt32.ofNat
  partKey := UInt32.ofNat
  mainKeyOk _ := rfl
  mainLength _ := rfl
  partKeyOk _ := rfl
  partLength _ := rfl

theorem keyGetLength_keyMakeKey (tag : UInt32) {length : Nat} (small : length < 2 ^ 16) :
    keyGetLength (keyMakeKey tag (UInt32.ofNat length)) = UInt32.ofNat length := by
  apply UInt32.toNat_inj.mp
  have high : (0xffff0000 : Nat) &&& (2 ^ 16 - 1) = 0 := by decide
  have value : (UInt32.ofNat length).toNat = length := by
    rw [UInt32.toNat_ofNat']
    omega
  simp only [keyGetLength, keyMakeKey, UInt32.toNat_and, UInt32.toNat_or, UInt32.toNat_ofNat, value]
  rw [show 65535 % 2 ^ 32 = 2 ^ 16 - 1 from rfl, show 4294901760 % 2 ^ 32 = 4294901760 from rfl,
    Nat.and_or_distrib_right, Nat.and_assoc, Nat.and_assoc, Nat.and_self, high, Nat.and_zero,
    Nat.zero_or, Nat.and_two_pow_sub_one_eq_mod]
  omega

theorem keyGetKey_keyMakeKey (tag length : UInt32) :
    keyGetKey (keyMakeKey tag length) = tag &&& 0xffff0000 := by
  apply UInt32.toNat_inj.mp
  have disjoint : (65535 : Nat) &&& 4294901760 = 0 := by decide
  simp only [keyGetKey, keyMakeKey, UInt32.toNat_and, UInt32.toNat_or, UInt32.toNat_ofNat]
  rw [show 65535 % 2 ^ 32 = 65535 from rfl, show 4294901760 % 2 ^ 32 = 4294901760 from rfl,
    Nat.and_or_distrib_right, Nat.and_assoc, Nat.and_self, Nat.and_assoc, disjoint, Nat.and_zero,
    Nat.or_zero]

/-- Keys with a tag and a 16-bit length. -/
def maskedCodec : KeyCodec where
  keys := maskedKeys
  mainKey length := keyMakeKey mainKeyTag (UInt32.ofNat length)
  partKey length := keyMakeKey partKeyTag (UInt32.ofNat length)
  mainKeyOk _ := by simp only [maskedKeys, keyGetKey_keyMakeKey]; decide
  mainLength small := keyGetLength_keyMakeKey mainKeyTag small
  partKeyOk _ := by simp only [maskedKeys, keyGetKey_keyMakeKey]; decide
  partLength small := keyGetLength_keyMakeKey partKeyTag small

/-- The size of the parts of a packet, keys included: what the main key declares. -/
def partsSize (parts : List (List UInt8)) : Nat := (parts.map fun body => 4 + body.length).sum

def encodePart (codec : KeyCodec) (body : List UInt8) : List UInt8 :=
  u32Bytes (codec.partKey body.length) ++ body

def encodePacket (codec : KeyCodec) (parts : List (List UInt8)) : List UInt8 :=
  u32Bytes (codec.mainKey (partsSize parts)) ++ parts.flatMap (encodePart codec)

def encodeStream (codec : KeyCodec) (packets : List (List (List UInt8))) : List UInt8 :=
  packets.flatMap (encodePacket codec)

@[simp] theorem partsSize_nil : partsSize [] = 0 := rfl

@[simp] theorem partsSize_cons (body : List UInt8) (parts : List (List UInt8)) :
    partsSize (body :: parts) = 4 + body.length + partsSize parts := rfl

@[simp] theorem encodePart_length (codec : KeyCodec) (body : List UInt8) :
    (encodePart codec body).length = 4 + body.length := by
  simp [encodePart]

theorem flatMap_encodePart_length (codec : KeyCodec) (parts : List (List UInt8)) :
    (parts.flatMap (encodePart codec)).length = partsSize parts := by
  induction parts with
  | nil => rfl
  | cons body parts inductionHypothesis =>
      rw [List.flatMap_cons, List.length_append, encodePart_length, inductionHypothesis,
        partsSize_cons]

@[simp] theorem encodePacket_length (codec : KeyCodec) (parts : List (List UInt8)) :
    (encodePacket codec parts).length = 4 + partsSize parts := by
  rw [encodePacket, List.length_append, u32Bytes_length, flatMap_encodePart_length]

@[simp] theorem encodeStream_nil (codec : KeyCodec) : encodeStream codec [] = [] := rfl

@[simp] theorem encodeStream_cons (codec : KeyCodec) (packet : List (List UInt8))
    (packets : List (List (List UInt8))) :
    encodeStream codec (packet :: packets) =
      encodePacket codec packet ++ encodeStream codec packets := rfl

theorem partsSize_append (front back : List (List UInt8)) :
    partsSize (front ++ back) = partsSize front + partsSize back := by
  simp [partsSize]

theorem encodeStream_append (codec : KeyCodec) (front back : List (List (List UInt8))) :
    encodeStream codec (front ++ back) = encodeStream codec front ++ encodeStream codec back :=
  List.flatMap_append

/-- A packet with a part is longer than its part key. -/
theorem partsSize_ge {parts : List (List UInt8)} (nonempty : parts ≠ []) : 4 ≤ partsSize parts := by
  cases parts with
  | nil => exact absurd rfl nonempty
  | cons body parts => simp [Nat.add_assoc]

end LobbySvr.Spec

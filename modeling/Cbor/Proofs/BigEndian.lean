import Cbor.Bytes
import Mathlib.Algebra.Group.Nat.Defs
import Mathlib.Data.List.Induction
import Mathlib.Data.Nat.Digits.Defs

/-!
# Big-endian numbers

Writing a number in a width and reading bytes as a number are inverse to each other, and the
reader that keeps 64 bits agrees with the one that keeps all of them.  Shifting the bytes in one
after another reads the same, and only the last eight of them count.
-/

namespace Cbor.Bytes

theorem toNat_lt (bytes : Bytes) : toNat bytes < 256 ^ bytes.length := by
  induction bytes using List.reverseRecOn with
  | nil => decide
  | append_singleton bytes byte ih =>
      have hbyte := byte.toNat_lt
      simp only [toNat_append_singleton, List.length_append, List.length_singleton, Nat.pow_succ]
      omega

theorem toNat_ofNat (width number : Nat) :
    toNat (ofNat width number) = number % 256 ^ width := by
  induction width generalizing number with
  | zero => simp [ofNat, toNat, Nat.mod_one]
  | succ width ih =>
      have hbyte : (UInt8.ofNat number).toNat = number % 256 := by simp
      rw [ofNat, toNat_append_singleton, ih, hbyte, Nat.pow_succ', Nat.mod_mul]
      omega

theorem ofNat_toNat (bytes : Bytes) : ofNat bytes.length (toNat bytes) = bytes := by
  induction bytes using List.reverseRecOn with
  | nil => rfl
  | append_singleton bytes byte ih =>
      have hbyte := byte.toNat_lt
      have hdiv : (toNat bytes * 256 + byte.toNat) / 256 = toNat bytes := by omega
      have hlow : UInt8.ofNat (toNat bytes * 256 + byte.toNat) = byte := by
        apply UInt8.toNat_inj.mp
        simp
      simp only [List.length_append, List.length_singleton, toNat_append_singleton, ofNat, hdiv,
        hlow, ih]

theorem toUInt64_eq (bytes : Bytes) : toUInt64 bytes = UInt64.ofNat (toNat bytes) := by
  induction bytes using List.reverseRecOn with
  | nil => rfl
  | append_singleton bytes byte ih =>
      rw [toUInt64_append_singleton, ih, toNat_append_singleton]
      apply UInt64.toNat_inj.mp
      simp [UInt64.toNat_add, UInt64.toNat_mul]

theorem toNat_toUInt64 (bytes : Bytes) : (toUInt64 bytes).toNat = toNat bytes % 2 ^ 64 := by
  rw [toUInt64_eq, UInt64.toNat_ofNat']

theorem toUInt64_ofNat {width : Nat} {number : UInt64} (h : number.toNat < 256 ^ width) :
    toUInt64 (ofNat width number.toNat) = number := by
  rw [toUInt64_eq, toNat_ofNat, Nat.mod_eq_of_lt h, UInt64.ofNat_toNat]

theorem lt_of_lt_pow_width {width number : Nat} (h : number < 256 ^ width) (hwidth : width ≤ 8) :
    number < 2 ^ 64 :=
  calc
    number < 256 ^ width := h
    _ ≤ 256 ^ 8 := Nat.pow_le_pow_right (by decide) hwidth
    _ = 2 ^ 64 := by decide

theorem ofNat_toUInt64 {bytes : Bytes} (h : bytes.length ≤ 8) :
    ofNat bytes.length (toUInt64 bytes).toNat = bytes := by
  have hlt : toNat bytes < 2 ^ 64 := lt_of_lt_pow_width (toNat_lt bytes) h
  rw [toUInt64_eq, UInt64.toNat_ofNat_of_lt' hlt, ofNat_toNat]

theorem toUInt64_lt (bytes : Bytes) : (toUInt64 bytes).toNat < 256 ^ bytes.length := by
  rw [toNat_toUInt64]
  exact Nat.lt_of_le_of_lt (Nat.mod_le _ _) (toNat_lt bytes)

/-! ## Digits and their positions -/

theorem toNat_eq_ofDigits (bytes : Bytes) :
    toNat bytes = Nat.ofDigits 256 (bytes.reverse.map UInt8.toNat) := by
  induction bytes using List.reverseRecOn with
  | nil => rfl
  | append_singleton bytes byte ih =>
      rw [toNat_append_singleton, ih, List.reverse_append, List.reverse_singleton,
        List.singleton_append, List.map_cons, Nat.ofDigits_cons]
      omega

theorem toNat_append (front last : Bytes) :
    toNat (front ++ last) = toNat front * 256 ^ last.length + toNat last := by
  induction last using List.reverseRecOn with
  | nil => simp [toNat]
  | append_singleton last byte ih =>
      rw [← List.append_assoc, toNat_append_singleton, toNat_append_singleton, ih,
        List.length_append, List.length_singleton, Nat.pow_succ, ← Nat.mul_assoc]
      omega

theorem toUInt64_append_of_length {front last : Bytes} (h : 8 ≤ last.length) :
    toUInt64 (front ++ last) = toUInt64 last := by
  obtain ⟨more, hmore⟩ := Nat.exists_eq_add_of_le h
  have hwidth : (256 : Nat) ^ 8 = 2 ^ 64 := by decide
  have hfront : toNat front * 256 ^ last.length = 2 ^ 64 * (toNat front * 256 ^ more) := by
    rw [hmore, Nat.pow_add, Nat.mul_left_comm, hwidth]
  apply UInt64.toNat_inj.mp
  rw [toNat_toUInt64, toNat_toUInt64, toNat_append, hfront, Nat.mul_add_mod]

theorem toUInt64_drop (bytes : Bytes) :
    toUInt64 (bytes.drop (bytes.length - 8)) = toUInt64 bytes := by
  by_cases hlong : 8 ≤ bytes.length
  · have hlast : 8 ≤ (bytes.drop (bytes.length - 8)).length := by
      rw [List.length_drop]
      omega
    have hsplit := List.take_append_drop (bytes.length - 8) bytes
    calc
      toUInt64 (bytes.drop (bytes.length - 8))
        = toUInt64 (bytes.take (bytes.length - 8) ++ bytes.drop (bytes.length - 8)) :=
          (toUInt64_append_of_length hlast).symm
      _ = toUInt64 bytes := by rw [hsplit]
  · rw [Nat.sub_eq_zero_of_le (by omega), List.drop_zero]

/-! ## Shifting bytes in -/

/-- Moves a number up by a byte and puts the byte below it; what leaves the 64 bits is lost. -/
def shiftIn (number : UInt64) (byte : UInt8) : UInt64 := number <<< 8 ||| byte.toUInt64

theorem shiftIn_eq (number : UInt64) (byte : UInt8) :
    shiftIn number byte = number * 256 + byte.toUInt64 := by
  have hbyte : byte.toNat < 2 ^ 8 := byte.toNat_lt
  have hshift : number.toNat <<< 8 % 2 ^ 64 = (number.toNat % 2 ^ 56) <<< 8 := by
    simp only [Nat.shiftLeft_eq]
    omega
  apply UInt64.toNat_inj.mp
  simp only [shiftIn, UInt64.toNat_or, UInt64.toNat_shiftLeft, UInt64.toNat_add, UInt64.toNat_mul,
    UInt8.toNat_toUInt64]
  change number.toNat <<< 8 % 2 ^ 64 ||| byte.toNat =
    (number.toNat * 256 % 2 ^ 64 + byte.toNat) % 2 ^ 64
  -- the shift leaves the low byte empty, so nothing is carried
  rw [hshift, ← Nat.shiftLeft_add_eq_or_of_lt hbyte, Nat.shiftLeft_eq]
  omega

theorem foldl_shiftIn (bytes : Bytes) : bytes.foldl shiftIn 0 = toUInt64 bytes := by
  induction bytes using List.reverseRecOn with
  | nil => rfl
  | append_singleton bytes byte ih =>
      rw [List.foldl_append, ih, List.foldl_cons, List.foldl_nil, shiftIn_eq,
        toUInt64_append_singleton]

end Cbor.Bytes

import Cbor.Float.Binary
import Mathlib.Algebra.Group.Nat.Defs

/-!
# Half floats as single floats

The single pattern of a half float by the fields of both, and that widening finds it.
-/

namespace Cbor.FloatFormat

/--
The single pattern that stands for the number of a half pattern.  The fraction of a subnormal
number is shifted up to the implicit bit, and a NaN keeps its payload at the top of the fraction.
-/
inductive WidensHalf : (bits wide : Nat) → Prop
  | zero {sign : Nat} (hsign : sign < 2) :
      WidensHalf (half.assemble sign 0 0) (single.assemble sign 0 0)
  | subnormal {sign fraction shift : Nat} (hsign : sign < 2) (hfraction : fraction < 2 ^ 10)
      (hlower : 2 ^ 10 ≤ fraction * 2 ^ shift) (hupper : fraction * 2 ^ shift < 2 ^ 11) :
      WidensHalf (half.assemble sign 0 fraction)
        (single.assemble sign (113 - shift) ((fraction * 2 ^ shift - 2 ^ 10) * 2 ^ 13))
  | normal {sign exponent fraction : Nat} (hsign : sign < 2) (hfraction : fraction < 2 ^ 10)
      (hlower : 0 < exponent) (hupper : exponent < 31) :
      WidensHalf (half.assemble sign exponent fraction)
        (single.assemble sign (exponent + 112) (fraction * 2 ^ 13))
  | top {sign fraction : Nat} (hsign : sign < 2) (hfraction : fraction < 2 ^ 10) :
      WidensHalf (half.assemble sign 31 fraction) (single.assemble sign 255 (fraction * 2 ^ 13))

private theorem widen_assemble {sign exponent fraction : Nat} (hsign : sign < 2)
    (hexponent : exponent < 32) (hfraction : fraction < 2 ^ 10) :
    half.widen single (half.assemble sign exponent fraction) =
      if exponent = 31 then single.assemble sign 255 (fraction * 2 ^ 13)
      else if exponent ≠ 0 then single.assemble sign (exponent + 112) (fraction * 2 ^ 13)
      else if fraction = 0 then single.assemble sign 0 0
      else
        single.assemble sign (113 + fraction.log2 - 10)
          ((fraction - 2 ^ fraction.log2) * 2 ^ (23 - fraction.log2)) := by
  have hbits : half.assemble sign exponent fraction =
      (sign * 32 + exponent) * 1024 + fraction := rfl
  have hlow : ((sign * 32 + exponent) * 1024 + fraction) % 1024 = fraction := by omega
  have hmiddle : ((sign * 32 + exponent) * 1024 + fraction) / 1024 % 32 = exponent := by omega
  have hhigh : ((sign * 32 + exponent) * 1024 + fraction) / 1024 / 32 % 2 = sign := by omega
  have htwo : twoPow half.fractionBits = 1024 ∧ twoPow half.exponentBits = 32 := ⟨rfl, rfl⟩
  simp only [widen, hbits, htwo.1, htwo.2, hlow, hmiddle, hhigh]
  rfl

private theorem log2_of_shift {fraction shift : Nat}
    (hlower : 2 ^ 10 ≤ fraction * 2 ^ shift) (hupper : fraction * 2 ^ shift < 2 ^ 11) :
    fraction ≠ 0 ∧ shift ≤ 10 ∧ fraction.log2 = 10 - shift := by
  have hpos : fraction ≠ 0 := by
    rintro rfl
    simp at hlower
  -- a larger shift would carry even a lone last bit beyond the implicit one
  have hshift : shift ≤ 10 := by
    apply Nat.le_of_not_lt
    intro hlarge
    have hpow : 2 ^ 11 ≤ 2 ^ shift := Nat.pow_le_pow_right (by decide) hlarge
    have hmul : 2 ^ shift ≤ fraction * 2 ^ shift :=
      Nat.le_mul_of_pos_left _ (Nat.pos_of_ne_zero hpos)
    omega
  refine ⟨hpos, hshift, (Nat.log2_eq_iff hpos).mpr ⟨?_, ?_⟩⟩
  · apply Nat.le_of_mul_le_mul_right _ (Nat.two_pow_pos shift)
    rwa [← Nat.pow_add, Nat.sub_add_cancel hshift]
  · apply Nat.lt_of_mul_lt_mul_right (a := 2 ^ shift)
    rwa [← Nat.pow_add, show 10 - shift + 1 + shift = 11 by omega]

theorem WidensHalf.eq_widen {bits wide : Nat} (h : WidensHalf bits wide) :
    wide = half.widen single bits := by
  cases h with
  | zero hsign => rw [widen_assemble hsign (by decide) (by decide)]; rfl
  | @subnormal sign fraction shift hsign hfraction hlower hupper =>
      obtain ⟨hpos, hshift, hlog⟩ := log2_of_shift hlower hupper
      have hexponent : 113 + (10 - shift) - 10 = 113 - shift := by omega
      have hplaces : 23 - (10 - shift) = shift + 13 := by omega
      have hscaled : (fraction - 2 ^ (10 - shift)) * 2 ^ shift = fraction * 2 ^ shift - 2 ^ 10 := by
        rw [Nat.sub_mul, ← Nat.pow_add, Nat.sub_add_cancel hshift]
      rw [widen_assemble hsign (by decide) hfraction, if_neg (by decide), if_neg (by decide),
        if_neg hpos, hlog, hexponent, hplaces, Nat.pow_add, ← Nat.mul_assoc, hscaled]
  | normal hsign hfraction hlower hupper =>
      rw [widen_assemble hsign (by omega) hfraction, if_neg (by omega), if_pos (by omega)]
  | top hsign hfraction => rw [widen_assemble hsign (by decide) hfraction, if_pos rfl]

theorem exists_widensHalf {bits : Nat} (hbits : bits < 2 ^ 16) : ∃ wide, WidensHalf bits wide := by
  have hsign : bits / 1024 / 32 < 2 := by omega
  have hexponent : bits / 1024 % 32 < 32 := by omega
  have hfraction : bits % 1024 < 2 ^ 10 := by omega
  have hassemble : half.assemble (bits / 1024 / 32) (bits / 1024 % 32) (bits % 1024) = bits := by
    change (bits / 1024 / 32 * 32 + bits / 1024 % 32) * 1024 + bits % 1024 = bits
    omega
  rw [← hassemble]
  generalize bits / 1024 / 32 = sign at hsign
  generalize bits / 1024 % 32 = exponent at hexponent
  generalize bits % 1024 = fraction at hfraction
  by_cases htop : exponent = 31
  · subst htop
    exact ⟨_, .top hsign hfraction⟩
  by_cases hexp : exponent = 0
  · subst hexp
    by_cases hzero : fraction = 0
    · subst hzero
      exact ⟨_, .zero hsign⟩
    have hlower := Nat.log2_self_le hzero
    have hupper := Nat.lt_log2_self (n := fraction)
    have hlead : fraction.log2 < 10 := (Nat.log2_lt hzero).mpr hfraction
    refine ⟨_, @WidensHalf.subnormal _ _ (10 - fraction.log2) hsign hfraction ?_ ?_⟩
    · calc
        2 ^ 10 = 2 ^ fraction.log2 * 2 ^ (10 - fraction.log2) := by
          rw [← Nat.pow_add, Nat.add_sub_cancel' (by omega)]
        _ ≤ fraction * 2 ^ (10 - fraction.log2) := Nat.mul_le_mul_right _ hlower
    · calc
        fraction * 2 ^ (10 - fraction.log2) <
            2 ^ (fraction.log2 + 1) * 2 ^ (10 - fraction.log2) :=
          Nat.mul_lt_mul_of_pos_right hupper (Nat.two_pow_pos _)
        _ = 2 ^ 11 := by rw [← Nat.pow_add]; congr 1; omega
  · exact ⟨_, .normal hsign hfraction (by omega) (by omega)⟩

theorem widensHalf_widen {bits : Nat} (hbits : bits < 2 ^ 16) :
    WidensHalf bits (half.widen single bits) := by
  obtain ⟨wide, hwide⟩ := exists_widensHalf hbits
  rwa [← hwide.eq_widen]

theorem WidensHalf.lt {bits wide : Nat} (h : WidensHalf bits wide) : wide < 2 ^ 32 := by
  have hfields : ∀ sign exponent fraction, sign < 2 → exponent < 2 ^ 8 → fraction < 2 ^ 23 →
      single.assemble sign exponent fraction < 2 ^ 32 := by
    intro sign exponent fraction hsign hexponent hfraction
    change (sign * 256 + exponent) * 8388608 + fraction < 2 ^ 32
    omega
  cases h <;> apply hfields <;> omega

end Cbor.FloatFormat

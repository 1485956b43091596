import Mathlib
import TypedCss.Decimal.Text

/-!
# Floats and their bits

The numbers that a numeral stands for are the finite floats whose sign bit is zero (`IsPlain`), and
a float is known by its bits. `Dyadic.ofBits` takes such a float apart into a mantissa and an
exponent that are in their ranges (`Dyadic.InRange`), and `Dyadic.bits` gives the bits back from the
two (`Dyadic.bits_ofBits`).
-/

namespace TypedCss.Decimal

open Float.Model
open Float.Model.UnpackedFloat (unpackExponent)

theorem leadingOne_eq : leadingOne = 2 ^ 52 := rfl

/-! ### Finite floats -/

/-- A finite float whose sign bit is zero: a number that a numeral stands for. -/
structure IsPlain (x : Float) : Prop where
  /-- The float is neither infinite nor no number at all. -/
  finite : x.isFinite = true
  /-- The sign bit is zero. -/
  unsigned : x.toBits.toNat < 2 ^ 63

theorem eq_zero_iff_toBits {x : Float} : x = 0 ↔ x.toBits.toNat = 0 := by
  rw [← Float.toBits_inj, ← UInt64.toNat_inj]
  rfl

theorem exponentField_toNat (b : BitVec Format.binary64.numBits) :
    Dyadic.exponentField b.toNat = (unpackExponent b).toNat := by
  simp [Dyadic.exponentField, leadingOne, unpackExponent, Nat.shiftRight_eq_div_pow]

/-- The exponent field of a finite float is not all ones. -/
theorem exponentField_ne_of_isFinite {x : Float} (h : x.isFinite = true) :
    Dyadic.exponentField x.toBits.toNat ≠ 0x7FF := by
  let word : BitVec Format.binary64.numBits := x.toBits.toBitVec
  intro he
  have hones : unpackExponent word = -1#11 :=
    BitVec.eq_of_toNat_eq ((exponentField_toNat word).symm.trans he)
  have hu : x.isFinite = (UnpackedFloat.unpack Format.binary64 word).isFinite := rfl
  rw [hu, UnpackedFloat.unpack] at h
  dsimp only at h
  rw [if_pos hones] at h
  split at h <;> cases h

namespace IsPlain

variable {x : Float}

theorem toBits_lt (h : IsPlain x) : x.toBits.toNat < 0x7FF * leadingOne := by
  have he := exponentField_ne_of_isFinite h.finite
  have hu := h.unsigned
  rw [Dyadic.exponentField] at he
  rw [leadingOne_eq] at *
  omega

theorem isNaN_eq_false (h : IsPlain x) : x.isNaN = false := by
  have hn : ∀ u : UnpackedFloat, u.isFinite = true → u.isNaN = false := by
    intro u hu
    cases u <;> first | rfl | cases hu
  exact hn x.toModel.unpack h.finite

theorem isInf_eq_false (h : IsPlain x) : x.isInf = false := by
  have hn : ∀ u : UnpackedFloat, u.isFinite = true → u.isInf = false := by
    intro u hu
    cases u <;> first | rfl | cases hu
  exact hn x.toModel.unpack h.finite

/-- The only plain float that equals zero is the zero without a sign. -/
theorem beq_zero (h : IsPlain x) : (x == 0) = decide (x.toBits.toNat = 0) := by
  have hnan : x ≠ Float.nan := by
    rintro rfl
    exact absurd h.isNaN_eq_false (by decide)
  have hsigned : x ≠ -0 := by
    rintro rfl
    exact absurd h.unsigned (by decide)
  have hzero : (0 : Float) ≠ Float.nan := by
    intro h0
    have hf : (0 : Float).isNaN = Float.nan.isNaN := congrArg Float.isNaN h0
    exact absurd hf (by decide)
  -- Two floats are equal without being the same only if they are the two zeros.
  rw [Bool.eq_iff_iff, decide_eq_true_iff, Float.beq_iff_ne_nan_and_eq, ← eq_zero_iff_toBits]
  constructor
  · rintro ⟨-, -, hx | ⟨hx, -⟩ | ⟨hx, -⟩⟩
    · exact hx
    · exact hx
    · exact absurd hx hsigned
  · exact fun hx ↦ ⟨hnan, hzero, .inl hx⟩

end IsPlain

/-! ### Mantissa and exponent -/

namespace Dyadic

/-- The mantissas and exponents of the finite floats. -/
structure InRange (x : Dyadic) : Prop where
  /-- A mantissa has 53 bits. -/
  mantissa_lt : x.mantissa < 2 * leadingOne
  /-- The smallest exponent. -/
  le_exponent : -1074 ≤ x.exponent
  /-- The largest exponent. -/
  exponent_le : x.exponent ≤ 971
  /-- Only the smallest exponent comes with mantissas that lack the leading one. -/
  leading : x.mantissa < leadingOne → x.exponent = -1074

/-- The bits of the float with the given mantissa and exponent. -/
def bits (x : Dyadic) : Nat :=
  if x.mantissa < leadingOne then x.mantissa
  else (x.exponent + 1074).toNat * leadingOne + x.mantissa

theorem fractionField_lt (bits : Nat) : fractionField bits < leadingOne :=
  Nat.mod_lt _ (by decide)

theorem inRange_ofBits {n : Nat} (h : n < 0x7FF * leadingOne) : (ofBits n).InRange := by
  have hf := fractionField_lt n
  have he : exponentField n < 0x7FF := by
    rw [leadingOne_eq] at h
    rw [exponentField, leadingOne_eq]
    omega
  rw [ofBits]
  split
  · exact ⟨by dsimp only; omega, Int.le_refl _, by dsimp only; omega, fun _ ↦ rfl⟩
  · exact ⟨by dsimp only; omega, by dsimp only; omega, by dsimp only; omega,
      fun hlt ↦ absurd hlt (Nat.not_lt.2 (Nat.le_add_right ..))⟩

/-- The mantissa and the exponent determine the bits. -/
theorem bits_ofBits {n : Nat} (h : n < 0x7FF * leadingOne) : (ofBits n).bits = n := by
  have hf := fractionField_lt n
  by_cases he : exponentField n = 0
  · rw [ofBits, if_pos he, bits, if_pos hf]
    rw [exponentField, leadingOne_eq] at he
    rw [leadingOne_eq] at h
    dsimp only
    rw [fractionField, leadingOne_eq]
    omega
  · have hfield : (exponentField n - 1075 + 1074 : Int).toNat = exponentField n - 1 := by omega
    rw [ofBits, if_neg he, bits, if_neg (Nat.not_lt.2 (Nat.le_add_right ..)), hfield]
    rw [exponentField, leadingOne_eq] at he
    rw [leadingOne_eq] at h
    dsimp only
    rw [exponentField, fractionField, leadingOne_eq]
    omega

/-- Only zero has the mantissa zero. -/
theorem mantissa_pos {n : Nat} (h : n < 0x7FF * leadingOne) (hn : n ≠ 0) :
    0 < (ofBits n).mantissa := by
  refine Nat.pos_of_ne_zero fun hm ↦ hn ?_
  have hb := bits_ofBits h
  rw [bits, hm, if_pos (by decide)] at hb
  exact hb.symm

end Dyadic

end TypedCss.Decimal

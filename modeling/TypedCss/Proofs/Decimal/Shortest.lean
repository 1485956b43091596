import Mathlib.Algebra.Order.Field.Power
import Mathlib.Data.Rat.Cast.Order
import Mathlib.Tactic.FieldSimp
import Mathlib.Tactic.Linarith
import Mathlib.Tactic.NormNum
import Mathlib.Tactic.Positivity
import Mathlib.Tactic.Ring
import TypedCss.Decimal.Shortest

/-!
# The shortest decimal rounds to its float

The numbers that round to a float make up an interval around it, `Dyadic.Covers`. What the search
for the shortest decimal finds is tested against the bounds of that interval in a unit of its own
(`Dyadic.accepts`), so the decimal lies in it (`covers_shortest`).
-/

namespace TypedCss.Decimal

/-- A power is a quotient of two whole ones, of which one is `1`. -/
theorem zpow_eq_div {c : ℚ} (hc : c ≠ 0) (p : ℤ) : c ^ p = c ^ p.toNat / c ^ (-p).toNat := by
  rw [← zpow_natCast, ← zpow_natCast, ← zpow_sub₀ hc]
  congr 1
  omega

/-- The number that digits and a place for the last one stand for. -/
def Scaled.value (s : Scaled) : ℚ := s.digits * 10 ^ s.exponent

namespace Dyadic

variable {x : Dyadic}

/-- The numbers that round to a float. The two bounds do so only if the mantissa is even. -/
structure Covers (x : Dyadic) (r : ℚ) : Prop where
  /-- Half-way to the previous float. -/
  lower_le : x.lower * 2 ^ (x.exponent - 2) ≤ r
  /-- Half-way to the next float. -/
  le_upper : r ≤ x.upper * 2 ^ (x.exponent - 2)
  /-- The float with an odd mantissa is left to its neighbours at the bounds. -/
  strict : x.mantissa % 2 = 1 →
    x.lower * 2 ^ (x.exponent - 2) < r ∧ r < x.upper * 2 ^ (x.exponent - 2)

/-- A number times its place, in quarters of the mantissa's unit. -/
theorem mul_zpow_eq (x : Dyadic) (d : ℕ) (e : ℤ) :
    (d : ℚ) * 10 ^ e = (d * x.step e : ℕ) / x.quarter e * 2 ^ (x.exponent - 2) := by
  have h10 := zpow_eq_div (c := 10) (by norm_num) e
  have h2 := zpow_eq_div (c := 2) (by norm_num) (x.exponent - 2)
  have hneg : -(x.exponent - 2) = 2 - x.exponent := by ring
  rw [hneg] at h2
  rw [h10, h2, step, quarter]
  simp only [Nat.pow_eq]
  push_cast
  field_simp

theorem quarter_pos (x : Dyadic) (e : ℤ) : 0 < x.quarter e :=
  Nat.mul_pos (Nat.pow_pos (by decide)) (Nat.pow_pos (by decide))

/-- What is accepted in the unit of the grid rounds to the float. -/
theorem covers_of_accepts {d : ℕ} {e : ℤ}
    (h : x.accepts (x.lower * x.quarter e) (x.upper * x.quarter e) (d * x.step e) = true) :
    x.Covers (d * 10 ^ e) := by
  have hb : (0 : ℚ) < x.quarter e := by exact_mod_cast x.quarter_pos e
  have hu : (0 : ℚ) < 2 ^ (x.exponent - 2) := by positivity
  rw [x.mul_zpow_eq d e]
  -- In quarters of the mantissa's unit both bounds are whole numbers over one denominator.
  generalize d * x.step e = n at h
  have hle : ∀ k : ℕ, k * x.quarter e ≤ n →
      (k : ℚ) * 2 ^ (x.exponent - 2) ≤ n / x.quarter e * 2 ^ (x.exponent - 2) := fun k hk ↦
    mul_le_mul_of_nonneg_right ((le_div_iff₀ hb).2 (by exact_mod_cast hk)) hu.le
  have hge : ∀ k : ℕ, n ≤ k * x.quarter e →
      (n : ℚ) / x.quarter e * 2 ^ (x.exponent - 2) ≤ k * 2 ^ (x.exponent - 2) := fun k hk ↦
    mul_le_mul_of_nonneg_right ((div_le_iff₀ hb).2 (by exact_mod_cast hk)) hu.le
  rw [accepts] at h
  split at h
  · rename_i heven
    obtain ⟨hlo, hhi⟩ := Bool.and_eq_true_iff.1 h
    exact ⟨hle _ (of_decide_eq_true hlo), hge _ (of_decide_eq_true hhi), fun hodd ↦ by omega⟩
  · obtain ⟨hlo, hhi⟩ := Bool.and_eq_true_iff.1 h
    have hlo := of_decide_eq_true hlo
    have hhi := of_decide_eq_true hhi
    refine ⟨hle _ hlo.le, hge _ hhi.le, fun _ ↦ ⟨?_, ?_⟩⟩
    · exact mul_lt_mul_of_pos_right ((lt_div_iff₀ hb).2 (by exact_mod_cast hlo)) hu
    · exact mul_lt_mul_of_pos_right ((div_lt_iff₀ hb).2 (by exact_mod_cast hhi)) hu

/-- The decimal that is found on a grid rounds to the float. -/
theorem covers_of_onGrid? {d : ℕ} {e : ℤ} (h : x.onGrid? e = some d) : x.Covers (d * 10 ^ e) := by
  refine covers_of_accepts ?_
  unfold onGrid? at h
  dsimp only at h
  split at h
  · rename_i hd hd1
    split at h <;> cases h
    · exact hd
    · exact hd1
  · rename_i hd _
    cases h
    exact hd
  · rename_i _ hd1
    cases h
    exact hd1
  · cases h

/-- The bounds lie on both sides of the float itself. -/
theorem covers_self (h : 0 < x.mantissa) : x.Covers (x.mantissa * 2 ^ x.exponent) := by
  have hu : (0 : ℚ) < 2 ^ (x.exponent - 2) := by positivity
  have hmiddle : (x.mantissa : ℚ) * 2 ^ x.exponent =
      ((4 * x.mantissa : ℕ) : ℚ) * 2 ^ (x.exponent - 2) := by
    rw [zpow_sub₀ (by norm_num : (2 : ℚ) ≠ 0)]
    push_cast
    ring
  have hlower : x.lower < 4 * x.mantissa := by
    rw [lower]
    split <;> omega
  have hupper : 4 * x.mantissa < x.upper := by
    rw [upper]
    omega
  have hlower' : (x.lower : ℚ) < (4 * x.mantissa : ℕ) := Nat.cast_lt.2 hlower
  have hupper' : ((4 * x.mantissa : ℕ) : ℚ) < x.upper := Nat.cast_lt.2 hupper
  have hlo := mul_lt_mul_of_pos_right hlower' hu
  have hhi := mul_lt_mul_of_pos_right hupper' hu
  rw [hmiddle]
  exact ⟨hlo.le, hhi.le, fun _ ↦ ⟨hlo, hhi⟩⟩

/-- All digits of a float stand for the float itself. -/
theorem value_exact (x : Dyadic) : x.exact.value = x.mantissa * 2 ^ x.exponent := by
  rw [exact, Scaled.value]
  simp only [Nat.pow_eq]
  push_cast
  obtain hq | hq := le_total 0 x.exponent
  · have hneg : (-x.exponent).toNat = 0 := by omega
    rw [min_eq_right hq, hneg, ← zpow_natCast 2 x.exponent.toNat, Int.toNat_of_nonneg hq]
    simp
  · have hpos : x.exponent.toNat = 0 := by omega
    have h5 : (5 : ℚ) ^ (-x.exponent).toNat = 5 ^ (-x.exponent) := by
      rw [← zpow_natCast, Int.toNat_of_nonneg (by omega)]
    have h10 : (10 : ℚ) = 2 * 5 := by norm_num
    rw [min_eq_left hq, hpos, h5, h10, mul_zpow, zpow_neg]
    field_simp

/-- The shortest decimal of a float rounds to it. -/
theorem covers_shortest (h : 0 < x.mantissa) : x.Covers x.shortest.value := by
  rw [shortest]
  generalize hf : List.findSome? _ _ = found
  match found with
  | none =>
    show x.Covers x.exact.value
    rw [value_exact]
    exact covers_self h
  | some s =>
    obtain ⟨i, -, hi⟩ := List.exists_of_findSome?_eq_some hf
    obtain ⟨d, hd, rfl⟩ := Option.map_eq_some_iff.1 hi
    exact covers_of_onGrid? hd

end Dyadic

end TypedCss.Decimal

import TypedCss.Proofs.Decimal.Bits
import TypedCss.Proofs.Decimal.Shortest

/-!
# Rounding gives the float back

Every number that rounds to a float has that float as its nearest one (`nearest_eq`). The mantissa
comes out by itself if the number has the place of the float's last bit (`lastPlace_eq`). Below a
power of two it may be one place finer; then the mantissa rounds up to the next power of two, and
the carry into the exponent field makes up for it.
-/

namespace TypedCss.Decimal

/-! ### Rounding to an integer -/

/-- A number is rounded to the only integer within half a unit of it, or to the even one of two. -/
theorem roundDiv_eq {n d m : ℕ} (hd : 0 < d) (hlo : 2 * (m * d) ≤ 2 * n + d)
    (hhi : 2 * n ≤ 2 * (m * d) + d)
    (hodd : m % 2 = 1 → 2 * (m * d) < 2 * n + d ∧ 2 * n < 2 * (m * d) + d) :
    roundDiv n d = m := by
  have hn := Nat.div_add_mod n d
  have hr := Nat.mod_lt n hd
  -- Only the two integers next to the quotient are within half a unit of it.
  have hm : m = n / d ∨ m = n / d + 1 := by
    have hle : n / d ≤ m := by
      by_contra hlt
      have hmul : (m + 1) * d ≤ n / d * d := Nat.mul_le_mul_right d (by omega)
      rw [Nat.add_mul, Nat.mul_comm (n / d)] at hmul
      omega
    have hge : m ≤ n / d + 1 := by
      by_contra hlt
      have hmul : (n / d + 2) * d ≤ m * d := Nat.mul_le_mul_right d (by omega)
      rw [Nat.add_mul, Nat.mul_comm (n / d)] at hmul
      omega
    omega
  unfold roundDiv
  dsimp only
  obtain rfl | rfl := hm
  · rw [Nat.mul_comm (n / d)] at *
    split <;> rename_i hc
    · rfl
    · rw [Nat.compare_eq_gt] at hc
      omega
    · rw [Nat.compare_eq_eq] at hc
      split <;> omega
  · rw [Nat.add_mul, Nat.mul_comm (n / d)] at *
    split <;> rename_i hc
    · rw [Nat.compare_eq_lt] at hc
      omega
    · rfl
    · rw [Nat.compare_eq_eq] at hc
      split <;> omega

/-- A fraction in the unit `2 ^ p`. -/
theorem scaled_div (num den : ℕ) (p : ℤ) :
    ((num * Nat.pow 2 (-p).toNat : ℕ) : ℚ) / (den * Nat.pow 2 p.toNat : ℕ) =
      num / den / 2 ^ p := by
  rw [zpow_eq_div (by norm_num : (2 : ℚ) ≠ 0) p]
  simp only [Nat.pow_eq]
  push_cast
  field_simp

theorem scaled_den_pos {den : ℕ} (hd : 0 < den) (p : ℤ) : 0 < den * Nat.pow 2 p.toNat :=
  Nat.mul_pos hd (Nat.pow_pos (by decide))

/-- The bounds for rounding, in the unit `2 ^ p`. -/
theorem roundDiv_scaled {num den m : ℕ} {p : ℤ} (hd : 0 < den)
    (hlo : (m - 1 / 2 : ℚ) * 2 ^ p ≤ num / den) (hhi : (num / den : ℚ) ≤ (m + 1 / 2) * 2 ^ p)
    (hodd : m % 2 = 1 →
      (m - 1 / 2 : ℚ) * 2 ^ p < num / den ∧ (num / den : ℚ) < (m + 1 / 2) * 2 ^ p) :
    roundDiv (num * Nat.pow 2 (-p).toNat) (den * Nat.pow 2 p.toNat) = m := by
  have hp : (0 : ℚ) < 2 ^ p := by positivity
  have hd' := scaled_den_pos hd p
  have hdq : (0 : ℚ) < (den * Nat.pow 2 p.toNat : ℕ) := by exact_mod_cast hd'
  have hs := scaled_div num den p
  generalize num * Nat.pow 2 (-p).toNat = n at hs ⊢
  generalize den * Nat.pow 2 p.toNat = d at hs hd' hdq ⊢
  have hn : (n : ℚ) = num / den / 2 ^ p * d := (div_eq_iff hdq.ne').1 hs
  have hlo' := (le_div_iff₀ hp).2 hlo
  have hhi' := (div_le_iff₀ hp).2 hhi
  refine roundDiv_eq hd' ?_ ?_ fun h ↦ ⟨?_, ?_⟩
  · have hmul := mul_le_mul_of_nonneg_right hlo' hdq.le
    rw [← hn] at hmul
    have hle : (2 * (m * d) : ℚ) ≤ 2 * n + d := by linarith
    exact_mod_cast hle
  · have hmul := mul_le_mul_of_nonneg_right hhi' hdq.le
    rw [← hn] at hmul
    have hle : (2 * n : ℚ) ≤ 2 * (m * d) + d := by linarith
    exact_mod_cast hle
  · have hmul := mul_lt_mul_of_pos_right ((lt_div_iff₀ hp).2 (hodd h).1) hdq
    rw [← hn] at hmul
    have hlt : (2 * (m * d) : ℚ) < 2 * n + d := by linarith
    exact_mod_cast hlt
  · have hmul := mul_lt_mul_of_pos_right ((div_lt_iff₀ hp).2 (hodd h).2) hdq
    rw [← hn] at hmul
    have hlt : (2 * n : ℚ) < 2 * (m * d) + d := by linarith
    exact_mod_cast hlt

/-! ### The place of the last bit -/

/-- The powers of two next to a number. -/
theorem log2_bounds {n : ℕ} (h : 0 < n) :
    (2 : ℚ) ^ (n.log2 : ℤ) ≤ n ∧ (n : ℚ) < 2 ^ ((n.log2 : ℤ) + 1) := by
  constructor
  · rw [zpow_natCast]
    exact_mod_cast Nat.log2_self_le h.ne'
  · rw [← Nat.cast_succ, zpow_natCast]
    exact_mod_cast Nat.lt_log2_self

/-- The guess from the numbers of bits is right, or one too large. -/
theorem lastPlace_eq {num den : ℕ} (hn : 0 < num) (hd : 0 < den) {l : ℤ}
    (hlo : (2 : ℚ) ^ l ≤ num / den) (hhi : (num / den : ℚ) < 2 ^ (l + 1)) :
    lastPlace num den = max (l - 52) (-1074) := by
  have h1 : (1 : ℚ) < 2 := by norm_num
  have h2 : (2 : ℚ) ≠ 0 := by norm_num
  have hdq : (0 : ℚ) < den := by exact_mod_cast hd
  obtain ⟨g, hg⟩ : ∃ g : ℤ, g = (num.log2 : ℤ) - den.log2 := ⟨_, rfl⟩
  have hnum := log2_bounds hn
  have hden := log2_bounds hd
  -- Both logarithms round down, so their difference may be off by one to either side.
  have hle : l ≤ g := by
    have hpow : (2 : ℚ) ^ l < 2 ^ (g + 1) := by
      refine hlo.trans_lt ?_
      rw [div_lt_iff₀ hdq]
      calc (num : ℚ) < 2 ^ ((num.log2 : ℤ) + 1) := hnum.2
        _ = 2 ^ (g + 1) * 2 ^ (den.log2 : ℤ) := by rw [← zpow_add₀ h2]; congr 1; omega
        _ ≤ 2 ^ (g + 1) * den := mul_le_mul_of_nonneg_left hden.1 (by positivity)
    have hlt := (zpow_lt_zpow_iff_right₀ h1).1 hpow
    omega
  have hge : g - 1 ≤ l := by
    have hpow : (2 : ℚ) ^ (g - 1) < 2 ^ (l + 1) := by
      refine lt_of_le_of_lt ?_ hhi
      rw [le_div_iff₀ hdq]
      calc (2 : ℚ) ^ (g - 1) * den ≤ 2 ^ (g - 1) * 2 ^ ((den.log2 : ℤ) + 1) :=
            mul_le_mul_of_nonneg_left hden.2.le (by positivity)
        _ = 2 ^ (num.log2 : ℤ) := by rw [← zpow_add₀ h2]; congr 1; omega
        _ ≤ num := hnum.1
    have hlt := (zpow_lt_zpow_iff_right₀ h1).1 hpow
    omega
  -- The test is the comparison with `2 ^ g` without fractions, and tells the two cases apart.
  have htest : num * Nat.pow 2 (-g).toNat < den * Nat.pow 2 g.toNat ↔ l < g := by
    have hdq' : (0 : ℚ) < (den * Nat.pow 2 g.toNat : ℕ) := by exact_mod_cast scaled_den_pos hd g
    rw [← @Nat.cast_lt ℚ, ← div_lt_one hdq', scaled_div, div_lt_one (by positivity)]
    refine ⟨fun h ↦ (zpow_lt_zpow_iff_right₀ h1).1 (hlo.trans_lt h), fun h ↦ hhi.trans_le ?_⟩
    exact (zpow_le_zpow_iff_right₀ h1).2 h
  have hguess : (num.log2 : ℤ) - den.log2 - 52 + 52 = g := by omega
  unfold lastPlace
  dsimp only
  rw [hguess]
  split
  · rename_i h
    have hlt := htest.1 h
    congr 1
    omega
  · rename_i h
    have hge' := mt htest.2 h
    congr 1
    omega

/-! ### The nearest float -/

namespace Dyadic

variable {x : Dyadic}

theorem InRange.bits_lt (h : x.InRange) : x.bits < 0x7FF * leadingOne := by
  have hm := h.mantissa_lt
  have hq := h.exponent_le
  have hlow := h.le_exponent
  rw [bits]
  split
  · omega
  · have hk : (x.exponent + 1074).toNat ≤ 2045 := by omega
    have hfield := Nat.mul_le_mul_right leadingOne hk
    omega

/-- The bounds, in the mantissa's unit. -/
theorem Covers.bounds {r : ℚ} (h : x.Covers r) :
    (x.mantissa - 1 / 2 : ℚ) * 2 ^ x.exponent ≤ r ∧ r ≤ (x.mantissa + 1 / 2) * 2 ^ x.exponent ∧
      (x.mantissa % 2 = 1 → (x.mantissa - 1 / 2 : ℚ) * 2 ^ x.exponent < r ∧
        r < (x.mantissa + 1 / 2) * 2 ^ x.exponent) := by
  have hu : (0 : ℚ) < 2 ^ (x.exponent - 2) := by positivity
  have hunit : (2 : ℚ) ^ x.exponent = 4 * 2 ^ (x.exponent - 2) := by
    rw [zpow_sub₀ (by norm_num : (2 : ℚ) ≠ 0)]
    ring
  have hupper : (x.mantissa + 1 / 2 : ℚ) * 2 ^ x.exponent = x.upper * 2 ^ (x.exponent - 2) := by
    rw [hunit, upper]
    push_cast
    ring
  have hlower : (x.mantissa - 1 / 2 : ℚ) * 2 ^ x.exponent ≤ x.lower * 2 ^ (x.exponent - 2) := by
    have hle : 4 * x.mantissa ≤ x.lower + 2 := by
      rw [lower]
      split <;> omega
    have hle : (4 * x.mantissa : ℚ) ≤ x.lower + 2 := by exact_mod_cast hle
    rw [hunit, ← mul_assoc]
    exact mul_le_mul_of_nonneg_right (by linarith) hu.le
  rw [hupper]
  exact ⟨hlower.trans h.lower_le, h.le_upper, fun hodd ↦
    ⟨hlower.trans_lt (h.strict hodd).1, (h.strict hodd).2⟩⟩

/-- Just below a power of two the floats are twice as dense. -/
theorem Covers.leading_le {r : ℚ} (h : x.Covers r) (hm : x.mantissa = leadingOne)
    (hq : -1074 < x.exponent) : ((2 * leadingOne : ℕ) - 1 / 2 : ℚ) * 2 ^ (x.exponent - 1) ≤ r := by
  have hlower : x.lower + 1 = 4 * leadingOne := by
    rw [lower, if_pos ⟨hm, hq⟩, hm]
    exact Nat.sub_add_cancel (Nat.mul_pos (by decide) (by decide))
  have hlower : (x.lower + 1 : ℚ) = 4 * leadingOne := by exact_mod_cast hlower
  have hunit : (2 : ℚ) ^ (x.exponent - 1) = 2 * 2 ^ (x.exponent - 2) := by
    rw [zpow_sub₀ (by norm_num : (2 : ℚ) ≠ 0), zpow_sub₀ (by norm_num : (2 : ℚ) ≠ 0)]
    ring
  have hl : (x.lower : ℚ) = 4 * leadingOne - 1 := by linarith
  have hb := h.lower_le
  rw [hl] at hb
  rw [hunit]
  push_cast
  linarith

theorem leadingOne_eq_zpow : (leadingOne : ℚ) = 2 ^ (52 : ℤ) := by
  rw [leadingOne_eq]
  norm_num

/-- A float is less than the power of two after its bits. -/
theorem Covers.lt_zpow {r : ℚ} (hx : x.InRange) (h : x.Covers r) : r < 2 ^ (x.exponent + 53) := by
  have hu : (0 : ℚ) < 2 ^ x.exponent := by positivity
  have hm : (x.mantissa + 1 : ℚ) ≤ 2 * leadingOne := by
    have := Nat.succ_le_of_lt hx.mantissa_lt
    exact_mod_cast this
  have hsplit : x.exponent + 53 = 1 + 52 + x.exponent := by ring
  rw [hsplit, zpow_add₀ two_ne_zero, zpow_add₀ two_ne_zero, ← leadingOne_eq_zpow, zpow_one]
  exact h.bounds.2.1.trans_lt (mul_lt_mul_of_pos_right (by linarith) hu)

/-- Above the leading one, the numbers that round to a float have the place of its last bit. -/
theorem Covers.zpow_le {r : ℚ} (h : x.Covers r) (hm : leadingOne < x.mantissa) :
    2 ^ (x.exponent + 52) ≤ r := by
  have hu : (0 : ℚ) < 2 ^ x.exponent := by positivity
  have hm : (leadingOne + 1 : ℚ) ≤ x.mantissa := by
    have := Nat.succ_le_of_lt hm
    exact_mod_cast this
  have hsplit : x.exponent + 52 = 52 + x.exponent := by ring
  rw [hsplit, zpow_add₀ two_ne_zero, ← leadingOne_eq_zpow]
  exact (mul_le_mul_of_nonneg_right (by linarith) hu.le).trans h.bounds.1

/-- Just below a power of two the place is one finer, and never finer than that. -/
theorem Covers.zpow_le_of_leading {r : ℚ} (h : x.Covers r) (hm : x.mantissa = leadingOne)
    (hq : -1074 < x.exponent) : 2 ^ (x.exponent + 51) ≤ r := by
  have hu : (0 : ℚ) < 2 ^ (x.exponent - 1) := by positivity
  have hl : (1 : ℚ) ≤ leadingOne := by
    rw [leadingOne_eq]
    norm_num
  have hsplit : x.exponent + 51 = 52 + (x.exponent - 1) := by ring
  rw [hsplit, zpow_add₀ two_ne_zero, ← leadingOne_eq_zpow]
  refine (mul_le_mul_of_nonneg_right ?_ hu.le).trans (h.leading_le hm hq)
  push_cast
  linarith

end Dyadic

/-- The bits of the nearest float, from the place of its last bit and its mantissa. -/
theorem nearestBits_of {num den m : ℕ} {p : ℤ} (hp : lastPlace num den = p)
    (hm : roundDiv (num * Nat.pow 2 (-p).toNat) (den * Nat.pow 2 p.toNat) = m) :
    nearestBits num den =
      min (if m < leadingOne then m else (p + 1074).toNat * leadingOne + m)
        (0x7FF * leadingOne) := by
  unfold nearestBits
  dsimp only
  rw [hp, hm]

section

variable {x : Dyadic} {num den : ℕ} (hx : x.InRange) (hn : 0 < num) (hd : 0 < den)
  (h : x.Covers (num / den))
include hx hn hd h

/-- A number with the place of the float's last bit rounds to the float's mantissa. -/
theorem nearestBits_eq_of_zpow_le
    (hlow : -1074 < x.exponent → (2 : ℚ) ^ (x.exponent + 52) ≤ num / den) :
    nearestBits num den = x.bits := by
  have h1 : (1 : ℚ) < 2 := by norm_num
  obtain ⟨l, hlo, hhi⟩ := exists_mem_Ico_zpow (show (0 : ℚ) < num / den by positivity) h1
  have hp : lastPlace num den = x.exponent := by
    have hlt : l < x.exponent + 53 :=
      (zpow_lt_zpow_iff_right₀ h1).1 (hlo.trans_lt (h.lt_zpow hx))
    have hle : -1074 < x.exponent → x.exponent + 52 < l + 1 := fun hq ↦
      (zpow_lt_zpow_iff_right₀ h1).1 ((hlow hq).trans_lt hhi)
    have hlowest := hx.le_exponent
    rw [lastPlace_eq hn hd hlo hhi]
    omega
  obtain ⟨hb, hb', hstrict⟩ := h.bounds
  rw [nearestBits_of hp (roundDiv_scaled hd hb hb' hstrict)]
  exact Nat.min_eq_left hx.bits_lt.le

/-- A number just below a power of two has a finer place, and its mantissa is rounded up to the
next power of two. -/
theorem nearestBits_eq_of_lt_zpow (hm : x.mantissa = leadingOne) (hq : -1074 < x.exponent)
    (hlt : (num / den : ℚ) < 2 ^ (x.exponent + 52)) : nearestBits num den = x.bits := by
  have h1 : (1 : ℚ) < 2 := by norm_num
  obtain ⟨l, hlo, hhi⟩ := exists_mem_Ico_zpow (show (0 : ℚ) < num / den by positivity) h1
  have hp : lastPlace num den = x.exponent - 1 := by
    have hl : l < x.exponent + 52 := (zpow_lt_zpow_iff_right₀ h1).1 (hlo.trans_lt hlt)
    have hl' : x.exponent + 51 < l + 1 :=
      (zpow_lt_zpow_iff_right₀ h1).1 ((h.zpow_le_of_leading hm hq).trans_lt hhi)
    rw [lastPlace_eq hn hd hlo hhi]
    omega
  have hround : roundDiv (num * Nat.pow 2 (-(x.exponent - 1)).toNat)
      (den * Nat.pow 2 (x.exponent - 1).toNat) = 2 * leadingOne := by
    refine roundDiv_scaled hd (h.leading_le hm hq) (hlt.le.trans ?_) fun hodd ↦ by omega
    have hu : (0 : ℚ) < 2 ^ (x.exponent - 1) := by positivity
    have hsplit : x.exponent + 52 = 1 + 52 + (x.exponent - 1) := by ring
    rw [hsplit, zpow_add₀ two_ne_zero, zpow_add₀ two_ne_zero, zpow_one,
      ← Dyadic.leadingOne_eq_zpow]
    push_cast
    linarith
  -- The carry of the mantissa makes up for the finer place.
  have hone : leadingOne ≤ 2 * leadingOne := by omega
  have hcarry : (x.exponent - 1 + 1074).toNat * leadingOne + 2 * leadingOne = x.bits := by
    have hexp : (x.exponent + 1074).toNat = (x.exponent - 1 + 1074).toNat + 1 := by omega
    rw [Dyadic.bits, hm, if_neg (Nat.lt_irrefl _), hexp]
    ring
  rw [nearestBits_of hp hround, if_neg (Nat.not_lt.2 hone), hcarry]
  exact Nat.min_eq_left hx.bits_lt.le

/-- All numbers that round to a float have its bits. -/
theorem nearestBits_eq : nearestBits num den = x.bits := by
  obtain hlt | hm | hlt := lt_trichotomy x.mantissa leadingOne
  · have hq := hx.leading hlt
    exact nearestBits_eq_of_zpow_le hx hn hd h fun hlow ↦ by omega
  · -- Only the numbers below the float have a finer place, and they do so above the lowest place.
    by_cases hc : -1074 < x.exponent ∧ (num / den : ℚ) < 2 ^ (x.exponent + 52)
    · exact nearestBits_eq_of_lt_zpow hx hn hd h hm hc.1 hc.2
    · exact nearestBits_eq_of_zpow_le hx hn hd h fun hq ↦ not_lt.1 fun hlt ↦ hc ⟨hq, hlt⟩
  · exact nearestBits_eq_of_zpow_le hx hn hd h fun _ ↦ h.zpow_le hlt

end

/-- Every number that rounds to a plain float has that float as its nearest one. -/
theorem nearest_eq {x : Float} (hx : IsPlain x) {num den : ℕ} (hn : 0 < num) (hd : 0 < den)
    (h : (Dyadic.ofFloat x).Covers (num / den)) : nearest num den = x := by
  have hbits : nearestBits num den = x.toBits.toNat := by
    rw [nearestBits_eq (Dyadic.inRange_ofBits hx.toBits_lt) hn hd h]
    exact Dyadic.bits_ofBits hx.toBits_lt
  rw [nearest, if_neg hn.ne', hbits, UInt64.ofNat_toNat]
  exact Float.ofBits_toBits x

end TypedCss.Decimal

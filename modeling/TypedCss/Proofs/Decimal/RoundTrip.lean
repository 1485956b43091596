import TypedCss.Proofs.Decimal.Nearest
import TypedCss.Proofs.Decimal.Numeral

/-!
# Reading undoes writing

A plain float is written as a numeral, and the numeral is read back as the same float
(`read?_text`). The digits that are written stand for the shortest decimal
(`Scaled.exists_writtenAs`), which rounds to the float, and what is read is rounded to the nearest
float (`ofScaled_eq`).
-/

namespace TypedCss.Decimal

open Text

/-! ### Digits -/

theorem ofDigits_eq (ds : List Char) : ofDigits ds = Nat.ofDigitChars 10 ds 0 := rfl

theorem ofDigits_toDigits (n : ℕ) : ofDigits (Nat.toDigits 10 n) = n :=
  Nat.ofDigitChars_ten_toDigits

theorem ofDigits_zeros_append (k : ℕ) (ds : List Char) :
    ofDigits (List.replicate k '0' ++ ds) = ofDigits ds := by
  rw [ofDigits_eq, Nat.ofDigitChars_append, Nat.ofDigitChars_replicate_zero, Nat.mul_zero]
  rfl

theorem ofDigits_append_zeros (ds : List Char) (k : ℕ) :
    ofDigits (ds ++ List.replicate k '0') = 10 ^ k * ofDigits ds := by
  rw [ofDigits_eq, Nat.ofDigitChars_append, Nat.ofDigitChars_replicate_zero]
  rfl

theorem isDigits_toDigits (n : ℕ) : IsDigits (Nat.toDigits 10 n) :=
  ⟨Nat.toDigits_ne_nil, fun _ hc ↦ Nat.isDigit_of_mem_toDigits (by decide) (by decide) hc⟩

theorem isDigit_of_mem_replicate {k : ℕ} {c : Char} (h : c ∈ List.replicate k '0') :
    c.isDigit = true := by
  obtain rfl := List.eq_of_mem_replicate h
  rfl

/-- The number of digits gives the power of ten next to a number. -/
theorem digitCount_bounds {n : ℕ} (h : 0 < n) :
    10 ^ (Dyadic.digitCount n - 1) ≤ n ∧ n < 10 ^ Dyadic.digitCount n := by
  have hpos : 0 < Dyadic.digitCount n := Nat.length_toDigits_pos
  refine ⟨?_, (Nat.length_toDigits_le_iff (by decide) hpos).1 (Nat.le_refl _)⟩
  by_cases h1 : Dyadic.digitCount n = 1
  · rw [h1]
    exact h
  · refine Nat.le_of_not_lt fun hlt ↦ ?_
    have hle := (Nat.length_toDigits_le_iff (b := 10) (by decide) (by omega)).2 hlt
    have hcount : Dyadic.digitCount n ≤ Dyadic.digitCount n - 1 := hle
    omega

/-- The trailing zeros of a list of digits. -/
theorem exists_trim_zeros (ds : List Char) :
    ∃ k, ds = (ds.reverse.dropWhile (· == '0')).reverse ++ List.replicate k '0' := by
  have hzeros : ds.reverse.takeWhile (· == '0') =
      List.replicate (ds.reverse.takeWhile (· == '0')).length '0' :=
    List.eq_replicate_iff.2 ⟨rfl, fun c hc ↦ by simpa using List.mem_takeWhile_imp hc⟩
  refine ⟨(ds.reverse.takeWhile (· == '0')).length, ?_⟩
  calc
    ds = (ds.reverse.takeWhile (· == '0') ++ ds.reverse.dropWhile (· == '0')).reverse := by
      rw [List.takeWhile_append_dropWhile, List.reverse_reverse]
    _ = _ := by rw [List.reverse_append, hzeros, List.reverse_replicate, List.length_replicate]

/-! ### The digits that are written -/

/-- What is written for a decimal: digits before the point, and maybe a point and digits after. -/
structure Scaled.WrittenAs (s : Scaled) (whole fraction : List Char) : Prop where
  /-- There are digits before the point. -/
  whole_isDigits : IsDigits whole
  /-- Nothing but digits stands after the point. -/
  isDigit_of_mem : ∀ c ∈ fraction, c.isDigit = true
  /-- Without digits after it the point is left out. -/
  text_eq : s.text = if fraction = [] then whole else whole ++ '.' :: fraction
  /-- The digits stand for the decimal. -/
  value_eq : (ofDigits (whole ++ fraction) : ℚ) * 10 ^ (-fraction.length : ℤ) = s.value

/-- In a whole number the zeros that are written stand for the power of ten. -/
theorem Scaled.writtenAs_whole {s : Scaled} (h : (-s.exponent).toNat = 0) :
    s.WrittenAs (Nat.toDigits 10 s.digits ++ List.replicate s.exponent.toNat '0') [] := by
  have hdigits := isDigits_toDigits s.digits
  have he : (s.exponent.toNat : ℤ) = s.exponent := by omega
  refine ⟨⟨List.append_ne_nil_of_left_ne_nil hdigits.1 _, ?_⟩, List.forall_mem_nil _, ?_, ?_⟩
  · intro c hc
    obtain hc | hc := List.mem_append.1 hc
    · exact hdigits.2 c hc
    · exact isDigit_of_mem_replicate hc
  · rw [if_pos rfl, text]
    dsimp only
    rw [if_pos h]
  · have hz : (10 : ℚ) ^ s.exponent = 10 ^ s.exponent.toNat := by rw [← zpow_natCast, he]
    rw [List.append_nil, ofDigits_append_zeros, ofDigits_toDigits, value, hz]
    push_cast
    simp [mul_comm]

/-- The digits of a number with zeros before them, as many as the point needs. -/
def padded (n k : ℕ) : List Char :=
  List.replicate (k + 1 - (Nat.toDigits 10 n).length) '0' ++ Nat.toDigits 10 n

theorem lt_length_padded (n k : ℕ) : k < (padded n k).length := by
  rw [padded, List.length_append, List.length_replicate]
  omega

theorem isDigit_of_mem_padded {n k : ℕ} {c : Char} (h : c ∈ padded n k) : c.isDigit = true := by
  obtain hc | hc := List.mem_append.1 h
  · exact isDigit_of_mem_replicate hc
  · exact (isDigits_toDigits n).2 c hc

theorem ofDigits_padded (n k : ℕ) : ofDigits (padded n k) = n := by
  rw [padded, ofDigits_zeros_append, ofDigits_toDigits]

/-- The point stands inside the digits, which may have zeros before them. -/
theorem Scaled.exists_writtenAs_fraction {s : Scaled} (h : (-s.exponent).toNat ≠ 0) :
    ∃ whole fraction, s.WrittenAs whole fraction := by
  obtain ⟨k, hk⟩ : ∃ k, k = (-s.exponent).toNat := ⟨_, rfl⟩
  obtain ⟨ds, hds⟩ : ∃ ds, ds = padded s.digits k := ⟨_, rfl⟩
  have hlength : k < ds.length := hds ▸ lt_length_padded s.digits k
  have hall : ∀ c ∈ ds, c.isDigit = true := fun c hc ↦ isDigit_of_mem_padded (hds ▸ hc)
  -- Of the last `k` digits the trailing zeros are left out; there are `j` of them.
  obtain ⟨j, hj⟩ := exists_trim_zeros (ds.drop (ds.length - k))
  obtain ⟨fraction, hf⟩ :
    ∃ fs, fs = ((ds.drop (ds.length - k)).reverse.dropWhile (· == '0')).reverse := ⟨_, rfl⟩
  rw [← hf] at hj
  have hsplit : ds.take (ds.length - k) ++ fraction ++ List.replicate j '0' = ds := by
    rw [List.append_assoc, ← hj, List.take_append_drop]
  have hkj : fraction.length + j = k := by
    have hlen := congrArg List.length hj
    rw [List.length_append, List.length_replicate, List.length_drop] at hlen
    omega
  refine ⟨ds.take (ds.length - k), fraction, ⟨?_, ?_⟩, ?_, ?_, ?_⟩
  · intro hnil
    have hlen := congrArg List.length hnil
    rw [List.length_take, List.length_nil] at hlen
    omega
  · exact fun c hc ↦ hall c (List.mem_of_mem_take hc)
  · intro c hc
    refine hall c (hsplit ▸ ?_)
    exact List.mem_append_left _ (List.mem_append_right _ hc)
  · rw [text]
    dsimp only
    rw [if_neg h, ← hk, show List.replicate (k + 1 - (Nat.toDigits 10 s.digits).length) '0' ++
      Nat.toDigits 10 s.digits = ds from hds.symm, ← hf]
    cases fraction <;> rfl
  · have hvalue : s.digits = 10 ^ j * ofDigits (ds.take (ds.length - k) ++ fraction) := by
      rw [← ofDigits_append_zeros, hsplit, hds, ofDigits_padded]
    have he : s.exponent = -(j : ℤ) + -(fraction.length : ℤ) := by omega
    rw [value, hvalue, he, zpow_add₀ (by norm_num), zpow_neg _ (j : ℤ), zpow_natCast]
    push_cast
    field_simp

/-- The text of a decimal is a numeral for the same number. -/
theorem Scaled.exists_writtenAs (s : Scaled) : ∃ whole fraction, s.WrittenAs whole fraction := by
  by_cases h : (-s.exponent).toNat = 0
  · exact ⟨_, _, writtenAs_whole h⟩
  · exact exists_writtenAs_fraction h

/-! ### What is read -/

theorem two_pow_lt_ten_pow : (2 : ℚ) ^ (1075 : ℤ) < 10 ^ (400 : ℤ) := by
  calc (2 : ℚ) ^ (1075 : ℤ) ≤ 2 ^ ((3 : ℤ) * 400) :=
        zpow_le_zpow_right₀ (by norm_num) (by norm_num)
    _ = 8 ^ (400 : ℤ) := by
      rw [zpow_mul]
      norm_num
    _ < 10 ^ (400 : ℤ) := zpow_lt_zpow_left₀ (by norm_num) (by norm_num) (by norm_num)

namespace Dyadic

variable {x : Dyadic} {r : ℚ}

/-- No positive float is within reach of the smaller cutoff. -/
theorem Covers.zpow_lt (hx : x.InRange) (hm : 0 < x.mantissa) (h : x.Covers r) :
    (10 : ℚ) ^ (-400 : ℤ) < r := by
  have hm : (1 : ℚ) ≤ x.mantissa := by exact_mod_cast hm
  have hu : (0 : ℚ) < 2 ^ x.exponent := by positivity
  have hq : -1075 ≤ x.exponent - 1 := by
    have := hx.le_exponent
    omega
  calc (10 : ℚ) ^ (-400 : ℤ) < 2 ^ (-1075 : ℤ) := by
        rw [zpow_neg, zpow_neg]
        exact inv_strictAnti₀ (by positivity) two_pow_lt_ten_pow
    _ ≤ 2 ^ (x.exponent - 1) := zpow_le_zpow_right₀ (by norm_num) hq
    _ = 1 / 2 * 2 ^ x.exponent := by
      rw [zpow_sub₀ two_ne_zero]
      ring
    _ ≤ (x.mantissa - 1 / 2) * 2 ^ x.exponent := mul_le_mul_of_nonneg_right (by linarith) hu.le
    _ ≤ r := h.bounds.1

/-- No finite float is within reach of the larger cutoff. -/
theorem Covers.lt_zpow_ten (hx : x.InRange) (h : x.Covers r) : r < (10 : ℚ) ^ (400 : ℤ) := by
  have hq : x.exponent + 53 ≤ 1075 := by
    have := hx.exponent_le
    omega
  calc r < 2 ^ (x.exponent + 53) := h.lt_zpow hx
    _ ≤ 2 ^ (1075 : ℤ) := zpow_le_zpow_right₀ (by norm_num) hq
    _ < 10 ^ (400 : ℤ) := two_pow_lt_ten_pow

end Dyadic

/-- A decimal that rounds to a plain float other than zero is read as that float. -/
theorem ofScaled_eq {x : Float} (hx : IsPlain x) (hm : 0 < (Dyadic.ofFloat x).mantissa) {n : ℕ}
    {e : ℤ} (h : (Dyadic.ofFloat x).Covers (n * 10 ^ e)) : ofScaled n e = x := by
  have hrange := Dyadic.inRange_ofBits hx.toBits_lt
  have hlow := h.zpow_lt hrange hm
  have hhigh := h.lt_zpow_ten hrange
  have h10 : (1 : ℚ) < 10 := by norm_num
  have hn : 0 < n := by
    refine Nat.pos_of_ne_zero ?_
    rintro rfl
    have hpos : (0 : ℚ) < 10 ^ (-400 : ℤ) := by positivity
    rw [Nat.cast_zero, zero_mul] at hlow
    linarith
  obtain ⟨hge, hlt⟩ := digitCount_bounds hn
  have hplaces : -400 < e + Dyadic.digitCount n := by
    refine (zpow_lt_zpow_iff_right₀ h10).1 (hlow.trans ?_)
    rw [zpow_add₀ (by norm_num), mul_comm, zpow_natCast]
    exact mul_lt_mul_of_pos_left (by exact_mod_cast hlt) (by positivity)
  have hplaces' : e + (Dyadic.digitCount n - 1 : ℕ) < 400 := by
    refine (zpow_lt_zpow_iff_right₀ h10).1 (lt_of_le_of_lt ?_ hhigh)
    rw [zpow_add₀ (by norm_num), mul_comm, zpow_natCast]
    exact mul_le_mul_of_nonneg_right (by exact_mod_cast hge) (by positivity)
  have hden : 0 < Nat.pow 10 (-e).toNat := Nat.pow_pos (by decide)
  have hnum : 0 < n * Nat.pow 10 e.toNat := Nat.mul_pos hn (Nat.pow_pos (by decide))
  have hvalue : ((n * Nat.pow 10 e.toNat : ℕ) : ℚ) / (Nat.pow 10 (-e).toNat : ℕ) = n * 10 ^ e := by
    rw [zpow_eq_div (by norm_num) e]
    simp only [Nat.pow_eq]
    push_cast
    ring
  -- The number of digits keeps the decimal between the two cutoffs.
  unfold ofScaled
  dsimp only
  rw [if_neg (by omega), if_neg (by omega)]
  refine nearest_eq hx hnum hden ?_
  rw [hvalue]
  exact h

/-- The text of a plain float, for the two cases of `magnitude`. -/
theorem text_eq {x : Float} (hx : IsPlain x) :
    text x =
      if x.toBits.toNat = 0 then "0" else String.ofList (Dyadic.ofFloat x).shortest.text := by
  have hsign : x.toBits.toNat < Nat.pow 2 63 := hx.unsigned
  rw [text, hx.isNaN_eq_false, if_neg (by decide), if_pos hsign, magnitude, hx.isInf_eq_false,
    if_neg (by decide), hx.beq_zero]
  simp only [decide_eq_true_eq]

/-- A plain float is written as a numeral, and read back as itself. -/
theorem read?_text {x : Float} (hx : IsPlain x) :
    IsNumeral (text x).toList ∧ read? (text x) = some x := by
  rw [text_eq hx]
  split
  · rename_i hz
    rw [eq_zero_iff_toBits.2 hz]
    have hd : IsDigits ['0'] := ⟨by decide, List.forall_mem_singleton.2 rfl⟩
    exact ⟨⟨['0'], [], rfl, hd, .inl rfl⟩, read?_whole hd⟩
  · rename_i hz
    have hm : 0 < (Dyadic.ofFloat x).mantissa := Dyadic.mantissa_pos hx.toBits_lt hz
    obtain ⟨whole, fraction, hw, hf, htext, hvalue⟩ := (Dyadic.ofFloat x).shortest.exists_writtenAs
    -- The digits stand for the shortest decimal, and that rounds to the float.
    have hcovers := Dyadic.covers_shortest hm
    rw [← hvalue] at hcovers
    have hread := ofScaled_eq hx hm hcovers
    rw [htext, String.toList_ofList]
    by_cases hnil : fraction = []
    · obtain rfl := hnil
      rw [if_pos rfl]
      refine ⟨⟨whole, [], (List.append_nil _).symm, hw, .inl rfl⟩, ?_⟩
      rw [read?_whole hw, ← hread, List.append_nil]
      rfl
    · rw [if_neg hnil, read?_fraction hw ⟨hnil, hf⟩, hread]
      exact ⟨⟨whole, _, rfl, hw, .inr ⟨fraction, rfl, hnil, hf⟩⟩, rfl⟩

end TypedCss.Decimal

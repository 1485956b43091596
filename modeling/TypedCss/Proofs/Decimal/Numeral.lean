import TypedCss.Decimal.Text
import TypedCss.Proofs.Token.Word

/-!
# Numerals are numbers

The numbers of a source have neither a sign nor an exponent, so what `Decimal.read?` makes of them
is simple (`read?_whole`, `read?_fraction`), and it always makes something (`exists_read?_eq_some`).
-/

namespace TypedCss.Decimal

open Text

theorem toLower_of_isDigit {c : Char} (h : c.isDigit = true) : c.toLower = c := by
  have hd := (isDigit_iff_toNat.1 h).2
  refine dif_neg fun hu ↦ ?_
  have hA : 65 ≤ c.toNat := UInt32.le_iff_toNat_le.1 hu.1
  omega

/-- What begins with a digit has no sign and is no word. -/
theorem read?_of_isDigit {c : Char} (hc : c.isDigit = true) (cs : List Char) :
    read? (String.ofList (c :: cs)) = digits? (c :: cs) := by
  have hne : ∀ d : Char, d.isDigit = false → c ≠ d := by
    rintro d hd rfl
    rw [hc] at hd
    cases hd
  have hword : ∀ d ds, d.isDigit = false →
      String.ofList ((c :: cs).map Char.toLower) ≠ String.ofList (d :: ds) := by
    intro d ds hd he
    rw [List.map_cons, toLower_of_isDigit hc] at he
    exact hne d hd (List.cons.inj (String.ofList_injective he)).1
  -- None of the words that stand for a float begins with a digit.
  have hu : unsigned? (c :: cs) = digits? (c :: cs) := by
    have hinf := hword 'i' ['n', 'f'] (by decide)
    have hinfinity := hword 'i' ['n', 'f', 'i', 'n', 'i', 't', 'y'] (by decide)
    have hnan := hword 'n' ['a', 'n'] (by decide)
    unfold unsigned?
    dsimp only
    rw [if_neg (not_or.2 ⟨hinf, hinfinity⟩), if_neg hnan]
  rw [read?]
  rw [String.toList_ofList]
  split
  · rename_i h
    exact absurd (List.cons.inj h).1 (hne '-' (by decide))
  · rename_i h
    exact absurd (List.cons.inj h).1 (hne '+' (by decide))
  · exact hu

/-- Digits without a point. -/
theorem read?_whole {whole : List Char} (h : IsDigits whole) :
    read? (String.ofList whole) = some (ofScaled (ofDigits whole) 0) := by
  obtain ⟨hne, hd⟩ := h
  obtain ⟨c, cs, rfl⟩ := List.exists_cons_of_ne_nil hne
  rw [read?_of_isDigit (hd c (List.mem_cons_self ..))]
  have ht := takeWhile_append hd stops_nil
  have hr := dropWhile_append hd stops_nil
  rw [List.append_nil] at ht hr
  simp [digits?, ht, hr, exponent?]

/-- Digits with a point between them. -/
theorem read?_fraction {whole ds : List Char} (h : IsDigits whole) (hds : IsDigits ds) :
    read? (String.ofList (whole ++ '.' :: ds)) =
      some (ofScaled (ofDigits (whole ++ ds)) (-ds.length)) := by
  obtain ⟨hne, hd⟩ := h
  obtain ⟨c, cs, rfl⟩ := List.exists_cons_of_ne_nil hne
  rw [List.cons_append, read?_of_isDigit (hd c (List.mem_cons_self ..)), ← List.cons_append]
  have hs : Stops Char.isDigit ('.' :: ds) := stops_cons.2 rfl
  have ht := takeWhile_append hds.2 stops_nil
  have hr := dropWhile_append hds.2 stops_nil
  rw [List.append_nil] at ht hr
  rw [digits?]
  rw [takeWhile_append hd hs, dropWhile_append hd hs]
  simp [ht, hr, exponent?]

/-- Every numeral is a number. -/
theorem exists_read?_eq_some {value : List Char} (h : IsNumeral value) :
    ∃ x, read? (String.ofList value) = some x := by
  obtain ⟨whole, fraction, rfl, hw, rfl | ⟨ds, rfl, hds⟩⟩ := h
  · rw [List.append_nil]
    exact ⟨_, read?_whole hw⟩
  · exact ⟨_, read?_fraction hw hds⟩

end TypedCss.Decimal

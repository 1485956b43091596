import Mathlib.Data.List.TakeWhile
import TypedCss.Token.Pattern

/-!
# What the first character of a text decides

The first character leaves few patterns to try (`Lexeme.read?_cons`): one for a blank, a digit, a
`#` or the first character of a name, and one or two for each sign. So the order of the patterns
matters for three pairs only: the two forms of comments, a colon with and without an equals sign,
and a dash before the name of a variable or alone.
-/

namespace TypedCss

namespace Text

/-! ### Runs of characters -/

/-- `Stops p rest` says that a run of characters with `p` does not go on into `rest`. -/
def Stops (p : Char → Bool) (rest : List Char) : Prop := ∀ c ∈ rest.head?, p c = false

section Runs

variable {p : Char → Bool} {cs rest : List Char}

theorem stops_nil : Stops p [] := by simp [Stops]

theorem stops_cons {c : Char} : Stops p (c :: cs) ↔ p c = false := by simp [Stops]

/-- A run is taken as far as it goes. -/
theorem stops_dropWhile (p : Char → Bool) (cs : List Char) : Stops p (cs.dropWhile p) := by
  have h := List.head?_dropWhile_not p cs
  intro c hc
  rw [Option.mem_def.1 hc] at h
  exact h

/-- Before a text where it stops, a run is taken whole. -/
theorem takeWhile_append (h : ∀ c ∈ cs, p c = true) (hr : Stops p rest) :
    (cs ++ rest).takeWhile p = cs := by
  rw [List.takeWhile_append_of_pos h]
  cases rest with
  | nil => simp
  | cons c rest => simp [stops_cons.1 hr]

/-- What is left is the text where it stops. -/
theorem dropWhile_append (h : ∀ c ∈ cs, p c = true) (hr : Stops p rest) :
    (cs ++ rest).dropWhile p = rest := by
  rw [List.dropWhile_append_of_pos h]
  cases rest with
  | nil => rfl
  | cons c rest => simp [stops_cons.1 hr]

/-- A run is the same if nothing that follows goes on with it. -/
theorem Stops.takeWhile_append (h : Stops p rest) (cs : List Char) :
    (cs ++ rest).takeWhile p = cs.takeWhile p := by
  induction cs with
  | nil =>
    cases rest with
    | nil => rfl
    | cons c rest => simp [stops_cons.1 h]
  | cons c cs ih => simp [List.takeWhile_cons, ih]

/-- Nothing of a text where a run stops is dropped with it. -/
theorem Stops.dropWhile_append (h : Stops p rest) (cs : List Char) :
    (cs ++ rest).dropWhile p = cs.dropWhile p ++ rest := by
  induction cs with
  | nil =>
    cases rest with
    | nil => rfl
    | cons c rest => simp [stops_cons.1 h]
  | cons c cs ih =>
    rw [List.cons_append, List.dropWhile_cons, List.dropWhile_cons, ih]
    split <;> rfl

end Runs

/-! ### Classes of characters

Blanks, digits and the first characters of names are three classes without common members. -/

section Classes

variable {c : Char}

/-- The digits are the characters from 48 to 57. -/
theorem isDigit_iff_toNat : c.isDigit = true ↔ 48 ≤ c.toNat ∧ c.toNat ≤ 57 :=
  Char.isDigit_iff_toNat

theorem isAlpha_iff_toNat : c.isAlpha = true ↔
    (65 ≤ c.toNat ∧ c.toNat ≤ 90) ∨ (97 ≤ c.toNat ∧ c.toNat ≤ 122) := by
  show (decide (65 ≤ c.val ∧ c.val ≤ 90) || decide (97 ≤ c.val) && decide (c.val ≤ 122)) = true ↔ _
  simp only [Bool.or_eq_true, Bool.and_eq_true, decide_eq_true_eq]
  rfl

/-- The first characters of names are the letters and 95. -/
theorem isNameStart_iff_toNat : isNameStart c = true ↔
    (65 ≤ c.toNat ∧ c.toNat ≤ 90) ∨ (97 ≤ c.toNat ∧ c.toNat ≤ 122) ∨ c.toNat = 95 := by
  rw [isNameStart, Bool.or_eq_true, isAlpha_iff_toNat, beq_iff_eq, ← Char.toNat_inj, or_assoc]
  rfl

/-- A blank is not between 33 and 132, where digits and letters are. -/
theorem toNat_of_isBlank (h : isBlank c = true) : c.toNat ≤ 32 ∨ 133 ≤ c.toNat := by
  simp only [isBlank, blankRanges, List.any_cons, List.any_nil, Bool.or_false, Bool.or_eq_true,
    Bool.and_eq_true, decide_eq_true_eq] at h
  omega

theorem isBlank_eq_false_of_isDigit (h : c.isDigit = true) : isBlank c = false := by
  refine Bool.eq_false_iff.2 fun hb ↦ ?_
  have hdigit := isDigit_iff_toNat.1 h
  have hblank := toNat_of_isBlank hb
  omega

theorem isBlank_eq_false_of_isNameStart (h : isNameStart c = true) : isBlank c = false := by
  refine Bool.eq_false_iff.2 fun hb ↦ ?_
  have hstart := isNameStart_iff_toNat.1 h
  have hblank := toNat_of_isBlank hb
  omega

theorem isNameStart_eq_false_of_isDigit (h : c.isDigit = true) : isNameStart c = false := by
  refine Bool.eq_false_iff.2 fun hb ↦ ?_
  have hstart := isNameStart_iff_toNat.1 hb
  have hdigit := isDigit_iff_toNat.1 h
  omega

theorem isDigit_eq_false_of_isNameStart (h : isNameStart c = true) : c.isDigit = false := by
  refine Bool.eq_false_iff.2 fun hb ↦ ?_
  have hstart := isNameStart_iff_toNat.1 h
  have hdigit := isDigit_iff_toNat.1 hb
  omega

/-- A character of a class is none outside it. -/
theorem beq_eq_false_of_class {p : Char → Bool} (h : p c = true) {d : Char} (hd : p d = false) :
    (d == c) = false := by
  refine beq_eq_false_iff_ne.2 ?_
  rintro rfl
  rw [h] at hd
  cases hd

end Classes

end Text

/-! ### The first character -/

namespace Pattern

/-- Whether a lexeme of this shape can begin with a character. -/
def starts (c : Char) : Pattern → Bool
  | blanks => Text.isBlank c
  | blockComment | lineComment => '/' == c
  | variableName => '-' == c
  | number => c.isDigit
  | hash => '#' == c
  | name => Text.isNameStart c
  | fixed _ text => text.headD ' ' == c

/-- A pattern that cannot begin with a character does not read it. -/
theorem read?_eq_none_of_starts {p : Pattern} (hp : p ∈ all) {c : Char} (h : p.starts c = false)
    (cs : List Char) : p.read? (c :: cs) = none := by
  cases p with
  | blanks => simp_all [starts, read?]
  | blockComment | lineComment | variableName | hash =>
    all_goals
      unfold read?
      split <;> simp_all [starts]
  | number | name => all_goals simp_all [starts, read?]
  | fixed kind text =>
    cases text with
    | nil => simp [all] at hp
    | cons d ds => simp_all [starts, read?, List.isPrefixOf]

/-- Only a number starts with a digit. -/
theorem filter_starts_of_isDigit {c : Char} (h : c.isDigit = true) :
    all.filter (·.starts c) = [.number] := by
  simp (disch := decide) only [all, List.filter_cons, List.filter_nil, starts, List.headD_cons,
    Bool.false_eq_true, ↓reduceIte, h, Text.isBlank_eq_false_of_isDigit h,
    Text.isNameStart_eq_false_of_isDigit h, Text.beq_eq_false_of_class h]

/-- Only a name starts with the first character of a name. -/
theorem filter_starts_of_isNameStart {c : Char} (h : Text.isNameStart c = true) :
    all.filter (·.starts c) = [.name] := by
  simp (disch := decide) only [all, List.filter_cons, List.filter_nil, starts, List.headD_cons,
    Bool.false_eq_true, ↓reduceIte, h, Text.isBlank_eq_false_of_isNameStart h,
    Text.isDigit_eq_false_of_isNameStart h, Text.beq_eq_false_of_class h]

/-- Only blanks start with a blank. -/
theorem filter_starts_of_isBlank {c : Char} (h : Text.isBlank c = true) :
    all.filter (·.starts c) = [.blanks] := by
  have hd : c.isDigit = false :=
    Bool.eq_false_iff.2 fun hd ↦ by simp [Text.isBlank_eq_false_of_isDigit hd] at h
  have hn : Text.isNameStart c = false :=
    Bool.eq_false_iff.2 fun hn ↦ by simp [Text.isBlank_eq_false_of_isNameStart hn] at h
  simp (disch := decide) only [all, List.filter_cons, List.filter_nil, starts, List.headD_cons,
    Bool.false_eq_true, ↓reduceIte, h, hd, hn, Text.beq_eq_false_of_class h]

end Pattern

/-- Only the patterns that can begin with the first character of a text need to be tried. -/
theorem Lexeme.read?_cons (c : Char) (cs : List Char) :
    Lexeme.read? (c :: cs) = (Pattern.all.filter (·.starts c)).findSome? (·.read? (c :: cs)) := by
  have h : ∀ ps : List Pattern, (∀ p ∈ ps, p ∈ Pattern.all) →
      ps.findSome? (·.read? (c :: cs)) =
        (ps.filter (·.starts c)).findSome? (·.read? (c :: cs)) := by
    intro ps hps
    induction ps with
    | nil => rfl
    | cons p ps ih =>
      -- A pattern that is left out would have read nothing.
      have ih := ih fun q hq ↦ hps q (List.mem_cons_of_mem p hq)
      cases hs : p.starts c with
      | false =>
        have hn := Pattern.read?_eq_none_of_starts (hps p (List.mem_cons_self ..)) hs cs
        rw [List.findSome?_cons, List.filter_cons, hs, hn]
        exact ih
      | true =>
        rw [List.filter_cons, hs, if_pos rfl, List.findSome?_cons, List.findSome?_cons, ih]
  exact h Pattern.all fun p hp ↦ hp

end TypedCss

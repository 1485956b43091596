import TypedCss.Proofs.Token.Stray

/-!
# The first pattern that fits reads the longest lexeme

Each pattern stands for a set of texts. `Pattern.Describes` gives it as a regular expression does,
without reading anything and whatever follows the text. What a pattern reads is the longest
beginning of a text that it describes; only a comment up to a `*/` is the shortest one
(`Pattern.exists_read?`, `Pattern.describes_of_read?`).

A lexeme is read by the first pattern that fits. Few patterns can begin with the same character
(`Pattern.overlaps`), and of two that fit the same text the one that is tried first reads more. So
the order of the patterns never cuts a lexeme short: no other pattern describes a longer beginning
of the text (`Lexeme.read?_longest`).
-/

namespace TypedCss

/-! ### Runs and comments -/

namespace Text

/-- A run is as long as any beginning that consists of its characters. -/
theorem length_le_takeWhile {p : Char → Bool} {t : List Char} (h : ∀ c ∈ t, p c = true)
    (rest : List Char) : t.length ≤ ((t ++ rest).takeWhile p).length := by
  rw [List.takeWhile_append_of_pos h, List.length_append]
  exact Nat.le_add_right ..

theorem not_isEmpty_takeWhile {p : Char → Bool} {t : List Char} (hne : t ≠ [])
    (h : ∀ c ∈ t, p c = true) (rest : List Char) :
    ¬ ((t ++ rest).takeWhile p).isEmpty = true := by
  have hpos := List.length_pos_iff.2 hne
  have hle := length_le_takeWhile h rest
  rw [List.isEmpty_iff_length_eq_zero]
  omega

/-- A comment that is closed somewhere ends there or before. -/
theorem exists_closeComment?_append (body rest : List Char) :
    ∃ text after, closeComment? (body ++ '*' :: '/' :: rest) = some (text, after) ∧
      text.length ≤ body.length + 2 := by
  cases h : closeComment? (body ++ '*' :: '/' :: rest) with
  | none => exact absurd ⟨body, rest, by simp⟩ (closeComment?_eq_none_iff.1 h)
  | some cut =>
    obtain ⟨text, after⟩ := cut
    obtain ⟨first, rfl, hfirst⟩ := exists_of_closeComment? h
    refine ⟨_, after, rfl, ?_⟩
    by_contra hlt
    -- Otherwise the `*/` after `body` would stand within the comment.
    have hle : (body ++ ['*', '/']).length ≤ (first ++ ['*']).length := by
      simp only [List.length_append, List.length_cons, List.length_nil] at hlt ⊢
      omega
    have hbody : body ++ ['*', '/'] <+: body ++ '*' :: '/' :: rest := ⟨rest, by simp⟩
    have hfront : first ++ ['*'] <+: body ++ '*' :: '/' :: rest :=
      ⟨'/' :: after, by rw [append_of_closeComment? h]; simp⟩
    exact hfirst (((List.suffix_append body ['*', '/']).isInfix).trans
      (List.prefix_of_prefix_length_le hbody hfront hle).isInfix)

end Text

/-! ### What patterns describe -/

namespace Pattern

open Text (IsName IsNumeral)

/-- `p.Describes t` says that `t` is one of the texts that a pattern stands for. -/
def Describes : Pattern → List Char → Prop
  | blanks, t => t ≠ [] ∧ ∀ c ∈ t, Text.isBlank c = true
  | blockComment, t => ∃ body, t = '/' :: '*' :: (body ++ ['*', '/'])
  | lineComment, t => ∃ body, t = '/' :: '/' :: body ∧ ∀ c ∈ body, (c != '\n') = true
  | variableName, t => ∃ name, t = '-' :: '-' :: name ∧ IsName name
  | number, t =>
    ∃ value unit, t = value ++ unit ∧ IsNumeral value ∧ unit ∈ [[], ['p', 'x'], ['%']]
  | hash, t => ∃ part, t = '#' :: part ∧ part ≠ [] ∧ ∀ c ∈ part, Text.isNamePart c = true
  | name, t => IsName t
  | fixed _ text, t => t = text

/-- Whether a pattern that describes both `t` and `u` reads `t` where it can: a comment up to a `*/`
is as short as possible, and all else is as long as possible. -/
def Prefers : Pattern → List Char → List Char → Prop
  | blockComment, t, u => t.length ≤ u.length
  | _, t, u => u.length ≤ t.length

/-- A number is of one of three kinds. -/
theorem cutUnit_kind (cs : List Char) :
    (cutUnit cs).1 = .number ∨ (cutUnit cs).1 = .pixel ∨ (cutUnit cs).1 = .percentage := by
  unfold cutUnit
  split
  · exact .inr (.inl rfl)
  · exact .inr (.inr rfl)
  · exact .inl rfl

/-- The text of a number is a numeral, and its kind has one of three units. -/
theorem isNumeral_of_fits {kind : TokenKind} {value : List Char}
    (hk : kind = .number ∨ kind = .pixel ∨ kind = .percentage) (h : kind.Fits value) :
    IsNumeral value ∧ kind.unit ∈ [[], ['p', 'x'], ['%']] := by
  rcases hk with rfl | rfl | rfl
  all_goals exact ⟨h, by decide⟩

/-- What a pattern reads is a text that it describes. -/
theorem describes_of_read? {p : Pattern} {cs rest : List Char} {l : Lexeme}
    (h : p.read? cs = some (l, rest)) : p.Describes l.text := by
  unfold read? at h
  split at h
  · split at h
    · cases h
    · rename_i hne
      cases h
      exact ⟨fun he ↦ hne (List.isEmpty_iff.2 he), fun c hc ↦ List.mem_takeWhile_imp hc⟩
  · obtain ⟨⟨text, after⟩, hb, he⟩ := Option.map_eq_some_iff.1 h
    cases he
    obtain ⟨body, rfl, -⟩ := Text.exists_of_closeComment? hb
    exact ⟨body, rfl⟩
  · cases h
    exact ⟨_, rfl, fun c hc ↦ List.mem_takeWhile_imp (p := (· != '\n')) hc⟩
  · split at h
    · rename_i hc
      cases h
      exact ⟨_, List.append_nil _, _, _, rfl, hc, fun d hd ↦ List.mem_takeWhile_imp hd⟩
    · cases h
  · rename_i c cs
    split at h
    · rename_i hc
      cases h
      obtain ⟨hv, hunit, -⟩ := Lexeme.numeral_of_cut hc cs
      obtain ⟨hvalue, hmem⟩ := isNumeral_of_fits (cutUnit_kind _) hv
      exact ⟨_, _, rfl, hvalue, hunit ▸ hmem⟩
    · cases h
  · split at h
    · cases h
    · rename_i hne
      cases h
      exact ⟨_, List.append_nil _, by simpa using hne, fun d hd ↦ List.mem_takeWhile_imp hd⟩
  · split at h
    · rename_i hc
      cases h
      exact ⟨_, _, List.append_nil _, hc, fun d hd ↦ List.mem_takeWhile_imp hd⟩
    · cases h
  · split at h
    · cases h
      exact List.append_nil _
    · cases h
  · cases h

/-- A number that is read is as long as any that a text begins with. -/
theorem exists_read?_number {value unit : List Char} (hv : IsNumeral value)
    (hunit : unit ∈ [[], ['p', 'x'], ['%']]) (rest : List Char) :
    ∃ l after, number.read? (value ++ unit ++ rest) = some (l, after) ∧
      (value ++ unit).length ≤ l.text.length := by
  obtain ⟨whole, fraction, rfl, ⟨hne, hw⟩, hf⟩ := hv
  obtain ⟨c, whole, rfl⟩ := List.exists_cons_of_ne_nil hne
  have hc : c.isDigit = true := hw c (List.mem_cons_self ..)
  have hw' : ∀ d ∈ whole, d.isDigit = true := fun d hd ↦ hw d (List.mem_cons_of_mem c hd)
  simp only [List.mem_cons, List.not_mem_nil, or_false] at hunit
  refine ⟨_, _, by simp only [List.cons_append, read?, hc, ↓reduceIte]; rfl, ?_⟩
  simp only [Lexeme.text, List.append_assoc, List.takeWhile_append_of_pos hw',
    List.dropWhile_append_of_pos hw']
  -- The units and the point end a run of digits, so each part is cut where it ends here or later.
  rcases hf with rfl | ⟨ds, rfl, hne, hds⟩
  · rcases hunit with rfl | rfl | rfl
    all_goals simp [Text.cutFraction, cutUnit]
  · obtain ⟨d, ds, rfl⟩ := List.exists_cons_of_ne_nil hne
    have hd : d.isDigit = true := hds d (List.mem_cons_self ..)
    have hds' : ∀ e ∈ ds, e.isDigit = true := fun e he ↦ hds e (List.mem_cons_of_mem d he)
    rcases hunit with rfl | rfl | rfl
    all_goals
      simp [Text.cutFraction, hd, List.takeWhile_append_of_pos hds',
        List.dropWhile_append_of_pos hds', cutUnit]

/-- Where a text begins with one that a pattern describes, the pattern reads that one or one that it
prefers. -/
theorem exists_read? {p : Pattern} {t : List Char} (h : p.Describes t) (rest : List Char) :
    ∃ l after, p.read? (t ++ rest) = some (l, after) ∧ p.Prefers l.text t := by
  cases p with
  | blanks =>
    obtain ⟨hne, hb⟩ := h
    have hle := Text.length_le_takeWhile hb rest
    refine ⟨_, _, by rw [read?, if_neg (Text.not_isEmpty_takeWhile hne hb rest)], ?_⟩
    exact hle
  | blockComment =>
    obtain ⟨body, rfl⟩ := h
    obtain ⟨text, after, hc, hle⟩ := Text.exists_closeComment?_append body rest
    have hr : blockComment.read? ('/' :: '*' :: (body ++ ['*', '/']) ++ rest) =
        some (.gap ('/' :: '*' :: text), after) := by
      simp only [List.cons_append, List.append_assoc, List.nil_append, read?, hc, Option.map_some]
    refine ⟨_, _, hr, ?_⟩
    simp only [Prefers, Lexeme.text, List.length_cons, List.length_append, List.length_nil]
    omega
  | lineComment =>
    obtain ⟨body, rfl, hb⟩ := h
    have hle := Text.length_le_takeWhile (p := (· != '\n')) hb rest
    refine ⟨_, _, by simp only [List.cons_append, read?]; rfl, ?_⟩
    simp only [Prefers, Lexeme.text, List.length_cons]
    omega
  | variableName =>
    obtain ⟨_, rfl, c, part, rfl, hc, hp⟩ := h
    have hle := Text.length_le_takeWhile hp rest
    refine ⟨_, _, by simp only [List.cons_append, read?, hc, ↓reduceIte]; rfl, ?_⟩
    simp only [Prefers, Lexeme.text, List.length_cons, List.append_nil]
    omega
  | number =>
    obtain ⟨value, unit, rfl, hv, hunit⟩ := h
    exact exists_read?_number hv hunit rest
  | hash =>
    obtain ⟨part, rfl, hne, hp⟩ := h
    have hle := Text.length_le_takeWhile hp rest
    have hempty := Text.not_isEmpty_takeWhile hne hp rest
    refine ⟨_, _, by rw [List.cons_append, read?, if_neg hempty], ?_⟩
    simp only [Prefers, Lexeme.text, List.length_cons, List.append_nil]
    omega
  | name =>
    obtain ⟨c, part, rfl, hc, hp⟩ := h
    have hle := Text.length_le_takeWhile hp rest
    refine ⟨_, _, by simp only [List.cons_append, read?, hc, ↓reduceIte]; rfl, ?_⟩
    simp only [Prefers, Lexeme.text, List.length_cons, List.append_nil]
    omega
  | fixed kind text =>
    obtain rfl : t = text := h
    have hprefix : t.isPrefixOf (t ++ rest) = true :=
      List.isPrefixOf_iff_prefix.2 (List.prefix_append t rest)
    refine ⟨_, _, by rw [read?, if_pos hprefix], ?_⟩
    show t.length ≤ (t ++ []).length
    rw [List.append_nil]

/-! ### Patterns that begin alike -/

/-- The pairs of patterns that can begin with the same character, in the order in which they are
tried. -/
def overlaps : List (Pattern × Pattern) :=
  [(.blockComment, .lineComment), (.variableName, .fixed .dash ['-']),
   (.fixed .colonEquals [':', '='], .fixed .colon [':'])]

/-- No pattern of the list describes the empty text, and each begins as `Pattern.starts` says. -/
theorem starts_of_describes {p : Pattern} (hp : p ∈ all) {t : List Char} (h : p.Describes t) :
    ∃ c cs, t = c :: cs ∧ p.starts c = true := by
  cases p with
  | blanks =>
    obtain ⟨c, cs, rfl⟩ := List.exists_cons_of_ne_nil h.1
    exact ⟨c, cs, rfl, h.2 c (List.mem_cons_self ..)⟩
  | blockComment =>
    obtain ⟨body, rfl⟩ := h
    exact ⟨_, _, rfl, rfl⟩
  | lineComment | variableName | hash =>
    all_goals
      obtain ⟨_, rfl, -⟩ := h
      exact ⟨_, _, rfl, rfl⟩
  | number =>
    obtain ⟨_, unit, rfl, ⟨whole, fraction, rfl, ⟨hne, hw⟩, -⟩, -⟩ := h
    obtain ⟨c, whole, rfl⟩ := List.exists_cons_of_ne_nil hne
    exact ⟨c, _, rfl, hw c (List.mem_cons_self ..)⟩
  | name =>
    obtain ⟨c, part, rfl, hc, -⟩ := h
    exact ⟨c, part, rfl, hc⟩
  | fixed kind text =>
    obtain rfl : t = text := h
    cases t with
    | nil => simp [all] at hp
    | cons c cs => exact ⟨c, cs, rfl, beq_self_eq_true c⟩

/-- A pattern that begins with a character of no class begins with a given character. -/
theorem mem_given_of_starts {p : Pattern} (hp : p ∈ all) {c : Char} (h : p.starts c = true)
    (hb : Text.isBlank c = false) (hd : c.isDigit = false) (hn : Text.isNameStart c = false) :
    c ∈ '/' :: '#' :: Text.signs := by
  cases p with
  | blanks => exact absurd h (Bool.eq_false_iff.1 hb)
  | number => exact absurd h (Bool.eq_false_iff.1 hd)
  | name => exact absurd h (Bool.eq_false_iff.1 hn)
  | blockComment | lineComment | variableName | hash =>
    all_goals
      obtain rfl := beq_iff_eq.1 h
      decide
  | fixed kind text =>
    obtain rfl := beq_iff_eq.1 h
    exact List.mem_cons_of_mem _ (List.mem_cons_of_mem _ (headD_mem_signs hp))

/-- Two patterns that can begin with the same character are one of the pairs. -/
theorem mem_overlaps_of_starts {p q : Pattern} (hp : p ∈ all) (hq : q ∈ all) {c : Char}
    (hpc : p.starts c = true) (hqc : q.starts c = true) :
    p = q ∨ (p, q) ∈ overlaps ∨ (q, p) ∈ overlaps := by
  have hpf : p ∈ all.filter (·.starts c) := List.mem_filter.2 ⟨hp, hpc⟩
  have hqf : q ∈ all.filter (·.starts c) := List.mem_filter.2 ⟨hq, hqc⟩
  have hone {r : Pattern} (hr : all.filter (·.starts c) = [r]) : p = q := by
    rw [hr, List.mem_singleton] at hpf hqf
    exact hpf.trans hqf.symm
  -- A class of characters has one pattern; all other first characters are given.
  cases hb : Text.isBlank c with
  | true => exact .inl (hone (filter_starts_of_isBlank hb))
  | false =>
    cases hd : c.isDigit with
    | true => exact .inl (hone (filter_starts_of_isDigit hd))
    | false =>
      cases hn : Text.isNameStart c with
      | true => exact .inl (hone (filter_starts_of_isNameStart hn))
      | false =>
        have hpairs : (('/' :: '#' :: Text.signs).all fun c ↦ (all.filter (·.starts c)).all fun p ↦
            (all.filter (·.starts c)).all fun q ↦
              p == q || overlaps.contains (p, q) || overlaps.contains (q, p)) = true := by
          decide +kernel
        have hc := List.all_eq_true.1 hpairs c (mem_given_of_starts hp hpc hb hd hn)
        have hpq := List.all_eq_true.1 (List.all_eq_true.1 hc p hpf) q hqf
        simpa [or_assoc] using hpq

/-- No pattern is listed twice, and the pairs have the order of the list. -/
theorem pairwise_all : all.Pairwise fun p q ↦ p ≠ q ∧ (q, p) ∉ overlaps := by
  decide +kernel

/-- Where both patterns of a pair describe a beginning of a text, the first describes no less. -/
theorem length_le_of_mem_overlaps {p q : Pattern} (h : (p, q) ∈ overlaps) {cs t u : List Char}
    (ht : t <+: cs) (hp : p.Describes t) (hu : u <+: cs) (hq : q.Describes u) :
    u.length ≤ t.length := by
  simp only [overlaps, List.mem_cons, Prod.mk.injEq, List.not_mem_nil, or_false] at h
  rcases h with ⟨rfl, rfl⟩ | ⟨rfl, rfl⟩ | ⟨rfl, rfl⟩
  · -- The second character tells the two forms of comments apart.
    obtain ⟨body, rfl⟩ := hp
    obtain ⟨line, rfl, -⟩ := hq
    obtain ⟨rest, rfl⟩ := ht
    obtain ⟨rest', hrest⟩ := hu
    cases hrest
  · obtain ⟨name, rfl, -⟩ := hp
    obtain rfl : u = ['-'] := hq
    simp
  · obtain rfl : t = [':', '='] := hp
    obtain rfl : u = [':'] := hq
    simp

/-- Of two patterns that describe a beginning of a text, the one that is tried first describes no
less. -/
theorem pairwise_describes : all.Pairwise fun p q ↦ ∀ cs t u : List Char,
    t <+: cs → p.Describes t → u <+: cs → q.Describes u → u.length ≤ t.length := by
  refine pairwise_all.imp_of_mem fun {p q} hp hq hpq cs t u ht hpt hu hqu ↦ ?_
  obtain ⟨c, ts, rfl, hpc⟩ := starts_of_describes hp hpt
  obtain ⟨d, us, rfl, hqd⟩ := starts_of_describes hq hqu
  obtain ⟨rest, rfl⟩ := ht
  obtain ⟨rest', hrest⟩ := hu
  obtain rfl : d = c := (List.cons.inj hrest).1
  have hpair : (p, q) ∈ overlaps := by
    rcases mem_overlaps_of_starts hp hq hpc hqd with he | hpair | hpair
    · exact absurd he hpq.1
    · exact hpair
    · exact absurd hpair hpq.2
  exact length_le_of_mem_overlaps hpair (List.prefix_append _ rest) hpt ⟨rest', hrest⟩ hqu

/-- `p.ReadsLongest cs l rest` says that of a text `cs` the pattern `p` reads the lexeme `l`, leaves
`rest`, and that no order of the patterns would read more. -/
structure ReadsLongest (p : Pattern) (cs : List Char) (l : Lexeme) (rest : List Char) : Prop where
  /-- It is the first pattern that describes a beginning of the text. -/
  first : ∃ earlier later, all = earlier ++ p :: later ∧
    ∀ q ∈ earlier, ∀ t, t <+: cs → ¬ q.Describes t
  /-- It reads the lexeme. -/
  read?_eq : p.read? cs = some (l, rest)
  /-- The lexeme has at least one character. -/
  ne_nil : l.text ≠ []
  /-- The lexeme and what is left make up the text. -/
  append : cs = l.text ++ rest
  /-- The lexeme is a text that the pattern describes. -/
  describes : p.Describes l.text
  /-- The pattern prefers it to any beginning that it describes. -/
  preferred : ∀ t, t <+: cs → p.Describes t → p.Prefers l.text t
  /-- No other pattern describes a longer beginning. -/
  others : ∀ q ∈ all, q ≠ p → ∀ t, t <+: cs → q.Describes t → t.length ≤ l.text.length
  /-- No pattern reads more. -/
  reads : ∀ q ∈ all, ∀ l' rest', q.read? cs = some (l', rest') → l'.text.length ≤ l.text.length

/-- A pattern that describes a beginning of a text reads something. -/
theorem read?_ne_none {p : Pattern} {cs t : List Char} (ht : t <+: cs) (h : p.Describes t) :
    p.read? cs ≠ none := by
  obtain ⟨after, rfl⟩ := ht
  obtain ⟨l, rest, hr, -⟩ := exists_read? h after
  rw [hr]
  exact Option.some_ne_none _

/-- The first pattern that reads something reads the longest lexeme. -/
theorem readsLongest_of_first {earlier later : List Pattern} {p : Pattern} {cs rest : List Char}
    {l : Lexeme} (hall : all = earlier ++ p :: later) (hr : p.read? cs = some (l, rest))
    (hearlier : ∀ q ∈ earlier, q.read? cs = none) : p.ReadsLongest cs l rest := by
  have hp : p ∈ all := by simp [hall]
  have happend : cs = l.text ++ rest := read?_append hr
  have hfirst : ∀ q ∈ earlier, ∀ t, t <+: cs → ¬ q.Describes t :=
    fun q hq t ht hd ↦ read?_ne_none ht hd (hearlier q hq)
  have hothers : ∀ q ∈ all, q ≠ p → ∀ t, t <+: cs → q.Describes t →
      t.length ≤ l.text.length := by
    intro q hq hne t ht hd
    have hlater : q ∈ later := by
      rw [hall, List.mem_append, List.mem_cons] at hq
      rcases hq with hq | rfl | hq
      · exact absurd hd (hfirst q hq t ht)
      · exact absurd rfl hne
      · exact hq
    have hpairs := (List.pairwise_append.1 (hall ▸ pairwise_describes)).2.1
    exact (List.pairwise_cons.1 hpairs).1 q hlater cs l.text t
      (happend ▸ List.prefix_append ..) (describes_of_read? hr) ht hd
  refine ⟨⟨earlier, later, hall, hfirst⟩, hr, text_ne_nil_of_read? hp hr, happend,
    describes_of_read? hr, fun t ht hd ↦ ?_, hothers, fun q hq l' rest' hq' ↦ ?_⟩
  · obtain ⟨after, rfl⟩ := ht
    obtain ⟨l', rest', hr', hpref⟩ := exists_read? hd after
    cases hr.symm.trans hr'
    exact hpref
  · by_cases he : q = p
    · subst he
      cases hr.symm.trans hq'
      exact Nat.le_refl _
    · exact hothers q hq he l'.text ⟨rest', (read?_append hq').symm⟩ (describes_of_read? hq')

end Pattern

namespace Lexeme

/-- If any pattern describes a beginning of a text, then a lexeme is read of the text, by the first
pattern that does, and no other pattern describes a longer beginning. -/
theorem read?_longest {cs t : List Char} {p : Pattern} (hp : p ∈ Pattern.all)
    (hd : p.Describes t) (ht : t <+: cs) :
    ∃ (first : Pattern) (l : Lexeme) (rest : List Char),
      read? cs = some (l, rest) ∧ first.ReadsLongest cs l rest := by
  cases h : read? cs with
  | none => exact absurd (List.findSome?_eq_none_iff.1 h p hp) (Pattern.read?_ne_none ht hd)
  | some cut =>
    obtain ⟨l, rest⟩ := cut
    obtain ⟨earlier, first, later, hall, hr, hearlier⟩ := List.findSome?_eq_some_iff.1 h
    exact ⟨first, l, rest, rfl, Pattern.readsLongest_of_first hall hr hearlier⟩

/-- A dash, with which the name of a variable begins: the dash alone is no lexeme there. -/
theorem read?_longest_variable :
    Pattern.fixed .dash ['-'] ∈ Pattern.all ∧ (Pattern.fixed .dash ['-']).Describes ['-'] ∧
      ['-'] <+: "--if-x:=/**/*/".toList ∧
      ∃ (first : Pattern) (l : Lexeme) (rest : List Char),
        read? "--if-x:=/**/*/".toList = some (l, rest) ∧ l.text = "--if-x".toList ∧
          first.ReadsLongest "--if-x:=/**/*/".toList l rest := by
  have hp : Pattern.fixed .dash ['-'] ∈ Pattern.all := by decide
  have ht : ['-'] <+: "--if-x:=/**/*/".toList := ⟨"-if-x:=/**/*/".toList, rfl⟩
  obtain ⟨first, l, rest, hr, hfirst⟩ := read?_longest hp rfl ht
  have htext : read? "--if-x:=/**/*/".toList =
      some (.word .variableName "--if-x".toList [], ":=/**/*/".toList) := by
    decide +kernel
  refine ⟨hp, rfl, ht, first, l, rest, hr, ?_, hfirst⟩
  cases hr.symm.trans htext
  rfl

end Lexeme

end TypedCss

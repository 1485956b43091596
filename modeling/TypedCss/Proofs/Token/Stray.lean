import Mathlib.Algebra.Group.Nat.Defs
import TypedCss.Proofs.Token.Gap

/-!
# Characters that start no lexeme

A source that cannot be split into tokens has a first character that starts no lexeme. `IsStray`
says what such a character is: neither a blank nor a letter, a digit, an underscore or a sign; and a
`#` or a `/` only if nothing follows with which it would be a lexeme (`Lexeme.read?_eq_none_iff`).

Up to that character the source is a sequence of lexemes, which stay what they are if the source is
cut off there (`Lexeme.read?_of_append`). So what stands before it is split into tokens
(`exists_stray_of_scan_eq_error`, and for a whole source `tokenize_exact`).
-/

namespace TypedCss

/-- The signs: the characters that are a token by themselves. -/
def Text.signs : List Char :=
  [':', ';', ',', '.', '[', ']', '\x7b', '\x7d', '(', ')', '+', '-', '*']

/-- `IsStray c rest` says that `c` starts no lexeme where `rest` follows it. -/
structure IsStray (c : Char) (rest : List Char) : Prop where
  /-- It is no blank. -/
  not_blank : Text.isBlank c = false
  /-- It is no letter and no digit. -/
  not_alphanum : c.isAlphanum = false
  /-- It is no underscore. -/
  not_underscore : c ≠ '_'
  /-- It is no sign. -/
  not_sign : c ∉ Text.signs
  /-- A `#` is stray where no character of a name follows. -/
  hash : c = '#' → Text.Stops Text.isNamePart rest
  /-- A `/` is not stray before another one. -/
  line : c = '/' → rest.head? ≠ some '/'
  /-- A `/` is stray before a `*` only if no `*/` follows them. -/
  block : c = '/' → ∀ body, rest = '*' :: body → ¬['*', '/'] <:+: body

namespace Pattern

/-- Each sign has a pattern that reads it alone. -/
theorem exists_fixed_of_mem_signs {c : Char} (h : c ∈ Text.signs) :
    ∃ kind, .fixed kind [c] ∈ all := by
  have hall : (Text.signs.all fun d ↦ TokenKind.all.any fun kind ↦ all.contains (.fixed kind [d])) =
      true := by
    decide +kernel
  obtain ⟨kind, -, hkind⟩ := List.any_eq_true.1 (List.all_eq_true.1 hall c h)
  exact ⟨kind, List.contains_iff_mem.1 hkind⟩

/-- Every fixed text begins with a sign. -/
theorem headD_mem_signs {kind : TokenKind} {text : List Char} (h : .fixed kind text ∈ all) :
    text.headD ' ' ∈ Text.signs := by
  have hsymbol := Lexeme.symbol?_of_mem_all h
  cases kind <;> cases hsymbol <;> decide

end Pattern

namespace Lexeme

variable {c : Char} {rest : List Char}

theorem isStray_of_read?_eq_none (h : read? (c :: rest) = none) : IsStray c rest := by
  have hread : ∀ p ∈ Pattern.all, p.read? (c :: rest) = none := List.findSome?_eq_none_iff.1 h
  have hname : Text.isNameStart c = false := by
    have hnone := hread .name (by decide)
    simpa [Pattern.read?] using hnone
  have hdigit : c.isDigit = false := by
    have hnone := hread .number (by decide)
    simpa [Pattern.read?] using hnone
  rw [Text.isNameStart, Bool.or_eq_false_iff] at hname
  refine ⟨?_, ?_, ?_, fun hsign ↦ ?_, ?_, ?_, ?_⟩
  · have hnone := hread .blanks (by decide)
    simpa [Pattern.read?, List.takeWhile_cons] using hnone
  · rw [Char.isAlphanum, hname.1, hdigit]
    rfl
  · simpa using hname.2
  · obtain ⟨kind, hkind⟩ := Pattern.exists_fixed_of_mem_signs hsign
    have hnone := hread _ hkind
    simp [Pattern.read?, List.isPrefixOf] at hnone
  · rintro rfl d hd
    obtain ⟨ds, rfl⟩ := List.head?_eq_some_iff.1 hd
    have hnone := hread .hash (by decide)
    simpa [Pattern.read?, List.takeWhile_cons] using hnone
  · rintro rfl hslash
    obtain ⟨body, rfl⟩ := List.head?_eq_some_iff.1 hslash
    exact absurd (hread .lineComment (by decide)) (by simp [Pattern.read?])
  · rintro rfl body rfl
    have hnone := hread .blockComment (by decide)
    rw [Pattern.read?, Option.map_eq_none_iff] at hnone
    exact Text.closeComment?_eq_none_iff.1 hnone

theorem read?_eq_none_of_isStray (h : IsStray c rest) : read? (c :: rest) = none := by
  have halpha : c.isAlpha = false ∧ c.isDigit = false := by
    simpa [Char.isAlphanum] using h.not_alphanum
  have hstart : Text.isNameStart c = false := by
    rw [Text.isNameStart, halpha.1, Bool.false_or, beq_eq_false_iff_ne]
    exact h.not_underscore
  -- Most patterns begin with another character; the others depend on what follows.
  refine List.findSome?_eq_none_iff.2 fun p hp ↦ ?_
  cases p with
  | blanks => exact Pattern.read?_eq_none_of_starts hp h.not_blank rest
  | number => exact Pattern.read?_eq_none_of_starts hp halpha.2 rest
  | name => exact Pattern.read?_eq_none_of_starts hp hstart rest
  | variableName =>
    refine Pattern.read?_eq_none_of_starts hp (beq_eq_false_iff_ne.2 ?_) rest
    rintro rfl
    exact h.not_sign (by decide)
  | fixed kind text =>
    refine Pattern.read?_eq_none_of_starts hp (beq_eq_false_iff_ne.2 fun he ↦ ?_) rest
    exact h.not_sign (he ▸ Pattern.headD_mem_signs hp)
  | hash =>
    by_cases hc : c = '#'
    · subst hc
      have hempty := Text.takeWhile_append (List.forall_mem_nil _) (h.hash rfl)
      rw [List.nil_append] at hempty
      simp [Pattern.read?, hempty]
    · exact Pattern.read?_eq_none_of_starts hp (beq_eq_false_iff_ne.2 (Ne.symm hc)) rest
  | lineComment =>
    by_cases hc : c = '/'
    · subst hc
      cases rest with
      | nil => rfl
      | cons d ds =>
        have hd : d ≠ '/' := by
          rintro rfl
          exact h.line rfl rfl
        simp [Pattern.read?, hd]
    · exact Pattern.read?_eq_none_of_starts hp (beq_eq_false_iff_ne.2 (Ne.symm hc)) rest
  | blockComment =>
    by_cases hc : c = '/'
    · subst hc
      cases rest with
      | nil => rfl
      | cons d ds =>
        by_cases hd : d = '*'
        · subst hd
          have hopen := Text.closeComment?_eq_none_iff.2 (h.block rfl ds rfl)
          rw [Pattern.read?, hopen]
          rfl
        · simp [Pattern.read?, hd]
    · exact Pattern.read?_eq_none_of_starts hp (beq_eq_false_iff_ne.2 (Ne.symm hc)) rest

/-- A text begins with no lexeme exactly if its first character is stray. -/
theorem read?_eq_none_iff : read? (c :: rest) = none ↔ IsStray c rest :=
  ⟨isStray_of_read?_eq_none, read?_eq_none_of_isStray⟩

end Lexeme

namespace Token

/-- A text that cannot be split has a stray character, and what stands before it is split. -/
theorem exists_stray_of_scan_eq_error {c : TextCursor} {e : Error} (h : scan c = .error e) :
    ∃ before first after, c.ahead = before ++ first :: after ∧ IsStray first after ∧
      e = ⟨.unrecognisedToken first.toString,
        .ofNat c.file (c.offset + Text.byteLength before)⟩ ∧
      ∃ tokens, scan ⟨c.file, c.offset, before⟩ = .ok tokens := by
  induction c using scan.induct with
  | case1 c ha =>
    rw [scan_of_ahead_eq_nil ha] at h
    cases h
  | case2 c first cs ha hr =>
    rw [scan_of_read?_eq_none ha hr] at h
    cases h
    rw [ha] at hr
    exact ⟨[], first, cs, ha, Lexeme.read?_eq_none_iff.1 hr, rfl, _, scan_of_ahead_eq_nil rfl⟩
  | case3 c first cs ha lexeme rest hr size e' he ih =>
    rw [scan_of_read?_eq_some hr, he] at h
    cases h
    obtain ⟨before, stray, after, hrest, hstray, rfl, tokens, htokens⟩ := ih he
    obtain rfl : rest = before ++ stray :: after := hrest
    -- The lexeme is read off the part before the stray character as it is off the whole text.
    have hcut := scan_of_read?_eq_some (c := ⟨c.file, c.offset, lexeme.text ++ before⟩)
      (Lexeme.read?_of_append hr)
    rw [htokens] at hcut
    refine ⟨lexeme.text ++ before, stray, after, ?_, hstray, ?_, _, hcut⟩
    · rw [Lexeme.read?_append hr, List.append_assoc]
    · rw [Text.byteLength_append, ← Nat.add_assoc]
  | case4 c first cs ha lexeme rest hr size ts hts ih =>
    rw [scan_of_read?_eq_some hr, hts] at h
    cases h

/-- A source is split into tokens, or it has a stray character that is reported at its offset, and
what stands before the character is split into tokens. -/
theorem tokenize_exact (source file : String) (hlen : Text.byteLength source.toList < 2 ^ 32) :
    (∃ tokens, tokenize source file = .ok tokens) ∨
      ∃ before c after, source.toList = before ++ c :: after ∧
        (∃ e, tokenize source file = .error e ∧ e.cause = .unrecognisedToken c.toString ∧
          e.position.file = file ∧ e.position.offset.toNat = Text.byteLength before) ∧
        (∃ tokens, tokenize (String.ofList before) file = .ok tokens) ∧ IsStray c after := by
  cases h : tokenize source file with
  | ok tokens => exact .inl ⟨tokens, rfl⟩
  | error e =>
    obtain ⟨before, c, after, hsource, hstray, rfl, tokens, htokens⟩ :=
      exists_stray_of_scan_eq_error h
    refine .inr ⟨before, c, after, hsource, ⟨_, rfl, rfl, rfl, ?_⟩, ⟨tokens, ?_⟩, hstray⟩
    · -- The offset is below the length of the source, so it is a word.
      have hbefore : 0 + Text.byteLength before < 2 ^ 32 := by
        rw [show source.toList = before ++ c :: after from hsource, Text.byteLength_append] at hlen
        omega
      exact (Position.toNat_offset_ofNat hbefore).trans (Nat.zero_add _)
    · rw [tokenize, TextCursor.ofSource, String.toList_ofList]
      exact htokens

/-- A comment that is closed, and one that is not: its beginning and its end would have the `*` in
common. -/
theorem tokenize_exact_unclosed :
    Text.byteLength "/* é */ #1 /*/ 2px".toList < 2 ^ 32 ∧
      tokenize "/* é */ #1 /*/ 2px" "s" = .error ⟨.unrecognisedToken "/", ⟨12, "s"⟩⟩ ∧
      ∃ before c after, "/* é */ #1 /*/ 2px".toList = before ++ c :: after ∧
        (∃ e, tokenize "/* é */ #1 /*/ 2px" "s" = .error e ∧
          e.cause = .unrecognisedToken c.toString ∧ e.position.file = "s" ∧
          e.position.offset.toNat = Text.byteLength before) ∧
        (∃ tokens, tokenize (String.ofList before) "s" = .ok tokens) ∧ IsStray c after := by
  have hlen : Text.byteLength "/* é */ #1 /*/ 2px".toList < 2 ^ 32 := by decide +kernel
  have herror : tokenize "/* é */ #1 /*/ 2px" "s" =
      .error ⟨.unrecognisedToken "/", ⟨12, "s"⟩⟩ := by
    decide +kernel
  refine ⟨hlen, herror, (tokenize_exact "/* é */ #1 /*/ 2px" "s" hlen).resolve_left ?_⟩
  rintro ⟨tokens, htokens⟩
  rw [herror] at htokens
  cases htokens

end Token

end TypedCss

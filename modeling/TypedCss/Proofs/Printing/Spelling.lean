import TypedCss.Proofs.Grammar.Derivation
import TypedCss.Proofs.Token.Scan

/-!
# Spelling tokens

`Spells after text p` says that a text is split into tokens that satisfy `p`, whatever follows it,
as long as that satisfies `after`. Texts that spell something are put together by `Spells.append`;
what follows the first of them starts with the second. A blank may be put before anything, and it
spells nothing (`spells_blanks`): several blanks in a row are one gap, so it does not matter
where one text ends and the next begins. One word spells its token (`spells_word`), and a text
`Breaks` if every word may end before it.
-/

namespace TypedCss

namespace Text

/-- A text that starts with a blank or with a sign that goes on with no word, or that is empty. -/
def Breaks (rest : List Char) : Prop := ∀ c ∈ rest.head?, c ∈ [' ', '\n', ')', ',', ':', ';']

theorem breaks_nil : Breaks [] := by simp [Breaks]

theorem breaks_cons {c : Char} {cs : List Char} : Breaks (c :: cs) ↔
    c ∈ [' ', '\n', ')', ',', ':', ';'] := by
  simp [Breaks]

end Text

/-- Before a break every word ends. -/
theorem TokenKind.ends_of_breaks {kind : TokenKind} {value rest : List Char}
    (h : Text.Breaks rest) : kind.Ends value rest := by
  cases rest with
  | nil => cases kind <;> simp [Ends, NumeralEnds, Text.stops_nil]
  | cons c cs =>
    have hc : c.isDigit = false ∧ Text.isNamePart c = false ∧
        c ≠ '=' ∧ c ≠ '-' ∧ c ≠ '.' ∧ c ≠ 'p' ∧ c ≠ '%' := by
      have hall : [' ', '\n', ')', ',', ':', ';'].all (fun c ↦ !c.isDigit && !Text.isNamePart c &&
          c != '=' && c != '-' && c != '.' && c != 'p' && c != '%') = true := by decide
      simpa [and_assoc] using List.all_eq_true.1 hall c (Text.breaks_cons.1 h)
    obtain ⟨hd, hn, he, hm, hp, hx, hu⟩ := hc
    cases kind <;> simp [Ends, NumeralEnds, Text.stops_cons, hd, hn, he, hm, hp, hx, hu]

namespace Token

/-- `Spells after text p` says that `text` is split into tokens that satisfy `p`, if what follows
it satisfies `after`. -/
def Spells (after : List Char → Prop) (text : List Char) (p : List Token → Prop) : Prop :=
  ∀ (c : TextCursor) (rest : List Char) (tokens : List Token), after rest →
    c.ahead = text ++ rest → Splits (c.skip text rest) tokens → ∃ ts, p ts ∧ Splits c (ts ++ tokens)

namespace Spells

variable {after after' : List Char → Prop} {text text' : List Char} {p p' : List Token → Prop}

/-- Less may be allowed to follow, and less may be said of the tokens. -/
theorem weaken (h : Spells after text p) (ha : ∀ rest, after' rest → after rest)
    (hp : ∀ ts, p ts → p' ts) : Spells after' text p' := by
  intro c rest tokens hr hc hs
  obtain ⟨ts, ht, hs⟩ := h c rest tokens (ha rest hr) hc hs
  exact ⟨ts, hp ts ht, hs⟩

/-- One text after the other. -/
theorem append (h : Spells after text p) (h' : Spells after' text' p')
    (ha : ∀ rest, after' rest → after (text' ++ rest)) :
    Spells after' (text ++ text') fun us ↦ ∃ ts ts', us = ts ++ ts' ∧ p ts ∧ p' ts' := by
  intro c rest tokens hr hc hs
  rw [List.append_assoc] at hc
  have hskip : (c.skip text (text' ++ rest)).skip text' rest = c.skip (text ++ text') rest :=
    c.skip_skip text text' _ rest
  obtain ⟨ts', ht', hs⟩ := h' (c.skip text (text' ++ rest)) rest tokens hr rfl (hskip ▸ hs)
  obtain ⟨ts, ht, hs⟩ := h c (text' ++ rest) _ (ha rest hr) hc hs
  exact ⟨ts ++ ts', ⟨ts, ts', rfl, ht, ht'⟩, by rwa [List.append_assoc]⟩

/-- A whole text that spells tokens has these tokens, and the end after them. -/
theorem tokenize {s file : String} (h : Spells after s.toList p) (ha : after []) :
    ∃ ts last, p ts ∧ last.kind = .eof ∧ (∀ t ∈ ts, t.kind ≠ .eof) ∧
      Token.tokenize s file = .ok (ts ++ [last]) := by
  obtain ⟨ts, ht, hs⟩ := h (.ofSource s file) [] _ ha (List.append_nil _).symm (.done rfl)
  obtain ⟨words, he, hw⟩ := hs.exists_words
  -- The words of the text are the tokens that it spells, so none of them is an end.
  obtain ⟨rfl, hlast⟩ := List.append_inj' he rfl
  exact ⟨ts, _, ht, rfl, hw.kind_ne_eof, hs.scan_eq_ok⟩

end Spells

/-! ### Blanks and words -/

/-- Blanks spell nothing, whatever follows them. -/
theorem spells_blanks {text : List Char} (h : ∀ b ∈ text, Text.isBlank b = true) :
    Spells (fun _ ↦ True) text (· = []) := by
  intro c rest tokens _ hc hs
  refine ⟨[], rfl, ?_⟩
  rw [List.nil_append, ← scan_eq_ok_iff, scan_blanks h hc]
  exact hs.scan_eq_ok

theorem spells_blank {b : Char} (h : Text.isBlank b = true) :
    Spells (fun _ ↦ True) [b] (· = []) :=
  spells_blanks (List.forall_mem_singleton.2 h)

/-- A word spells its token, if it may end before what follows. -/
theorem spells_word {kind : TokenKind} {value : List Char} (h : kind.Fits value) :
    Spells (kind.Ends value) (value ++ kind.unit) fun ts ↦
      ∃ t : Derivation.Terminal kind, t.value = String.ofList value ∧ ts = [t.token] := by
  intro c rest tokens hr hc hs
  rw [List.append_assoc] at hc
  have hread := Lexeme.read?_word h hr
  rw [← hc] at hread
  exact ⟨_, ⟨⟨String.ofList value, c.spanOf _⟩, rfl, rfl⟩, .word hread hs⟩

/-- A word without a unit spells its token before a break. -/
theorem spells_text {kind : TokenKind} {value : String} (h : kind.Fits value.toList)
    (hunit : kind.unit = []) :
    Spells Text.Breaks value.toList fun ts ↦
      ∃ t : Derivation.Terminal kind, t.value = value ∧ ts = [t.token] := by
  have hword := spells_word h
  rw [hunit, List.append_nil, String.ofList_toList] at hword
  exact hword.weaken (fun _ hr ↦ TokenKind.ends_of_breaks hr) fun _ ht ↦ ht

/-- A sign spells its token. -/
theorem spells_sign {kind : TokenKind} {sign : List Char} (h : kind.symbol? = some sign) :
    Spells (kind.Ends sign) sign fun ts ↦
      ∃ t : Derivation.Terminal kind, ts = [t.token] := by
  have hfits : kind.Fits sign ∧ kind.unit = [] := by
    cases kind <;> first | exact ⟨h, rfl⟩ | cases h
  have hword := spells_word hfits.1
  rw [hfits.2, List.append_nil] at hword
  exact hword.weaken (fun _ hr ↦ hr) fun _ ⟨t, _, ht⟩ ↦ ⟨t, ht⟩

/-- Texts in a row spell tokens in a row. Each text spells something whose meaning is a part of what
is printed. -/
theorem spells_flatMap {α β γ : Type} {after : List Char → Prop} (text : α → List Char)
    (tokens : β → List Token) (meaning : β → γ) (part : α → γ) {as : List α}
    (h : ∀ a ∈ as, Spells after (text a) fun ts ↦ ∃ x, tokens x = ts ∧ meaning x = part a)
    (ha : ∀ a ∈ as, ∀ rest, after (text a ++ rest)) :
    Spells after (as.flatMap text) fun ts ↦
      ∃ xs : List β, xs.flatMap tokens = ts ∧ xs.map meaning = as.map part := by
  induction as with
  | nil =>
    refine (spells_blanks (List.forall_mem_nil _)).weaken (fun _ _ ↦ trivial) ?_
    rintro _ rfl
    exact ⟨[], rfl, rfl⟩
  | cons a as ih =>
    have hrest := ih (fun b hb ↦ h b (List.mem_cons_of_mem a hb))
      fun b hb ↦ ha b (List.mem_cons_of_mem a hb)
    rw [List.flatMap_cons]
    refine ((h a (List.mem_cons_self ..)).append hrest fun rest hr ↦ ?_).weaken
      (fun _ hr ↦ hr) ?_
    · -- What follows the first text is the next one, if there is one.
      cases as with
      | nil => exact hr
      | cons b bs =>
        rw [List.flatMap_cons, List.append_assoc]
        exact ha b (List.mem_cons_of_mem a (List.mem_cons_self ..)) _
    · rintro _ ⟨_, _, rfl, ⟨x, rfl, hx⟩, xs, rfl, hxs⟩
      exact ⟨x :: xs, rfl, by rw [List.map_cons, List.map_cons, hx, hxs]⟩

end Token

end TypedCss

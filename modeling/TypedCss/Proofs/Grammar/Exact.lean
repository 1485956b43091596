import Mathlib.Data.List.Basic
import TypedCss.Proofs.Decimal.Numeral
import TypedCss.Proofs.Grammar.Completeness
import TypedCss.Proofs.Grammar.Unambiguous
import TypedCss.Proofs.Token.Scan

/-!
# The reader of sheets and the grammar

A list of tokens is read as a sheet exactly if the grammar derives it, and the sheet is the meaning
of its derivation (`sheet_eq_ok_iff`), of which there is only one (`Derivation.sheet_unique`). For
the tokens of a source this is `exists_readExactly`. There the two conditions that a derivation puts
on the texts of its tokens say less than they seem to: every numeral is a number, and what a color
adds to a hash is the count and the kind of its digits.
-/

namespace TypedCss.Grammar

open TypedCss.Derivation

/-- Where an item ends is where its last token ends. -/
theorem Item.exists_tokens_eq (x : Derivation.Item) :
    ∃ ts t, x.tokens = ts ++ [t] ∧ t.span.stop = x.stop := by
  match x with
  | .assignment (.ofVariableName name sign value semicolon) =>
    exact ⟨name.token :: sign.token :: value.tokens, semicolon.token, rfl, rfl⟩
  | .assignment (.ofIdentifier name sign value semicolon) =>
    exact ⟨name.token :: sign.token :: value.tokens, semicolon.token, rfl, rfl⟩
  | .rule ⟨first, others, .mk opening body closing⟩ =>
    refine ⟨first.tokens ++ (selectorsTokens others ++ opening.token :: body.tokens),
      closing.token, ?_, rfl⟩
    simp [Item.tokens, Rule.tokens, Block.tokens]

/-- Where a sheet ends that was passed from the start of its file. -/
theorem lastPosition_eq_of_sheet {c d : TokenCursor} {x : Derivation.Sheet} (hc : c.passed = [])
    (h : c.Passes x.tokens d) :
    d.lastPosition = (x.getLast?.map Item.stop).getD ⟨0, c.file⟩ := by
  rcases List.eq_nil_or_concat' x with rfl | ⟨xs, i, rfl⟩
  · obtain rfl := h.eq_of_nil
    simp [TokenCursor.lastPosition, hc]
  · obtain ⟨ts, t, ht, hstop⟩ := Item.exists_tokens_eq i
    rw [Sheet.tokens, List.flatMap_append, List.flatMap_singleton, ht, ← List.append_assoc] at h
    rw [h.lastPosition_eq, hstop]
    simp

theorem ofTokens_append (words : List Token) {last : Token} (file : String)
    (h : last.kind = .eof) : TokenCursor.ofTokens (words ++ [last]) file =
      ⟨file, [], words, ⟨last.value, last.span⟩⟩ := by
  simp [TokenCursor.ofTokens, h]

/-- A list of tokens is read as a sheet exactly if it has a derivation, whose meaning it is. -/
theorem sheet_eq_ok_iff {words : List Token} {last : Token} {file : String} {s : TypedCss.Sheet}
    (hwords : ∀ t ∈ words, t.kind ≠ .eof) (hlast : last.kind = .eof) :
    (sheet (words ++ [last]) file).1 = .ok s ↔
      ∃ x : Derivation.Sheet, x.tokens = words ∧ x.tree file = s := by
  have hc := ofTokens_append words file hlast
  rw [sheet]
  rw [hc]
  constructor
  · intro h
    split at h
    · cases h
    · rename_i is d hi
      cases h
      obtain ⟨hd, x, hx, rfl⟩ := exists_of_items_eq_ok hi
      have hx' : words = x.tokens ++ d.ahead := hx.ahead
      -- The items were read up to an end, and there is no end among the words.
      have hend : d.ahead = [] := by
        refine List.eq_nil_iff_forall_not_mem.2 fun t ht ↦ ?_
        obtain ⟨u, us, hu⟩ := List.exists_cons_of_ne_nil (List.ne_nil_of_mem ht)
        refine hwords u (by simp [hx', hu]) ?_
        rw [TokenCursor.kind, TokenCursor.current, hu] at hd
        exact hd
      rw [hend, List.append_nil] at hx'
      refine ⟨x, hx'.symm, ?_⟩
      rw [TokenCursor.spanFrom, lastPosition_eq_of_sheet rfl hx]
      rfl
  · rintro ⟨x, rfl, rfl⟩
    have hx : TokenCursor.Passes ⟨file, [], x.tokens, ⟨last.value, last.span⟩⟩ x.tokens
        ⟨file, x.tokens.reverse, [], ⟨last.value, last.span⟩⟩ :=
      ⟨by simp, by simp, rfl, rfl⟩
    rw [items_complete x hx rfl]
    simp only [TokenCursor.spanFrom, lastPosition_eq_of_sheet rfl hx]
    rfl

/-- A list of tokens that is not read as a sheet has a token that is refused. -/
theorem refusal_of_sheet_eq_error {words : List Token} {last : Token} {file : String} {e : Error}
    (hlast : last.kind = .eof) (h : (sheet (words ++ [last]) file).1 = .error e) :
    ∃ t ∈ words ++ [last], t.Refusal e := by
  have hc := ofTokens_append words file hlast
  rw [sheet] at h
  rw [hc] at h
  split at h
  · rename_i e' d hi
    cases h
    obtain ⟨hd, hr⟩ := refusal_of_items_eq_error hi
    refine ⟨d.current, ?_, hr⟩
    have hmem := hd.current_mem
    have hl : EndToken.toToken ⟨last.value, last.span⟩ = last := by
      rw [EndToken.toToken, ← hlast]
    rwa [hl] at hmem
  · cases h

/-- What it means that the tokens of a source are read by the grammar and by nothing else. -/
structure ReadExactly (words : List Token) (last : Token) (file : String) : Prop where
  /-- Only the last token is an end. -/
  kind_ne_eof : ∀ t ∈ words, t.kind ≠ .eof
  /-- A hash begins with its mark, so a hash that is a color is a `#` and hexadecimal digits. -/
  mark_of_hash : ∀ t ∈ words, t.kind = .hash → t.value.toList.head? = some '#'
  /-- A numeral is a number, so every numeral is an operand. -/
  number_of_numeral : ∀ t ∈ words, t.kind = .number ∨ t.kind = .pixel ∨ t.kind = .percentage →
    ∃ x, Decimal.read? t.value = some x
  /-- A sheet is read exactly if it is the meaning of a derivation. -/
  sheet_iff : ∀ s, (sheet (words ++ [last]) file).1 = .ok s ↔
    ∃ x : Derivation.Sheet, x.tokens = words ∧ x.tree file = s
  /-- There is at most one derivation. -/
  unique : ∀ x y : Derivation.Sheet, x.tokens = words → y.tokens = words → x = y

/-- The tokens of a text that is split are read exactly. -/
theorem exists_readExactly {c : TextCursor} {tokens : List Token} (name : String)
    (h : Token.Splits c tokens) :
    ∃ words last, tokens = words ++ [last] ∧ last.kind = .eof ∧ ReadExactly words last name := by
  obtain ⟨words, rfl, hw⟩ := h.exists_words
  refine ⟨words, _, rfl, rfl, hw.kind_ne_eof, ?_, ?_,
    fun s ↦ sheet_eq_ok_iff hw.kind_ne_eof rfl, ?_⟩
  · intro t ht hk
    have hf := hw t ht
    rw [hk] at hf
    obtain ⟨part, hp, -⟩ := hf
    rw [hp]
    rfl
  · intro t ht hk
    have hn : Text.IsNumeral t.value.toList := by
      have hf := hw t ht
      rcases hk with hk | hk | hk <;> rw [hk] at hf <;> exact hf
    have hx := Decimal.exists_read?_eq_some hn
    rwa [String.ofList_toList] at hx
  · rintro x y rfl hy
    exact sheet_unique hy.symm

/-- The tokens of a source are read as a sheet exactly if they have a derivation, which is unique,
and the sheet is its meaning. -/
theorem sheet_exact {source file : String} {tokens : List Token} (name : String)
    (h : Token.tokenize source file = .ok tokens) :
    ∃ words last, tokens = words ++ [last] ∧ last.kind = .eof ∧ ReadExactly words last name :=
  exists_readExactly name (Token.splits_of_scan_eq_ok h)

/-- A source with a product in a rule is read exactly. -/
theorem sheet_exact_product :
    ∃ tokens, Token.tokenize "b, .c { d: 2 * (3px + e); }" "s" = .ok tokens ∧
      ∃ words last, tokens = words ++ [last] ∧ last.kind = .eof ∧ ReadExactly words last "s" := by
  have hs : (Token.tokenize "b, .c { d: 2 * (3px + e); }" "s").toOption.isSome = true := by
    decide +kernel
  cases h : Token.tokenize "b, .c { d: 2 * (3px + e); }" "s" with
  | error e =>
    rw [h] at hs
    cases hs
  | ok tokens => exact ⟨tokens, rfl, sheet_exact "s" h⟩

end TypedCss.Grammar

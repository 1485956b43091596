import TypedCss.Proofs.Token.Word
import TypedCss.Token.Scan

/-!
# What the tokens of a text are

A text is split if it is a sequence of lexemes (`Splits`), and `scan_eq_ok_iff` says that its tokens
are then those of the sequence. Blanks make no difference to it (`scan_blanks`). By induction on the
sequence:

* the last token is the end of the text, and each of the others has a text that fits its kind
  (`Splits.exists_words`);
* each token starts at a place between two characters of the text (`Splits.hasPlace`), and so does
  the error of a text that cannot be split (`hasPlace_of_scan_eq_error`).
-/

namespace TypedCss

/-! ### Places -/

namespace TextCursor

/-- `c.HasPlace p` says that `p` is the position between two parts of what is left to read. -/
def HasPlace (c : TextCursor) (p : Position) : Prop :=
  ∃ before after, c.ahead = before ++ after ∧
    p = .ofNat c.file (c.offset + Text.byteLength before)

/-- The cursor after a first part of what is left. -/
def skip (c : TextCursor) (text rest : List Char) : TextCursor :=
  ⟨c.file, c.offset + Text.byteLength text, rest⟩

theorem skip_skip (c : TextCursor) (text more rest rest' : List Char) :
    (c.skip text rest).skip more rest' = c.skip (text ++ more) rest' := by
  simp only [skip, Text.byteLength_append, Nat.add_assoc]

theorem hasPlace_position (c : TextCursor) : c.HasPlace c.position := ⟨[], c.ahead, rfl, rfl⟩

/-- The places after a first part are places of the whole. -/
theorem HasPlace.of_skip {c : TextCursor} {text rest : List Char} {p : Position}
    (hc : c.ahead = text ++ rest) (h : (c.skip text rest).HasPlace p) : c.HasPlace p := by
  obtain ⟨before, after, hr, rfl⟩ := h
  refine ⟨text ++ before, after, ?_, ?_⟩
  · rw [hc, List.append_assoc, ← hr]
    rfl
  · rw [Text.byteLength_append, ← Nat.add_assoc]
    rfl

end TextCursor

namespace Token

/-! ### One lexeme and the rest -/

/-- A word is a token before the others. -/
theorem scan_of_read?_eq_word {c : TextCursor} {kind : TokenKind} {value unit rest : List Char}
    (h : Lexeme.read? c.ahead = some (.word kind value unit, rest)) :
    scan c = (scan (c.skip (value ++ unit) rest)).map fun tokens ↦
      ⟨kind, String.ofList value, c.spanOf (Text.byteLength (value ++ unit))⟩ :: tokens :=
  scan_of_read?_eq_some h

/-- A gap leaves no token. -/
theorem scan_of_read?_eq_gap {c : TextCursor} {text rest : List Char}
    (h : Lexeme.read? c.ahead = some (.gap text, rest)) : scan c = scan (c.skip text rest) := by
  rw [scan_of_read?_eq_some h]
  show (scan (c.skip text rest)).map ([] ++ ·) = scan (c.skip text rest)
  cases scan (c.skip text rest) <;> rfl

/-! ### Texts that are split -/

/-- `Splits c tokens` says that what is left to read is a sequence of lexemes, and that `tokens` are
those of its words, with the end after them. -/
inductive Splits : TextCursor → List Token → Prop where
  /-- Nothing is left. -/
  | done {c : TextCursor} (h : c.ahead = []) : Splits c [endOfText c]
  /-- A gap leaves no token. -/
  | gap {c : TextCursor} {text rest : List Char} {tokens : List Token}
    (h : Lexeme.read? c.ahead = some (.gap text, rest)) (next : Splits (c.skip text rest) tokens) :
    Splits c tokens
  /-- A word is a token. -/
  | word {c : TextCursor} {kind : TokenKind} {value unit rest : List Char} {tokens : List Token}
    (h : Lexeme.read? c.ahead = some (.word kind value unit, rest))
    (next : Splits (c.skip (value ++ unit) rest) tokens) :
    Splits c (⟨kind, String.ofList value, c.spanOf (Text.byteLength (value ++ unit))⟩ :: tokens)

/-- A text that is split is a sequence of lexemes. -/
theorem splits_of_scan_eq_ok {c : TextCursor} {tokens : List Token} (h : scan c = .ok tokens) :
    Splits c tokens := by
  induction c using scan.induct generalizing tokens with
  | case1 c ha =>
    rw [scan_of_ahead_eq_nil ha] at h
    cases h
    exact .done ha
  | case2 c first cs ha hr =>
    rw [scan_of_read?_eq_none ha hr] at h
    cases h
  | case3 c first cs ha lexeme rest hr size e he =>
    rw [scan_of_read?_eq_some hr, he] at h
    cases h
  | case4 c first cs ha lexeme rest hr size ts hts =>
    rename_i ih
    rw [scan_of_read?_eq_some hr, hts] at h
    cases h
    cases lexeme with
    | gap text => exact .gap hr (ih hts)
    | word kind value unit => exact .word hr (ih hts)

/-- A sequence of lexemes is split. -/
theorem Splits.scan_eq_ok {c : TextCursor} {tokens : List Token} (h : Splits c tokens) :
    scan c = .ok tokens := by
  induction h with
  | done h => exact scan_of_ahead_eq_nil h
  | gap h _ ih => rw [scan_of_read?_eq_gap h, ih]
  | word h _ ih =>
    rw [scan_of_read?_eq_word h, ih]
    rfl

/-- The tokens of a text are those of its sequence of lexemes. -/
theorem scan_eq_ok_iff {c : TextCursor} {tokens : List Token} :
    scan c = .ok tokens ↔ Splits c tokens :=
  ⟨splits_of_scan_eq_ok, Splits.scan_eq_ok⟩

/-! ### Blanks -/

theorem read?_of_isBlank {b : Char} (hb : Text.isBlank b = true) (rest : List Char) :
    Lexeme.read? (b :: rest) =
      some (.gap (b :: rest.takeWhile Text.isBlank), rest.dropWhile Text.isBlank) := by
  rw [Lexeme.read?_cons, Pattern.filter_starts_of_isBlank hb]
  simp [Pattern.read?, hb]

/-- A blank before a text does not change its tokens. -/
theorem scan_blank {c : TextCursor} {b : Char} {rest : List Char} (hb : Text.isBlank b = true)
    (hc : c.ahead = b :: rest) : scan c = scan (c.skip [b] rest) := by
  have hread := read?_of_isBlank hb rest
  rw [← hc] at hread
  by_cases hr : Text.Stops Text.isBlank rest
  · have ht := Text.takeWhile_append (List.forall_mem_nil _) hr
    have hd := Text.dropWhile_append (List.forall_mem_nil _) hr
    rw [List.nil_append] at ht hd
    rw [ht, hd] at hread
    exact scan_of_read?_eq_gap hread
  · -- The next character is a blank too, and the gap that starts with it becomes longer.
    obtain ⟨b', cs, rfl, hb'⟩ : ∃ b' cs, rest = b' :: cs ∧ Text.isBlank b' = true := by
      cases rest with
      | nil => exact absurd Text.stops_nil hr
      | cons b' cs => exact ⟨b', cs, rfl, by simpa [Text.stops_cons] using hr⟩
    have hread' : Lexeme.read? (c.skip [b] (b' :: cs)).ahead = _ := read?_of_isBlank hb' cs
    rw [List.takeWhile_cons_of_pos hb', List.dropWhile_cons_of_pos hb'] at hread
    rw [scan_of_read?_eq_gap hread, scan_of_read?_eq_gap hread', TextCursor.skip_skip]
    rfl

/-- Several blanks before a text do not change its tokens. -/
theorem scan_blanks {c : TextCursor} {text rest : List Char}
    (h : ∀ b ∈ text, Text.isBlank b = true) (hc : c.ahead = text ++ rest) :
    scan c = scan (c.skip text rest) := by
  induction text generalizing c with
  | nil =>
    rw [List.nil_append] at hc
    subst hc
    rfl
  | cons b text ih =>
    have hskip := ih (c := c.skip [b] (text ++ rest))
      (fun b' hb' ↦ h b' (List.mem_cons_of_mem b hb')) rfl
    rw [TextCursor.skip_skip] at hskip
    exact (scan_blank (h b (List.mem_cons_self ..)) hc).trans hskip

/-! ### Their tokens -/

/-- The texts of the tokens fit their kinds. -/
def AllFit (ts : List Token) : Prop := ∀ t ∈ ts, t.kind.Fits t.value.toList

theorem AllFit.mono {ts us : List Token} (h : AllFit us) (hsub : ts ⊆ us) : AllFit ts :=
  fun t ht ↦ h t (hsub ht)

/-- No text fits an end. -/
theorem AllFit.kind_ne_eof {ts : List Token} (h : AllFit ts) : ∀ t ∈ ts, t.kind ≠ .eof := by
  intro t ht hk
  have hf := h t ht
  rw [hk] at hf
  exact hf

/-- The last token is the end of the text, and the others are words. -/
theorem Splits.exists_words {c : TextCursor} {tokens : List Token} (h : Splits c tokens) :
    ∃ words, tokens = words ++ [endOfText (c.skip c.ahead [])] ∧ AllFit words := by
  induction h with
  | done h =>
    refine ⟨[], ?_, List.forall_mem_nil _⟩
    rw [h]
    rfl
  | gap h _ ih =>
    -- Skipping the gap and then the rest is skipping all of it, so the end is at the same place.
    obtain ⟨words, rfl, hw⟩ := ih
    refine ⟨words, ?_, hw⟩
    rw [Lexeme.read?_append h, TextCursor.skip_skip]
    rfl
  | @word c kind value unit rest tokens h _ ih =>
    obtain ⟨words, rfl, hw⟩ := ih
    refine ⟨⟨kind, String.ofList value, c.spanOf (Text.byteLength (value ++ unit))⟩ :: words,
      ?_, ?_⟩
    · rw [Lexeme.read?_append h, TextCursor.skip_skip]
      rfl
    · rintro t (_ | ⟨_, ht⟩)
      · rw [String.toList_ofList]
        exact (Lexeme.word_of_read? h).1
      · exact hw t ht

/-- The tokens of a text start at places of the text. -/
theorem Splits.hasPlace {c : TextCursor} {tokens : List Token} (h : Splits c tokens) :
    ∀ t ∈ tokens, c.HasPlace t.span.start := by
  induction h with
  | @done c h =>
    intro t ht
    obtain rfl := List.mem_singleton.1 ht
    exact c.hasPlace_position
  | gap h _ ih =>
    intro t ht
    exact (ih t ht).of_skip (Lexeme.read?_append h)
  | @word c kind value unit rest tokens h _ ih =>
    intro t ht
    rcases List.mem_cons.1 ht with rfl | ht
    · exact c.hasPlace_position
    · exact (ih t ht).of_skip (Lexeme.read?_append h)

/-- A text that cannot be split has a character that starts no lexeme. -/
theorem hasPlace_of_scan_eq_error {c : TextCursor} {e : Error} (h : scan c = .error e) :
    (∃ token, e.cause = .unrecognisedToken token) ∧ c.HasPlace e.position := by
  induction c using scan.induct with
  | case1 c ha =>
    rw [scan_of_ahead_eq_nil ha] at h
    cases h
  | case2 c first cs ha hr =>
    rw [scan_of_read?_eq_none ha hr] at h
    cases h
    exact ⟨⟨_, rfl⟩, c.hasPlace_position⟩
  | case3 c first cs ha lexeme rest hr size e' he ih =>
    rw [scan_of_read?_eq_some hr, he] at h
    cases h
    obtain ⟨hc, hp⟩ := ih he
    exact ⟨hc, hp.of_skip (Lexeme.read?_append hr)⟩
  | case4 c first cs ha lexeme rest hr size ts hts ih =>
    rw [scan_of_read?_eq_some hr, hts] at h
    cases h

end Token

end TypedCss

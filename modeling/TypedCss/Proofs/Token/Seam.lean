import TypedCss.Proofs.Printing.Spelling
import TypedCss.Proofs.Relabeling
import TypedCss.Proofs.Token.Gap

/-!
# The tokens of two texts with a newline between them

No word goes on over a newline, a comment that was closed stays closed, and a comment to the end of
the line ends before the newline. So the tokens of a first text are the same whatever comes after a
newline behind it (`Splits.scan_newline`), and those of the second text stand further on by as many
bytes as come before it (`scan_shift`). Together: `tokenize_newline`.
-/

namespace TypedCss

/-! ### Texts further on -/

namespace TextCursor

/-- The same text `n` bytes further on in its file. -/
def shift (n : Nat) (c : TextCursor) : TextCursor := ⟨c.file, c.offset + n, c.ahead⟩

theorem position_shift (n : Nat) (c : TextCursor) :
    (c.shift n).position = (Relocation.shift n).start c.position :=
  congrArg (Position.mk · c.file) (UInt32.ofNat_add c.offset n)

theorem skip_shift (n : Nat) (c : TextCursor) (text rest : List Char) :
    (c.shift n).skip text rest = (c.skip text rest).shift n :=
  congrArg (TextCursor.mk c.file · rest) (Nat.add_right_comm ..)

theorem spanOf_shift (n k : Nat) (c : TextCursor) :
    (c.shift n).spanOf k = (c.spanOf k).move (.shift n) := by
  have hstop : Position.ofNat c.file (c.offset + n + k) =
      (Relocation.shift n).stop (.ofNat c.file (c.offset + k)) := by
    rw [Nat.add_right_comm]
    exact congrArg (Position.mk · c.file) (UInt32.ofNat_add (c.offset + k) n)
  exact congrArg₂ Span.mk (c.position_shift n) hstop

end TextCursor

/-! ### Lexemes before a newline -/

namespace Text

/-- A run that stops before the rest of a text stops there if a newline follows the text. -/
theorem Stops.newline {p : Char → Bool} (hp : p '\n' = false) {rest : List Char}
    (h : Stops p rest) (more : List Char) : Stops p (rest ++ '\n' :: more) := by
  cases rest with
  | nil => exact stops_cons.2 hp
  | cons c cs => exact stops_cons.2 (stops_cons.1 h)

end Text

/-- A word that ends where a text ends or goes on also ends if a newline follows the text. -/
theorem TokenKind.Ends.newline {kind : TokenKind} {value rest : List Char}
    (h : kind.Ends value rest) (more : List Char) : kind.Ends value (rest ++ '\n' :: more) := by
  cases kind with
  | identifier | variableName | hash | ifWord | elseWord | trueWord | falseWord =>
    all_goals exact Text.Stops.newline (by decide) h more
  | number =>
    obtain ⟨hd, hf, hp, hu⟩ := h
    refine ⟨hd.newline (by decide) more, hf.imp_right fun hf d cs he ↦ ?_, fun cs he ↦ ?_,
      fun cs he ↦ ?_⟩
    · rcases rest with _ | ⟨a, _ | ⟨b, rest⟩⟩ <;> cases he
      · decide
      · exact hf d rest rfl
    · rcases rest with _ | ⟨a, _ | ⟨b, rest⟩⟩ <;> cases he
      exact hp rest rfl
    · rcases rest with _ | ⟨a, rest⟩ <;> cases he
      exact hu rest rfl
  | colon =>
    cases rest with
    | nil => exact fun he ↦ by cases he
    | cons c cs => exact h
  | dash =>
    intro c cs he
    rcases rest with _ | ⟨a, _ | ⟨b, rest⟩⟩ <;> cases he
    · decide
    · exact h c rest rfl
  | eof | pixel | percentage | openBracket | closeBracket | openCurly | closeCurly | openParen
  | closeParen | colonEquals | semicolon | comma | dot | plus | star => all_goals trivial

/-- A word is read the same if a newline follows the text. -/
theorem Lexeme.read?_word_newline {cs rest : List Char} {kind : TokenKind}
    {value unit : List Char} (h : Lexeme.read? cs = some (.word kind value unit, rest))
    (more : List Char) :
    Lexeme.read? (cs ++ '\n' :: more) = some (.word kind value unit, rest ++ '\n' :: more) := by
  obtain ⟨rfl, hf, rfl, he⟩ := read?_word_iff.1 h
  refine read?_word_iff.2 ⟨?_, hf, rfl, he.newline more⟩
  rw [List.append_assoc, List.append_assoc]

/-- So is a comment; only blanks may go on. -/
theorem Lexeme.read?_gap_newline {cs text rest : List Char}
    (h : Lexeme.read? cs = some (.gap text, rest)) (more : List Char) :
    (∀ b ∈ text, Text.isBlank b = true) ∨
      Lexeme.read? (cs ++ '\n' :: more) = some (.gap text, rest ++ '\n' :: more) := by
  obtain ⟨rfl, hgap⟩ := read?_gap_iff.1 h
  rw [List.append_assoc]
  cases hgap with
  | blanks hne hb ends => exact .inl hb
  | lineComment hb ends => exact .inr (read?_of_gapEnds (.lineComment hb (ends.newline rfl more)))
  | blockComment _ hb => exact .inr (read?_of_gapEnds (.blockComment _ hb))

namespace Token

/-! ### The first text -/

/-- The tokens of a text, without the end, come before those of what follows it after a newline. -/
theorem Splits.scan_newline {c : TextCursor} {tokens : List Token} (h : Splits c tokens)
    (more : List Char) : scan ⟨c.file, c.offset, c.ahead ++ '\n' :: more⟩ =
      (scan ⟨c.file, c.offset + Text.byteLength c.ahead + 1, more⟩).map
        (tokens.dropLast ++ ·) := by
  have hend : ∀ {c : TextCursor} {text rest : List Char}, c.ahead = text ++ rest →
      c.offset + Text.byteLength c.ahead + 1 =
        (c.skip text rest).offset + Text.byteLength rest + 1 := by
    intro c text rest hc
    rw [hc, Text.byteLength_append, ← Nat.add_assoc]
    rfl
  induction h with
  | @done c h =>
    have hblank : Text.isBlank '\n' = true := by decide
    rw [h, List.nil_append, scan_blank hblank rfl]
    show scan ⟨c.file, c.offset + 1, more⟩ = (scan ⟨c.file, c.offset + 0 + 1, more⟩).map ([] ++ ·)
    cases scan ⟨c.file, c.offset + 0 + 1, more⟩ <;> rfl
  | @gap c text rest tokens h next ih =>
    have happ : c.ahead = text ++ rest := Lexeme.read?_append h
    have hskip : scan ⟨c.file, c.offset, c.ahead ++ '\n' :: more⟩ =
        scan ⟨c.file, (c.skip text rest).offset, rest ++ '\n' :: more⟩ := by
      rcases Lexeme.read?_gap_newline h more with hb | hread
      · refine scan_blanks hb ?_
        rw [happ, List.append_assoc]
      · exact scan_of_read?_eq_gap hread
    rw [hskip, hend happ]
    exact ih
  | @word c kind value unit rest tokens h next ih =>
    have hne : tokens ≠ [] := by
      obtain ⟨words, rfl, -⟩ := next.exists_words
      simp
    have hskip := scan_of_read?_eq_word (c := ⟨c.file, c.offset, c.ahead ++ '\n' :: more⟩)
      (Lexeme.read?_word_newline h more)
    rw [hskip, hend (Lexeme.read?_append h), List.dropLast_cons_of_ne_nil hne]
    have hmap : ∀ (t : Token) (x : Except Error (List Token)),
        (x.map (tokens.dropLast ++ ·)).map (t :: ·) = x.map (t :: tokens.dropLast ++ ·) := by
      intro t x
      cases x <;> rfl
    exact (congrArg (Except.map _) ih).trans (hmap _ _)

/-! ### The second text -/

/-- What a text further on is split into: the tokens, or the error, further on. -/
def shiftAll (n : Nat) (result : Except Error (List Token)) : Except Error (List Token) :=
  (result.map (List.map (Token.move (.shift n)))).mapError (Error.move (Relocation.shift n).start)

theorem scan_shift_of_rest {n : Nat} {c : TextCursor} {lexeme : Lexeme} {rest : List Char}
    (hr : Lexeme.read? c.ahead = some (lexeme, rest))
    (ih : scan ((c.skip lexeme.text rest).shift n) =
      shiftAll n (scan (c.skip lexeme.text rest))) :
    scan (c.shift n) = shiftAll n (scan c) := by
  have hscan := scan_of_read?_eq_some (c := c.shift n) hr
  rw [TextCursor.spanOf_shift] at hscan
  rw [← TextCursor.skip_shift] at ih
  rw [scan_of_read?_eq_some hr]
  refine hscan.trans ((congrArg (Except.map _) ih).trans ?_)
  show Except.map _ (shiftAll n (scan (c.skip lexeme.text rest))) =
    shiftAll n (Except.map _ (scan (c.skip lexeme.text rest)))
  cases scan (c.skip lexeme.text rest) with
  | error e => rfl
  | ok tokens => cases lexeme <;> rfl

/-- A text that stands `n` bytes further on has its tokens, or its error, further on. -/
theorem scan_shift (n : Nat) (c : TextCursor) : scan (c.shift n) = shiftAll n (scan c) := by
  induction c using scan.induct with
  | case1 c ha =>
    rw [scan_of_ahead_eq_nil ha, scan_of_ahead_eq_nil (c := c.shift n) ha, endOfText,
      TextCursor.spanOf_shift]
    rfl
  | case2 c first cs ha hr =>
    rw [scan_of_read?_eq_none ha hr, scan_of_read?_eq_none (c := c.shift n) ha hr,
      TextCursor.position_shift]
    rfl
  | case3 c first cs ha lexeme rest hr size e he ih => exact scan_shift_of_rest hr ih
  | case4 c first cs ha lexeme rest hr size ts hts ih => exact scan_shift_of_rest hr ih

/-! ### Both texts -/

/-- The tokens of two texts with a newline between them are those of the first, and then those of
the second, which stand further on. -/
theorem tokenize_newline {a file : String} {words : List Token} {last : Token}
    (ha : tokenize a file = .ok (words ++ [last])) (b : String) :
    tokenize (a ++ "\n" ++ b) file =
      (shiftAll (Text.byteLength a.toList + 1) (tokenize b file)).map (words ++ ·) := by
  have hs := (splits_of_scan_eq_ok ha).scan_newline b.toList
  have htext : (a ++ "\n" ++ b).toList = a.toList ++ '\n' :: b.toList := by
    rw [String.toList_append, String.toList_append, List.append_assoc]
    rfl
  have hshift := scan_shift (Text.byteLength a.toList + 1) (.ofSource b file)
  rw [tokenize, TextCursor.ofSource, htext]
  rw [List.dropLast_concat] at hs
  refine hs.trans (congrArg (Except.map _) (Eq.trans ?_ hshift))
  rw [TextCursor.shift, TextCursor.ofSource, TextCursor.ofSource, Nat.add_assoc]

end Token

end TypedCss

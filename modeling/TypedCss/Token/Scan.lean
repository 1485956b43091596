import TypedCss.Error
import TypedCss.Source.TextCursor
import TypedCss.Token.Pattern

/-!
# The tokens of a text

`tokenize` splits a source into tokens, lexeme by lexeme. Gaps leave no token behind. The first
character that starts no lexeme is an error, and nothing after it is looked at.

The recursion is on what is left of the text, of which every lexeme takes at least one character
(`Lexeme.length_lt_of_read?`). What a round of it does is said by `scan_of_ahead_eq_nil`,
`scan_of_read?_eq_none` and `scan_of_read?_eq_some`.
-/

namespace TypedCss.Token

/-- The token that stands for the end of a text. -/
def endOfText (c : TextCursor) : Token := ⟨.eof, "EOF", c.spanOf 0⟩

/-- The tokens from a cursor to the end of its text. -/
def scan (c : TextCursor) : Except Error (List Token) :=
  match c.ahead with
  | [] => .ok [endOfText c]
  | first :: _ =>
    match _h : Lexeme.read? c.ahead with
    | none => .error ⟨.unrecognisedToken first.toString, c.position⟩
    | some (lexeme, rest) =>
      let size := Text.byteLength lexeme.text
      match scan ⟨c.file, c.offset + size, rest⟩ with
      | .error e => .error e
      | .ok tokens => .ok ((lexeme.token? (c.spanOf size)).toList ++ tokens)
termination_by c.ahead.length
decreasing_by exact Lexeme.length_lt_of_read? _h

/-! ### One lexeme at a time -/

/-- At the end of a text only the end is left. -/
theorem scan_of_ahead_eq_nil {c : TextCursor} (h : c.ahead = []) :
    scan c = .ok [endOfText c] := by
  rw [scan]
  simp only [h]

/-- A character that starts no lexeme is an error. -/
theorem scan_of_read?_eq_none {c : TextCursor} {first : Char} {cs : List Char}
    (h : c.ahead = first :: cs) (hr : Lexeme.read? c.ahead = none) :
    scan c = .error ⟨.unrecognisedToken first.toString, c.position⟩ := by
  rw [scan]
  simp only [h]
  split
  · rfl
  · simp_all

/-- A lexeme adds its token, if it has one, to those of the rest. -/
theorem scan_of_read?_eq_some {c : TextCursor} {lexeme : Lexeme} {rest : List Char}
    (h : Lexeme.read? c.ahead = some (lexeme, rest)) :
    scan c = (scan ⟨c.file, c.offset + Text.byteLength lexeme.text, rest⟩).map fun tokens ↦
      (lexeme.token? (c.spanOf (Text.byteLength lexeme.text))).toList ++ tokens := by
  have hlt := Lexeme.length_lt_of_read? h
  rw [scan]
  split
  · simp_all
  · split
    · simp_all
    · rename_i lexeme' rest' hr
      obtain ⟨rfl, rfl⟩ := Prod.mk.inj (Option.some.inj (h.symm.trans hr))
      show (match scan _ with | .error e => _ | .ok tokens => _) = _
      split <;> rename_i hs <;> rw [hs] <;> rfl

/-! ### Sources -/

/-- The tokens of a source. -/
def tokenize (source file : String) : Except Error (List Token) :=
  scan (.ofSource source file)

end TypedCss.Token

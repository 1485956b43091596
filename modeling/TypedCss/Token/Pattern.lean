import TypedCss.Text.Blank
import TypedCss.Text.Utf8
import TypedCss.Token

/-!
# The shapes of tokens

A text is read lexeme by lexeme. A lexeme is a token, or a gap between tokens: blanks or a comment.
Each shape that a lexeme can have is a `Pattern`, which reads one lexeme off the front of a text;
`Pattern.all` lists them in the order in which they are tried.

Every pattern cuts the text in two and loses nothing of it (`read?_append`), and none reads an
empty lexeme (`text_ne_nil_of_read?`).
-/

namespace TypedCss

/-! ### Classes of characters -/

namespace Text

/-- A character that a name can start with. -/
def isNameStart (c : Char) : Bool := c.isAlpha || c == '_'

/-- A character that a name can go on with. -/
def isNamePart (c : Char) : Bool := c.isAlphanum || c == '_' || c == '-'

/-- Cuts a text at the end of the first `*/`. -/
def closeComment? : List Char → Option (List Char × List Char)
  | [] => none
  | c :: cs =>
    match c, cs with
    | '*', '/' :: rest => some (['*', '/'], rest)
    | _, _ => (closeComment? cs).map fun (body, rest) ↦ (c :: body, rest)

/-- Cuts a text after a fraction: a point with at least one digit behind it. Without one the first
part is empty. -/
def cutFraction : List Char → List Char × List Char
  | '.' :: d :: cs =>
    if d.isDigit then ('.' :: d :: cs.takeWhile Char.isDigit, cs.dropWhile Char.isDigit)
    else ([], '.' :: d :: cs)
  | cs => ([], cs)

/-- Nothing is lost when a comment is closed. -/
theorem append_of_closeComment? {cs body rest : List Char}
    (h : closeComment? cs = some (body, rest)) : cs = body ++ rest := by
  induction cs generalizing body with
  | nil => simp [closeComment?] at h
  | cons c cs ih =>
    unfold closeComment? at h
    split at h
    · obtain ⟨rfl, rfl⟩ := Prod.mk.inj (Option.some.inj h)
      rfl
    · obtain ⟨⟨b, r⟩, hb, he⟩ := Option.map_eq_some_iff.1 h
      obtain ⟨rfl, rfl⟩ := Prod.mk.inj he
      rw [ih hb, List.cons_append]

/-- Nothing is lost when a fraction is cut off. -/
theorem cutFraction_append (cs : List Char) : (cutFraction cs).1 ++ (cutFraction cs).2 = cs := by
  unfold cutFraction
  split
  · split
    · simp
    · rfl
  · rfl

end Text

/-! ### Lexemes -/

/-- A piece of a text: a gap, or a token with the unit that is not part of its value. -/
inductive Lexeme where
  /-- Blanks or a comment. -/
  | gap (text : List Char)
  /-- A token. -/
  | word (kind : TokenKind) (value unit : List Char)
deriving DecidableEq

namespace Lexeme

/-- The piece of text that a lexeme is. -/
def text : Lexeme → List Char
  | gap t => t
  | word _ value unit => value ++ unit

/-- The token that a lexeme stands for, when its text covers `span`. -/
def token? (span : Span) : Lexeme → Option Token
  | gap _ => none
  | word kind value _ => some ⟨kind, String.ofList value, span⟩

end Lexeme

/-! ### Patterns -/

/-- The shapes of lexemes. -/
inductive Pattern where
  /-- A run of blanks. -/
  | blanks
  /-- A comment between `/*` and the first `*/` after it. -/
  | blockComment
  /-- A comment from `//` to the end of the line. -/
  | lineComment
  /-- Two dashes and a name. -/
  | variableName
  /-- Digits, an optional fraction, an optional unit. -/
  | number
  /-- A `#` and at least one character of a name. -/
  | hash
  /-- A name or a reserved word. -/
  | name
  /-- A fixed text. -/
  | fixed (kind : TokenKind) (text : List Char)
deriving DecidableEq

namespace Pattern

/-- All patterns. A pattern is tried only where those before it do not fit. -/
def all : List Pattern :=
  [.blanks, .blockComment, .lineComment, .variableName, .number, .hash, .name,
   .fixed .colonEquals [':', '='], .fixed .colon [':'], .fixed .semicolon [';'],
   .fixed .comma [','], .fixed .dot ['.'], .fixed .openBracket ['['],
   .fixed .closeBracket [']'], .fixed .openCurly ['\x7b'], .fixed .closeCurly ['\x7d'],
   .fixed .openParen ['('], .fixed .closeParen [')'], .fixed .plus ['+'], .fixed .dash ['-'],
   .fixed .star ['*']]

/-- The kind of a number with the unit that a text starts with, and the text cut after the unit. -/
def cutUnit : List Char → TokenKind × List Char × List Char
  | 'p' :: 'x' :: cs => (.pixel, ['p', 'x'], cs)
  | '%' :: cs => (.percentage, ['%'], cs)
  | cs => (.number, [], cs)

theorem cutUnit_append (cs : List Char) : (cutUnit cs).2.1 ++ (cutUnit cs).2.2 = cs := by
  unfold cutUnit
  split <;> rfl

/-- Reads one lexeme of this shape off the front of a text, and gives what is left. -/
def read? : Pattern → List Char → Option (Lexeme × List Char)
  | blanks, cs =>
    if (cs.takeWhile Text.isBlank).isEmpty then none
    else some (.gap (cs.takeWhile Text.isBlank), cs.dropWhile Text.isBlank)
  | blockComment, '/' :: '*' :: cs =>
    (Text.closeComment? cs).map fun (body, rest) ↦ (.gap ('/' :: '*' :: body), rest)
  | lineComment, '/' :: '/' :: cs =>
    some (.gap ('/' :: '/' :: cs.takeWhile (· != '\n')), cs.dropWhile (· != '\n'))
  | variableName, '-' :: '-' :: c :: cs =>
    if Text.isNameStart c then
      some (.word .variableName ('-' :: '-' :: c :: cs.takeWhile Text.isNamePart) [],
        cs.dropWhile Text.isNamePart)
    else none
  | number, c :: cs =>
    if c.isDigit then
      let fraction := Text.cutFraction (cs.dropWhile Char.isDigit)
      let unit := cutUnit fraction.2
      some (.word unit.1 (c :: cs.takeWhile Char.isDigit ++ fraction.1) unit.2.1, unit.2.2)
    else none
  | hash, '#' :: cs =>
    if (cs.takeWhile Text.isNamePart).isEmpty then none
    else some (.word .hash ('#' :: cs.takeWhile Text.isNamePart) [],
      cs.dropWhile Text.isNamePart)
  | name, c :: cs =>
    if Text.isNameStart c then
      let word := c :: cs.takeWhile Text.isNamePart
      let kind := (TokenKind.reserved? (String.ofList word)).getD .identifier
      some (.word kind word [], cs.dropWhile Text.isNamePart)
    else none
  | fixed kind text, cs =>
    if text.isPrefixOf cs then some (.word kind text [], cs.drop text.length) else none
  | _, _ => none

/-- A pattern cuts a text in two. -/
theorem read?_append {p : Pattern} {cs rest : List Char} {l : Lexeme}
    (h : p.read? cs = some (l, rest)) : cs = l.text ++ rest := by
  unfold read? at h
  split at h
  · split at h
    · exact absurd h (by simp)
    · obtain ⟨rfl, rfl⟩ := Prod.mk.inj (Option.some.inj h)
      simp [Lexeme.text]
  · obtain ⟨⟨b, r⟩, hb, he⟩ := Option.map_eq_some_iff.1 h
    obtain ⟨rfl, rfl⟩ := Prod.mk.inj he
    simp [Lexeme.text, Text.append_of_closeComment? hb]
  · obtain ⟨rfl, rfl⟩ := Prod.mk.inj (Option.some.inj h)
    simp [Lexeme.text]
  · split at h
    · obtain ⟨rfl, rfl⟩ := Prod.mk.inj (Option.some.inj h)
      simp [Lexeme.text]
    · exact absurd h (by simp)
  · rename_i c cs
    split at h
    · obtain ⟨rfl, rfl⟩ := Prod.mk.inj (Option.some.inj h)
      simp only [Lexeme.text, List.append_assoc, List.cons_append, cutUnit_append,
        Text.cutFraction_append, List.takeWhile_append_dropWhile]
    · exact absurd h (by simp)
  · split at h
    · exact absurd h (by simp)
    · obtain ⟨rfl, rfl⟩ := Prod.mk.inj (Option.some.inj h)
      simp [Lexeme.text]
  · split at h
    · obtain ⟨rfl, rfl⟩ := Prod.mk.inj (Option.some.inj h)
      simp [Lexeme.text]
    · exact absurd h (by simp)
  · split at h
    · rename_i hp
      obtain ⟨rest', rfl⟩ := List.isPrefixOf_iff_prefix.1 hp
      obtain ⟨rfl, rfl⟩ := Prod.mk.inj (Option.some.inj h)
      simp [Lexeme.text]
    · exact absurd h (by simp)
  · exact absurd h (by simp)

/-- No pattern of the list reads an empty lexeme. -/
theorem text_ne_nil_of_read? {p : Pattern} (hp : p ∈ all) {cs rest : List Char} {l : Lexeme}
    (h : p.read? cs = some (l, rest)) : l.text ≠ [] := by
  unfold read? at h
  split at h
  · split at h
    · exact absurd h (by simp)
    · rename_i he
      obtain ⟨rfl, rfl⟩ := Prod.mk.inj (Option.some.inj h)
      simpa [Lexeme.text] using he
  · obtain ⟨⟨b, r⟩, hb, he⟩ := Option.map_eq_some_iff.1 h
    obtain ⟨rfl, rfl⟩ := Prod.mk.inj he
    simp [Lexeme.text]
  · obtain ⟨rfl, rfl⟩ := Prod.mk.inj (Option.some.inj h)
    simp [Lexeme.text]
  · split at h
    · obtain ⟨rfl, rfl⟩ := Prod.mk.inj (Option.some.inj h)
      simp [Lexeme.text]
    · exact absurd h (by simp)
  · split at h
    · obtain ⟨rfl, rfl⟩ := Prod.mk.inj (Option.some.inj h)
      simp [Lexeme.text]
    · exact absurd h (by simp)
  · split at h
    · exact absurd h (by simp)
    · obtain ⟨rfl, rfl⟩ := Prod.mk.inj (Option.some.inj h)
      simp [Lexeme.text]
  · split at h
    · obtain ⟨rfl, rfl⟩ := Prod.mk.inj (Option.some.inj h)
      simp [Lexeme.text]
    · exact absurd h (by simp)
  · rename_i _ text
    split at h
    · obtain ⟨rfl, rfl⟩ := Prod.mk.inj (Option.some.inj h)
      have hne : text ≠ [] := by rintro rfl; simp [all] at hp
      simpa [Lexeme.text] using hne
    · exact absurd h (by simp)
  · exact absurd h (by simp)

end Pattern

namespace Lexeme

/-- Reads the first lexeme of a text, by the first pattern that fits, and gives what is left. -/
def read? (cs : List Char) : Option (Lexeme × List Char) :=
  Pattern.all.findSome? (·.read? cs)

/-- The first lexeme and what is left make up the text. -/
theorem read?_append {cs rest : List Char} {l : Lexeme} (h : read? cs = some (l, rest)) :
    cs = l.text ++ rest := by
  obtain ⟨p, -, hp⟩ := List.exists_of_findSome?_eq_some h
  exact Pattern.read?_append hp

/-- The first lexeme takes at least one character off the text. -/
theorem length_lt_of_read? {cs rest : List Char} {l : Lexeme} (h : read? cs = some (l, rest)) :
    rest.length < cs.length := by
  obtain ⟨p, hp, hr⟩ := List.exists_of_findSome?_eq_some h
  have hne := Pattern.text_ne_nil_of_read? hp hr
  rw [read?_append h, List.length_append]
  have := List.length_pos_iff.2 hne
  omega

end Lexeme

end TypedCss

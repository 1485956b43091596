import TypedCss.Source.Position

/-!
# Tokens

The words of a style sheet. A token has a kind, a text and a span. The text of a number does not
include its unit, which the kind gives; the span does include it. A list of tokens that a text was
split into ends with a token of kind `eof`.
-/

namespace TypedCss

/-- The kinds of tokens. -/
inductive TokenKind where
  | eof
  | identifier
  | variableName
  | hash
  | number
  | pixel
  | percentage
  | openBracket
  | closeBracket
  | openCurly
  | closeCurly
  | openParen
  | closeParen
  | colon
  | colonEquals
  | semicolon
  | comma
  | dot
  | plus
  | dash
  | star
  | ifWord
  | elseWord
  | trueWord
  | falseWord
deriving DecidableEq, Inhabited

namespace TokenKind

/-- The name of a kind. -/
def name : TokenKind → String
  | eof => "EOF"
  | identifier => "Identifier"
  | variableName => "Variable"
  | hash => "Hash"
  | number => "Number"
  | pixel => "Pixel"
  | percentage => "Percentage"
  | openBracket => "OpenBracket"
  | closeBracket => "CloseBracket"
  | openCurly => "OpenCurly"
  | closeCurly => "CloseCurly"
  | openParen => "OpenParen"
  | closeParen => "CloseParen"
  | colon => "Colon"
  | colonEquals => "ColonEquals"
  | semicolon => "Semicolon"
  | comma => "Comma"
  | dot => "Dot"
  | plus => "Plus"
  | dash => "Dash"
  | star => "Star"
  | ifWord => "If"
  | elseWord => "Else"
  | trueWord => "True"
  | falseWord => "False"

/-- All kinds, in the order of their names. -/
def all : List TokenKind :=
  [closeBracket, closeCurly, closeParen, colon, colonEquals, comma, dash, dot, eof, elseWord,
   falseWord, hash, identifier, ifWord, number, openBracket, openCurly, openParen, percentage,
   pixel, plus, semicolon, star, trueWord, variableName]

theorem mem_all (k : TokenKind) : k ∈ all := by cases k <;> decide

/-- The kind with the given name. -/
def ofName? (s : String) : Option TokenKind := all.find? (·.name == s)

/-- The kind of a word that cannot be used as a name. -/
def reserved? (word : String) : Option TokenKind :=
  match word with
  | "if" => some ifWord
  | "else" => some elseWord
  | "true" | "TRUE" => some trueWord
  | "false" | "FALSE" => some falseWord
  | _ => none

end TokenKind

/-- A token. -/
structure Token where
  /-- The kind, which is all that the grammar looks at. -/
  kind : TokenKind
  /-- The text, without the unit of a number. -/
  value : String
  /-- Where the token stands. -/
  span : Span
deriving DecidableEq, Inhabited

namespace Token

/-- A token's kind and text, for people to read. -/
def display (t : Token) : String :=
  "Token \x7b\nkind: " ++ t.kind.name ++ ",\nvalue: " ++ t.value ++ "\x7d"

/-- Whether a token's kind is among the given ones. -/
def isOneOf (t : Token) (kinds : List TokenKind) : Bool := kinds.contains t.kind

end Token

end TypedCss

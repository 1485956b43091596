import TypedCss.Text.Concealed

/-!
# Quoted text

Messages show the text of a token between double quotes, in a form in which every character of it
can be seen: the quote and the backslash are written after a backslash, four control characters
have letters of their own, and any other concealed character is written as its code point.
-/

namespace TypedCss.Text

/-- How one character is written inside quotes. -/
def escape (c : Char) : String :=
  match c with
  | '"' => "\\\""
  | '\\' => "\\\\"
  | '\n' => "\\n"
  | '\r' => "\\r"
  | '\t' => "\\t"
  | '\x00' => "\\0"
  | c =>
    if isConcealed c then "\\u\x7b" ++ String.ofList (Nat.toDigits 16 c.toNat) ++ "\x7d"
    else c.toString

/-- A text between double quotes, each of its characters visible. -/
def quote (s : String) : String :=
  "\"" ++ String.join (s.toList.map escape) ++ "\""

end TypedCss.Text

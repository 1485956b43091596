import TypedCss.Source.Position
import TypedCss.Text.Utf8

/-!
# A place in a text

A `TextCursor` is the part of a source that has not been read yet, together with the number of
bytes that have been.
-/

namespace TypedCss

/-- What is left of a source, and where it starts. -/
structure TextCursor where
  /-- The name of the file. -/
  file : String
  /-- The number of bytes already read. -/
  offset : Nat
  /-- What is left to read. -/
  ahead : List Char
deriving DecidableEq

namespace TextCursor

/-- The start of a source. -/
def ofSource (source file : String) : TextCursor := ⟨file, 0, source.toList⟩

/-- The cursor `n` bytes further on. -/
def advance (c : TextCursor) (n : Nat) : TextCursor :=
  { c with offset := c.offset + n, ahead := Text.dropBytes n c.ahead }

/-- The next character. -/
def peek? (c : TextCursor) : Option Char := c.ahead.head?

/-- The text that is left. -/
def remainder (c : TextCursor) : String := String.ofList c.ahead

/-- Whether nothing is left. -/
def atEnd (c : TextCursor) : Bool := c.ahead.isEmpty

/-- Where the cursor stands. -/
def position (c : TextCursor) : Position := .ofNat c.file c.offset

/-- The span of the next `n` bytes. -/
def spanOf (c : TextCursor) (n : Nat) : Span := ⟨c.position, .ofNat c.file (c.offset + n)⟩

/-- Advancing over a first part leaves the second. -/
theorem advance_append (file : String) (offset : Nat) (xs ys : List Char) :
    advance ⟨file, offset, xs ++ ys⟩ (Text.byteLength xs) =
      ⟨file, offset + Text.byteLength xs, ys⟩ := by
  simp [advance, Text.dropBytes_byteLength_append]

end TextCursor

end TypedCss

import TypedCss.Text.Utf8

/-!
# Lines of a source

A source is a sequence of lines, each with the newline that ends it; the last one may lack it.
`lineAt?` finds the line that a byte offset falls into. The offset of the end of the source, which
is past all characters, belongs to the last line.
-/

namespace TypedCss

/-- A line that was looked up by an offset: its number, counted from one, its text with the newline,
and the offset within it. -/
structure Line where
  /-- The number of the line in its source, from one on. -/
  number : Nat
  /-- The characters of the line, the newline among them. -/
  text : List Char
  /-- The bytes of the line that come before the offset. -/
  column : Nat
deriving DecidableEq

namespace Line

/-- The lines of a source, each with its newline. -/
def split : List Char → List (List Char)
  | [] => []
  | c :: cs =>
    if c = '\n' then [c] :: split cs
    else
      match split cs with
      | [] => [[c]]
      | line :: lines => (c :: line) :: lines

/-- Splitting loses nothing. -/
theorem flatten_split (cs : List Char) : (split cs).flatten = cs := by
  induction cs with
  | nil => rfl
  | cons c cs ih =>
    unfold split
    split
    · simp [ih]
    · split <;> simp_all

/-- The line that contains the character at an offset, where `number` is the number of the first
line. -/
def find? (number offset : Nat) : List (List Char) → Option Line
  | [] => none
  | line :: lines =>
    if offset < Text.byteLength line then some ⟨number, line, offset⟩
    else find? (number + 1) (offset - Text.byteLength line) lines

/-- The last of the given lines, at its end. No lines count as one empty line. -/
def atEnd (lines : List (List Char)) : Line :=
  let text := lines.getLast?.getD []
  ⟨max lines.length 1, text, Text.byteLength text⟩

end Line

/-- The line that an offset into a source falls into. -/
def lineAt? (source : String) (offset : UInt32) : Option Line :=
  if Text.byteLength source.toList < offset.toNat then none
  else
    let lines := Line.split source.toList
    some ((Line.find? 1 offset.toNat lines).getD (Line.atEnd lines))

end TypedCss

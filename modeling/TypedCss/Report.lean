import TypedCss.Error
import TypedCss.Source.Line
import TypedCss.Text.Blank
import TypedCss.Text.Padding

/-!
# Reports

A diagnostic is shown with the line that it points into, and an arrow below the line:

    Error: UndefinedVariableError (variable `--x` is not defined in this scope)
    -> style.icss
      |
    2 | width: --x;
      | -------^

The line is shown without the blanks at its ends. The arrow is placed by bytes, and only the spaces
at the start of the line are taken off its length. A position past the end of the source has no
line and no arrow. An arrow is as wide as padding can be at most; a diagnostic that would need a
longer one has no report.
-/

namespace TypedCss

namespace Report

/-- The number of spaces that a line begins with. -/
def spaces (line : Line) : Nat := (line.text.takeWhile (· == ' ')).length

/-- The width of the arrow below a line. -/
def arrowWidth (line : Line) : Nat := line.column - spaces line + 1

/-- The line of a diagnostic, with its number, between a blank margin and the arrow. -/
def layout (line : Line) (margin arrow : String) : String :=
  let shown := String.ofList (Text.trim (line.text.drop (spaces line)))
  margin ++ "\n" ++ toString line.number ++ " | " ++ shown ++ "\n" ++ margin ++ " " ++ arrow ++ "\n"

/-- The line of a diagnostic with its margin and its arrow, if these are not too wide. -/
def snippet? (line : Line) : Option String :=
  (Text.padLeft? ' ' ((toString line.number).length + 2) "|").bind fun margin ↦
    (Text.padLeft? '-' (arrowWidth line) "^").map (layout line margin)

/-- What went wrong: the name of the cause, and its tip. -/
def headline (cause : Cause) : String :=
  match cause.tip with
  | none => "Error: " ++ cause.name
  | some tip => "Error: " ++ cause.name ++ " (" ++ tip ++ ")"

end Report

/-- A diagnostic on a source, as it is shown. -/
def Error.report? (e : Error) (source file : String) : Option String :=
  let head := Report.headline e.cause ++ "\n-> " ++ file ++ "\n"
  match lineAt? source e.position.offset with
  | none => some head
  | some line => (Report.snippet? line).map (head ++ ·)

end TypedCss

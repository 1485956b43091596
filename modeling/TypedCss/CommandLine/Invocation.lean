import TypedCss.Compile

/-!
# What a call asks for

The arguments of a call name its input, and say what is to become of it. How they are read from a
list of words is not described here: a call begins when they have been read.
-/

namespace TypedCss.CommandLine

/-- The name of the file that a path leads to, which is its last part: empty parts and `.` do not
count. A path that ends in `..`, or has no other parts, gives no name. -/
def fileName? (path : String) : Option String :=
  match (path.toList.splitOn '/').findRev? fun part ↦ part != [] && part != ['.'] with
  | some ['.', '.'] | none => none
  | some name => some (String.ofList name)

/-- The arguments of a call. -/
structure Invocation where
  /-- The path of the source. -/
  input : String
  /-- The path to write to, instead of printing. -/
  output : Option String
  /-- Whether only to check. -/
  check : Bool
  /-- The number of spaces before a declaration, if one is given. -/
  indent : Option Nat
deriving DecidableEq

/-- The options of the compilation that a call asks for. -/
def Invocation.config (i : Invocation) : Config where
  fileName := (fileName? i.input).getD Config.standard.fileName
  checkOnly := i.check
  indent := i.indent.getD defaultIndent

end TypedCss.CommandLine

import TypedCss.CommandLine.Run

/-!
# The program

Carries out a call on the files of the system: reads the input, prints the answer, and writes the
output if there is one to write.
-/

namespace TypedCss.CommandLine

/-- Prints an answer and ends with its code. -/
def Answer.print (a : Answer) : IO UInt32 := do
  IO.print a.stdout
  IO.eprint a.stderr
  return a.exitCode.toUInt32

/-- Carries out a call. -/
def Invocation.carryOut (i : Invocation) : IO UInt32 := do
  let bytes ← (some <$> IO.FS.readBinFile i.input) <|> pure none
  match i.respond bytes with
  | .answer a => a.print
  | .write path css =>
    let answer ← (do IO.FS.writeFile path css; return Answer.success "") <|>
      pure (Answer.failure "")
    answer.print

end TypedCss.CommandLine

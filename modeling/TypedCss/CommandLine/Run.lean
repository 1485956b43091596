import TypedCss.CommandLine.Invocation
import TypedCss.Report

/-!
# A call

What a call answers depends on its arguments and on the bytes of its input alone: `respond` says
what is printed and what is to be written where. `run` carries it out on the files of a system, of
which it needs no more than that they can be read and written.

All errors of a compilation are printed, and then nothing else is printed or written. A call gives
up where something is to be padded too far.
-/

namespace TypedCss.CommandLine

/-! ### Answers -/

/-- What a call prints, and how it ends. -/
structure Answer where
  /-- Zero if all went well. -/
  exitCode : UInt8
  /-- What is printed as the result. -/
  stdout : String
  /-- What is printed beside the result. When a call gives up, this is what it printed before. -/
  stderr : String
deriving DecidableEq

namespace Answer

/-- All went well. -/
def success (stdout : String) : Answer := ⟨0, stdout, ""⟩

/-- Something failed. -/
def failure (stderr : String) : Answer := ⟨1, "", stderr⟩

/-- The call gave up. -/
def abort (stderr : String) : Answer := ⟨101, "", stderr⟩

/-- The answer that prints reports, each with a newline, up to the first that there is none of. The
others were printed before. -/
def ofReports (printed : String) : List (Option String) → Answer
  | [] => failure printed
  | none :: _ => abort printed
  | some report :: reports => ofReports (printed ++ report ++ "\n") reports

end Answer

/-- What a call does: it answers, or it writes a file and answers after that. -/
inductive Response where
  /-- Nothing is written. -/
  | answer (a : Answer)
  /-- The text is written to the path. -/
  | write (path css : String)
deriving DecidableEq

/-- What a call does with the bytes of its input, if they can be read. -/
def Invocation.respond (i : Invocation) (bytes : Option ByteArray) : Response :=
  match bytes.bind String.fromUTF8? with
  | none => .answer (.failure "")
  | some source =>
    match compile source i.config with
    | .error es =>
      .answer (.ofReports "" (es.map fun e ↦ e.report? source i.config.fileName))
    | .ok none => .answer (.success "")
    | .ok (some css) =>
      if overflows source i.config then .answer (.abort "")
      else
        match i.output with
        | none => .answer (.success css)
        | some path => .write path css

/-! ### Files -/

/-- The files of a system whose states are of type `σ`. -/
structure FileSystem (σ : Type) where
  /-- The bytes of the file that a path leads to, if there is one. -/
  content? : σ → String → Option ByteArray
  /-- The bytes of the file that a path leads to, if they can be read. -/
  read? : σ → String → Option ByteArray
  /-- Writes bytes to a path: whether this went well, and the state afterwards. -/
  write : σ → String → ByteArray → Bool × σ

variable {σ : Type}

/-- Carries out a call. -/
def Invocation.run (i : Invocation) (files : FileSystem σ) (before : σ) : Answer × σ :=
  match i.respond (files.read? before i.input) with
  | .answer a => (a, before)
  | .write path css =>
    match files.write before path css.toUTF8 with
    | (true, after) => (.success "", after)
    | (false, after) => (.failure "", after)

end TypedCss.CommandLine

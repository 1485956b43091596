import TypedCss.Css
import TypedCss.Evaluation
import TypedCss.Parse
import TypedCss.Typing

/-!
# Compiling

The way from a source to its text in CSS. A source that cannot be read gives one error; a tree that
violates the typing rules gives all that was reported on it; an evaluation that fails gives one
error again. Nothing is written unless all went well, and unless the text can be padded as far as it
is to be (`overflows`).
-/

namespace TypedCss

/-- The options of a compilation. -/
structure Config where
  /-- The name of the source in positions and reports. -/
  fileName : String
  /-- Whether to stop after checking. -/
  checkOnly : Bool
  /-- The number of spaces before each declaration. -/
  indent : Nat
deriving DecidableEq, Inhabited

/-- The options that hold unless others are given. -/
def Config.standard : Config := ⟨"stdin", false, defaultIndent⟩

/-- Reads a source and checks it. -/
def check (source : String) (config : Config) : Except (List Error) Sheet :=
  match Parse.sheet source config.fileName with
  | .error e => .error [e]
  | .ok sheet =>
    let checked := sheet.check.1
    if checked.hasErrors then .error checked.errors else .ok checked

/-- Compiles a source. Nothing is written if only a check was asked for. -/
def compile (source : String) (config : Config) : Except (List Error) (Option String) :=
  match check source config with
  | .error es => .error es
  | .ok sheet =>
    if config.checkOnly then .ok none
    else
      match sheet.evaluate with
      | .error e => .error [e]
      | .ok evaluated => .ok (some (evaluated.css config.indent))

/-- Whether the text that a source is compiled to would have to be padded too far. -/
def overflows (source : String) (config : Config) : Bool :=
  match check source config with
  | .error _ => false
  | .ok sheet =>
    !config.checkOnly &&
      match sheet.evaluate with
      | .error _ => false
      | .ok evaluated => evaluated.overflows config.indent

end TypedCss

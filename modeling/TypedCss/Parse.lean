import TypedCss.Grammar.Sheet
import TypedCss.Token.Scan

/-!
# From text to trees

A source is split into tokens, and the tokens are read as a tree. A sheet takes up the whole source;
an expression, a block or a rule takes up as much of it as it needs, and the rest is ignored.
-/

namespace TypedCss.Parse

open Grammar (Outcome)

/-- Reads the front of a source by the given reader. -/
def front {α : Type} (read : (c : TokenCursor) → Outcome α c) (source file : String) :
    Except Error α :=
  match Token.tokenize source file with
  | .error e => .error e
  | .ok tokens => (read (.ofTokens tokens file)).result

/-- The expression at the front of a source. -/
def expr (source file : String) : Except Error Expr :=
  front (Grammar.expr .standard .default) source file

/-- The statements of the block at the front of a source. -/
def block (source file : String) : Except Error (List Stmt) :=
  front (Grammar.block .standard) source file

/-- The rule at the front of a source. -/
def rule (source file : String) : Except Error Rule :=
  front (Grammar.rule .standard) source file

/-- The sheet that a source is. -/
def sheet (source file : String) : Except Error Sheet :=
  match Token.tokenize source file with
  | .error e => .error e
  | .ok tokens => (Grammar.sheet tokens file).1

end TypedCss.Parse

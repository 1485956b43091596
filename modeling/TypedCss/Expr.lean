import TypedCss.Info

/-!
# Expressions

An expression is a value, a reference to a variable, or an operation. An operation keeps its
operands in a list, so a tree that was not read from a text may have any number of them; only two
have a type or a value.

`Expr.text` writes an expression with as few parentheses as its operators need. `Expr.errors`
collects the diagnostics of all nodes, a node before its operands, and `Expr.hasErrors` says
whether there are any.
-/

namespace TypedCss

/-- An expression. -/
inductive Expr where
  /-- A value. -/
  | literal (value : Literal) (info : Info)
  /-- A variable, by its name. -/
  | reference (name : String) (info : Info)
  /-- An operation on any number of operands. -/
  | operation (operator : Operator) (operands : List Expr) (info : Info)
deriving Inhabited

namespace Expr

/-- What the outermost node carries. -/
def info : Expr → Info
  | literal _ i | reference _ i | operation _ _ i => i

/-- The span of an expression. -/
def span (e : Expr) : Span := e.info.span

/-- The value that an expression is, if it is one. -/
def asLiteral? : Expr → Option Literal
  | literal v _ => some v
  | _ => none

/-- The operands of an operation; nothing else has any. -/
def operands : Expr → List Expr
  | operation _ es _ => es
  | _ => []

/-! ### Text -/

/-- How tightly the outermost node holds together; nothing is tighter than a single token. -/
def level : Expr → Nat
  | operation op _ _ => op.level
  | _ => 3

/-- A text, in parentheses if `enclosed` says so. -/
def parenthesize (enclosed : Bool) (s : String) : String :=
  if enclosed then "(" ++ s ++ ")" else s

mutual

/-- An expression as it is written. -/
def text : Expr → String
  | literal v _ => v.text
  | reference name _ => name
  | operation op es _ => firstText op es

/-- The operands of an operation with the operator between them. The first one needs parentheses
only if it is looser than the operator. -/
def firstText (op : Operator) : List Expr → String
  | [] => ""
  | e :: es => parenthesize (e.level < op.level) e.text ++ laterText op es

/-- The operands after the first one. Operators group to the left, so one that is just as tight
needs parentheses too. -/
def laterText (op : Operator) : List Expr → String
  | [] => ""
  | e :: es =>
    " " ++ op.symbol ++ " " ++ parenthesize (e.level ≤ op.level) e.text ++ laterText op es

end

/-! ### Diagnostics -/

mutual

/-- Whether anything was reported on an expression or on a part of it. -/
def hasErrors : Expr → Bool
  | literal _ i | reference _ i => !i.isClean
  | operation _ es i => !i.isClean || anyHasErrors es

/-- Whether anything was reported on one of several expressions. -/
def anyHasErrors : List Expr → Bool
  | [] => false
  | e :: es => e.hasErrors || anyHasErrors es

end

mutual

/-- All that was reported on an expression and its parts, a node before its operands. -/
def errors : Expr → List Error
  | literal _ i | reference _ i => i.diagnostics
  | operation _ es i => i.diagnostics ++ listErrors es

/-- All that was reported on several expressions. -/
def listErrors : List Expr → List Error
  | [] => []
  | e :: es => e.errors ++ listErrors es

end

/-! ### Equality -/

mutual

/-- Equality of expressions, of their spans and of their diagnostics. Numbers are compared as
floats. -/
protected def beq : Expr → Expr → Bool
  | literal a i, literal b j => a == b && i == j
  | reference a i, reference b j => a == b && i == j
  | operation p as i, operation q bs j => p == q && listBeq as bs && i == j
  | _, _ => false

/-- Equality of lists of expressions. -/
def listBeq : List Expr → List Expr → Bool
  | [], [] => true
  | a :: as, b :: bs => Expr.beq a b && listBeq as bs
  | _, _ => false

end

instance : BEq Expr := ⟨Expr.beq⟩

end Expr

end TypedCss

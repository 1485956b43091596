import TypedCss.Scope
import TypedCss.Sheet

/-!
# Evaluation

Evaluation turns a sheet into one whose rules hold only declarations, and whose declarations hold
only values. Assignments bind their variable and vanish; a conditional is replaced by what the
branch that its guard selects evaluates to. The first expression without a value stops it.

An error leaves behind the bindings that were made before it in the innermost open frame, so a
body gives a scope beside its result in either case. Frames are closed in either case too.
-/

namespace TypedCss

/-! ### Expressions -/

namespace Operator

/-- The value of an operation, or why it has none. -/
def fold (op : Operator) (left right : Literal) : Except Cause Literal :=
  match op.fold? left right with
  | some v => .ok v
  | none => .error (.unfoldableOperation op.symbol left.text right.text)

end Operator

/-- The value of an expression. Operands are folded before the operation, the left one first. -/
def Expr.fold (scope : Scope Literal) : Expr → Except Error Literal
  | literal v _ => .ok v
  | reference name info =>
    match scope.lookup name with
    | some v => .ok v
    | none => .error ⟨.unboundVariable name, info.start⟩
  | operation op [left, right] info =>
    match left.fold scope with
    | .error e => .error e
    | .ok l =>
      match right.fold scope with
      | .error e => .error e
      | .ok r => (op.fold l r).mapError fun cause ↦ ⟨cause, info.start⟩
  | operation op operands info =>
    .error ⟨.operandArity op.symbol operands.length, info.start⟩

/-- The value of an expression as an expression. -/
def Expr.evaluate (scope : Scope Literal) (e : Expr) : Except Error Expr :=
  (e.fold scope).map fun v ↦ .literal v e.info.bare

/-! ### Statements -/

/-- Binds the variable of an assignment to its value. -/
def Assignment.evaluate (scope : Scope Literal) (a : Assignment) : Except Error (Scope Literal) :=
  (a.value.fold scope).map fun v ↦ scope.bind a.name v

/-- The declaration with its value. -/
def Declaration.evaluate (scope : Scope Literal) (d : Declaration) : Except Error Declaration :=
  (d.value.evaluate scope).map fun value ↦ ⟨d.property, value, d.info.bare⟩

/-- The truth value that a guard has. -/
def Stmt.guardValue (scope : Scope Literal) (guard : Expr) (info : Info) : Except Error Bool :=
  match guard.fold scope with
  | .error e => .error e
  | .ok (.bool b) => .ok b
  | .ok v => .error ⟨.nonBooleanCondition v.text, info.start⟩

mutual

/-- What a statement leaves in its place, and the scope after it. -/
def Stmt.evaluate (scope : Scope Literal) : Stmt → Except Error (List Stmt) × Scope Literal
  | .declaration d => ((d.evaluate scope).map fun d ↦ [.declaration d], scope)
  | .assignment a =>
    match a.evaluate scope with
    | .error e => (.error e, scope)
    | .ok scope => (.ok [], scope)
  | .conditional guard body otherwise info =>
    match Stmt.guardValue scope guard info with
    | .error e => (.error e, scope)
    | .ok true => scope.inFrame (Body.evaluate · body)
    | .ok false => otherwise.evaluate scope

/-- What the statements of a body leave in their places, and the scope after them. -/
def Body.evaluate (scope : Scope Literal) : List Stmt → Except Error (List Stmt) × Scope Literal
  | [] => (.ok [], scope)
  | s :: rest =>
    match s.evaluate scope with
    | (.error e, scope) => (.error e, scope)
    | (.ok first, scope) =>
      let (result, scope) := Body.evaluate scope rest
      (result.map (first ++ ·), scope)

/-- What an else branch leaves in its place, and the scope after it. -/
def ElseBranch.evaluate (scope : Scope Literal) :
    ElseBranch → Except Error (List Stmt) × Scope Literal
  | .absent => (.ok [], scope)
  | .present body _ => scope.inFrame (Body.evaluate · body)

end

/-! ### Sheets -/

/-- The rule with its body evaluated, and the scope after it. -/
def Rule.evaluate (scope : Scope Literal) (r : Rule) : Except Error Rule × Scope Literal :=
  let (result, scope) := scope.inFrame (Body.evaluate · r.body)
  (result.map fun body ↦ ⟨r.selectors, body, r.info.bare⟩, scope)

/-- What items leave behind, when they are evaluated in turn. -/
def Item.evaluateAll (scope : Scope Literal) : List Item → Except Error (List Item)
  | [] => .ok []
  | .assignment a :: rest =>
    match a.evaluate scope with
    | .error e => .error e
    | .ok scope => evaluateAll scope rest
  | .rule r :: rest =>
    match r.evaluate scope with
    | (.error e, _) => .error e
    | (.ok r, scope) => (evaluateAll scope rest).map (.rule r :: ·)

/-- Evaluates a sheet. -/
def Sheet.evaluate (s : Sheet) : Except Error Sheet :=
  (Item.evaluateAll .empty s.items).map fun items ↦ ⟨items, s.info.bare⟩

end TypedCss

import TypedCss.Property
import TypedCss.Scope
import TypedCss.Sheet

/-!
# Checking types

The checker goes over a tree and reports every violation of the typing rules on the node that
causes it; it changes nothing else and never stops early. A variable is known from its assignment
on, to the end of the body that the assignment stands in.

An expression without a type has been reported where the type was lost. Its variable is still
bound, without a type, and nothing that depends on it is reported again: the scope of a checker
binds names to `Option ValueType`.

The body of a conditional is checked before its guard. The guard sees nothing of it, and the
reports are kept at the nodes, so no answer shows this order.
-/

namespace TypedCss

/-! ### Expressions -/

/-- What checking an expression gives: the expression with what was reported on it, its type, and
how much was reported. -/
structure Typed where
  /-- The expression with the new reports on its nodes. -/
  expr : Expr
  /-- The type, unless it was lost. -/
  type : Option ValueType
  /-- The number of new reports. -/
  reports : Nat

namespace Operator

/-- Why an operation on two types has no type. -/
def typeError : Operator → ValueType → ValueType → Cause
  | .multiply, left, right => .invalidScalarOperand left right
  | _, left, right => .operandTypeMismatch left right

end Operator

/-- Checks an expression in a scope. An operation with a wrong number of operands is reported
itself, and its operands are left alone. -/
def Expr.check (scope : Scope (Option ValueType)) : Expr → Typed
  | literal v info => ⟨literal v info, some v.type, 0⟩
  | reference name info =>
    match scope.lookup name with
    | some type => ⟨reference name info, type, 0⟩
    | none => ⟨reference name (info.report (.undefinedVariable name)), none, 1⟩
  | operation op [left, right] info =>
    let l := left.check scope
    let r := right.check scope
    match l.type, r.type with
    | some s, some t =>
      match op.resultType? s t with
      | some type => ⟨operation op [l.expr, r.expr] info, some type, l.reports + r.reports⟩
      | none =>
        ⟨operation op [l.expr, r.expr] (info.report (op.typeError s t)), none,
          l.reports + r.reports + 1⟩
    | _, _ => ⟨operation op [l.expr, r.expr] info, none, l.reports + r.reports⟩
  | operation op operands info =>
    ⟨operation op operands (info.report (.operandArity op.symbol operands.length)), none, 1⟩

/-! ### The checker -/

/-- What the checker knows so far: the types of variables, and how much was reported. -/
structure Checker where
  /-- The variables, each with its type unless that was lost. -/
  scope : Scope (Option ValueType)
  /-- The number of reports so far. -/
  errorCount : Nat
deriving Inhabited

namespace Checker

/-- The checker at the start of a sheet. -/
def start : Checker := ⟨.empty, 0⟩

/-- Opens a frame. -/
def enter (c : Checker) : Checker := { c with scope := c.scope.push }

/-- Closes the innermost frame. -/
def leave (c : Checker) : Checker := { c with scope := c.scope.pop }

/-- Runs a pass in a frame of its own. -/
def inFrame {β : Type} (c : Checker) (f : Checker → β × Checker) : β × Checker :=
  let (result, inner) := f c.enter
  (result, inner.leave)

/-- Counts reports. -/
def count (c : Checker) (n : Nat) : Checker := { c with errorCount := c.errorCount + n }

/-- Binds a variable to a type, or to none. -/
def bind (c : Checker) (name : String) (type : Option ValueType) : Checker :=
  { c with scope := c.scope.bind name type }

end Checker

/-! ### Statements -/

/-- Checks an assignment and binds its variable. -/
def Assignment.check (c : Checker) (a : Assignment) : Assignment × Checker :=
  let value := a.value.check c.scope
  ({ a with value := value.expr }, (c.count value.reports).bind a.name value.type)

/-- What is wrong with giving a property a value of the given type. -/
def Declaration.cause? (property : String) (type : Option ValueType) : Option Cause :=
  match PropertyKind.ofName? property, type with
  | none, _ => some (.unknownProperty property)
  | some _, none => none
  | some kind, some t =>
    if kind.accepts t then none else some (.propertyTypeViolation property kind.violation)

/-- Checks a declaration. -/
def Declaration.check (c : Checker) (d : Declaration) : Declaration × Checker :=
  let value := d.value.check c.scope
  let c := c.count value.reports
  match Declaration.cause? d.property value.type with
  | none => ({ d with value := value.expr }, c)
  | some cause => ({ d with value := value.expr, info := d.info.report cause }, c.count 1)

/-- What is wrong with a guard of the given type. -/
def Stmt.guardCause? : Option ValueType → Option Cause
  | none | some .bool => none
  | some found => some (.invalidConditionType found)

mutual

/-- Checks a statement. -/
def Stmt.check (c : Checker) : Stmt → Stmt × Checker
  | .declaration d => let (d, c) := d.check c; (.declaration d, c)
  | .assignment a => let (a, c) := a.check c; (.assignment a, c)
  | .conditional guard body otherwise info =>
    let (body, c) := c.inFrame (Body.check · body)
    let guard := guard.check c.scope
    let c := c.count guard.reports
    match Stmt.guardCause? guard.type with
    | none =>
      let (otherwise, c) := otherwise.check c
      (.conditional guard.expr body otherwise info, c)
    | some cause =>
      let (otherwise, c) := otherwise.check (c.count 1)
      (.conditional guard.expr body otherwise (info.report cause), c)

/-- Checks the statements of a body in turn, in the frame that is open. -/
def Body.check (c : Checker) : List Stmt → List Stmt × Checker
  | [] => ([], c)
  | s :: rest =>
    let (s, c) := s.check c
    let (rest, c) := Body.check c rest
    (s :: rest, c)

/-- Checks an else branch in a frame of its own. -/
def ElseBranch.check (c : Checker) : ElseBranch → ElseBranch × Checker
  | .absent => (.absent, c)
  | .present body info =>
    let (body, c) := c.inFrame (Body.check · body)
    (.present body info, c)

end

/-! ### Sheets -/

/-- Checks a rule in a frame of its own. -/
def Rule.check (c : Checker) (r : Rule) : Rule × Checker :=
  let (body, c) := c.inFrame (Body.check · r.body)
  ({ r with body := body }, c)

/-- Checks an item. -/
def Item.check (c : Checker) : Item → Item × Checker
  | .assignment a => let (a, c) := a.check c; (.assignment a, c)
  | .rule r => let (r, c) := r.check c; (.rule r, c)

/-- Checks items in turn. -/
def Item.checkAll (c : Checker) : List Item → List Item × Checker
  | [] => ([], c)
  | i :: rest =>
    let (i, c) := i.check c
    let (rest, c) := checkAll c rest
    (i :: rest, c)

/-- Checks a sheet, and gives the checker at its end. -/
def Sheet.check (s : Sheet) : Sheet × Checker :=
  let (items, c) := Item.checkAll .start s.items
  ({ s with items := items }, c)

end TypedCss

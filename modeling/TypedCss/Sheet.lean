import TypedCss.Expr

/-!
# Style sheets

A sheet is a list of items: assignments of variables, and rules. A rule has selectors and a body,
and a body holds declarations, assignments and conditionals, which have bodies in turn.

`Sheet.errors` collects the diagnostics of a whole tree in the order of the text: a node's own
before those of its parts, and of a conditional first the guard, then the body, then the else
branch. `Sheet.hasErrors` says whether there are any.
-/

namespace TypedCss

/-! ### Trees -/

/-- A property and the expression that it is given. -/
structure Declaration where
  /-- The name of the property. -/
  property : String
  /-- The expression. -/
  value : Expr
  /-- Span and diagnostics. -/
  info : Info
deriving Inhabited

/-- A variable and the expression that it is given. -/
structure Assignment where
  /-- The name of the variable. -/
  name : String
  /-- The expression. -/
  value : Expr
  /-- Span and diagnostics. -/
  info : Info
deriving Inhabited

mutual

/-- A member of a body. -/
inductive Stmt where
  /-- A property is given a value. -/
  | declaration (d : Declaration)
  /-- A variable is given a value. -/
  | assignment (a : Assignment)
  /-- A body that counts only if the guard is true, and one that counts otherwise. -/
  | conditional (guard : Expr) (body : List Stmt) (otherwise : ElseBranch) (info : Info)

/-- The else branch of a conditional, if it has one. -/
inductive ElseBranch where
  /-- There is none. -/
  | absent
  /-- There is one, with a span of its own. -/
  | present (body : List Stmt) (info : Info)

end

/-- What a rule applies to. -/
inductive Selector where
  /-- All elements of a tag. -/
  | tag (name : String)
  /-- All elements of a class. -/
  | class (name : String)
  /-- The element with an id. -/
  | id (name : String)
deriving DecidableEq, Inhabited

/-- A rule: what it applies to, and its body. -/
structure Rule where
  /-- What the rule applies to. -/
  selectors : List Selector
  /-- What it says. -/
  body : List Stmt
  /-- Span and diagnostics. -/
  info : Info
deriving Inhabited

/-- A member of a sheet. -/
inductive Item where
  /-- A variable is given a value. -/
  | assignment (a : Assignment)
  /-- A rule. -/
  | rule (r : Rule)
deriving Inhabited

/-- A style sheet. -/
structure Sheet where
  /-- The members, in the order of the text. -/
  items : List Item
  /-- Span and diagnostics. -/
  info : Info
deriving Inhabited

/-! ### Views -/

namespace Selector

/-- A selector as it is written. -/
def text : Selector → String
  | tag name => name
  | .class name => "." ++ name
  | id name => "#" ++ name

end Selector

namespace Stmt

/-- The declaration that a statement is, if it is one. -/
def declaration? : Stmt → Option Declaration
  | declaration d => some d
  | _ => none

end Stmt

namespace Rule

/-- The declarations that stand in a rule's body itself, outside conditionals. -/
def declarations (r : Rule) : List Declaration := r.body.filterMap Stmt.declaration?

end Rule

namespace Item

/-- The rule that an item is, if it is one. -/
def rule? : Item → Option Rule
  | rule r => some r
  | assignment _ => none

end Item

namespace Sheet

/-- The rules of a sheet. -/
def rules (s : Sheet) : List Rule := s.items.filterMap Item.rule?

end Sheet

/-! ### Whether anything was reported -/

/-- Whether anything was reported on a declaration. -/
def Declaration.hasErrors (d : Declaration) : Bool := !d.info.isClean || d.value.hasErrors

/-- Whether anything was reported on an assignment. -/
def Assignment.hasErrors (a : Assignment) : Bool := !a.info.isClean || a.value.hasErrors

mutual

/-- Whether anything was reported on a statement. -/
def Stmt.hasErrors : Stmt → Bool
  | .declaration d => d.hasErrors
  | .assignment a => a.hasErrors
  | .conditional guard body otherwise info =>
    !info.isClean || guard.hasErrors || Body.hasErrors body || otherwise.hasErrors

/-- Whether anything was reported in a body. -/
def Body.hasErrors : List Stmt → Bool
  | [] => false
  | s :: rest => s.hasErrors || Body.hasErrors rest

/-- Whether anything was reported in an else branch. -/
def ElseBranch.hasErrors : ElseBranch → Bool
  | .absent => false
  | .present body info => !info.isClean || Body.hasErrors body

end

/-- Whether anything was reported on a rule. -/
def Rule.hasErrors (r : Rule) : Bool := !r.info.isClean || Body.hasErrors r.body

/-- Whether anything was reported on an item. -/
def Item.hasErrors : Item → Bool
  | .assignment a => a.hasErrors
  | .rule r => r.hasErrors

/-- Whether anything was reported anywhere in a sheet. -/
def Sheet.hasErrors (s : Sheet) : Bool := !s.info.isClean || s.items.any Item.hasErrors

/-! ### All that was reported -/

/-- All that was reported on a declaration. -/
def Declaration.errors (d : Declaration) : List Error := d.info.diagnostics ++ d.value.errors

/-- All that was reported on an assignment. -/
def Assignment.errors (a : Assignment) : List Error := a.info.diagnostics ++ a.value.errors

mutual

/-- All that was reported on a statement. -/
def Stmt.errors : Stmt → List Error
  | .declaration d => d.errors
  | .assignment a => a.errors
  | .conditional guard body otherwise info =>
    info.diagnostics ++ guard.errors ++ Body.errors body ++ otherwise.errors

/-- All that was reported in a body. -/
def Body.errors : List Stmt → List Error
  | [] => []
  | s :: rest => s.errors ++ Body.errors rest

/-- All that was reported in an else branch. -/
def ElseBranch.errors : ElseBranch → List Error
  | .absent => []
  | .present body info => info.diagnostics ++ Body.errors body

end

/-- All that was reported on a rule. -/
def Rule.errors (r : Rule) : List Error := r.info.diagnostics ++ Body.errors r.body

/-- All that was reported on an item. -/
def Item.errors : Item → List Error
  | .assignment a => a.errors
  | .rule r => r.errors

/-- All that was reported in a sheet, in the order of the text. -/
def Sheet.errors (s : Sheet) : List Error := s.info.diagnostics ++ s.items.flatMap Item.errors

/-! ### Equality -/

/-- Equality of declarations. -/
def Declaration.beq (a b : Declaration) : Bool :=
  a.property == b.property && a.value == b.value && a.info == b.info

/-- Equality of assignments. -/
def Assignment.beq (a b : Assignment) : Bool :=
  a.name == b.name && a.value == b.value && a.info == b.info

mutual

/-- Equality of statements. -/
def Stmt.beq : Stmt → Stmt → Bool
  | .declaration a, .declaration b => a.beq b
  | .assignment a, .assignment b => a.beq b
  | .conditional g as e i, .conditional h bs f j =>
    g == h && Body.beq as bs && ElseBranch.beq e f && i == j
  | _, _ => false

/-- Equality of bodies. -/
def Body.beq : List Stmt → List Stmt → Bool
  | [], [] => true
  | a :: as, b :: bs => Stmt.beq a b && Body.beq as bs
  | _, _ => false

/-- Equality of else branches. -/
def ElseBranch.beq : ElseBranch → ElseBranch → Bool
  | .absent, .absent => true
  | .present as i, .present bs j => Body.beq as bs && i == j
  | _, _ => false

end

/-- Equality of rules. -/
def Rule.beq (a b : Rule) : Bool :=
  a.selectors == b.selectors && Body.beq a.body b.body && a.info == b.info

/-- Equality of items. -/
def Item.beq : Item → Item → Bool
  | .assignment a, .assignment b => a.beq b
  | .rule a, .rule b => a.beq b
  | _, _ => false

instance : BEq Item := ⟨Item.beq⟩

/-- Equality of sheets, of all their nodes' spans and diagnostics. Numbers are compared as
floats. -/
def Sheet.beq (a b : Sheet) : Bool := a.items == b.items && a.info == b.info

instance : BEq Sheet := ⟨Sheet.beq⟩

end TypedCss

import TypedCss.Proofs.Environment
import TypedCss.Proofs.Tree
import TypedCss.Proofs.Typing.Annotation

/-!
# The typing rules

The rules are about one node at a time, in the environment where the node stands. `Expr.HasType`
gives types to expressions, and `Node.Violates` says which rule a node breaks and what is then to be
reported on it; nothing is said of what was reported elsewhere.

`Sheet.nodes` lists the nodes of a sheet in the order of `Sheet.infos`, each with its environment.
That of a sheet starts out empty, an assignment sets its variable for what comes after it, and a
rule or a branch is given the environment as it stands, so that its assignments end with it. The
guard of a conditional therefore sees nothing of the branches. A variable whose value has no type is
set as well, to no type: it is not unknown.
-/

namespace TypedCss

/-- What is known of each variable: its type, or that it has none. -/
abbrev TypeEnv := Env (Option ValueType)

/-! ### Types -/

/-- The types of expressions. Sums and differences are of one type throughout, and a product scales
one of its sides. -/
inductive Expr.HasType (env : TypeEnv) : Expr → ValueType → Prop where
  /-- A value has its own type. -/
  | literal (v : Literal) (info : Info) : HasType env (.literal v info) v.type
  /-- A variable has the type that is known of it. -/
  | reference {name : String} {type : ValueType} (info : Info) (h : env name = some (some type)) :
    HasType env (.reference name info) type
  /-- A sum or a difference. -/
  | sum {op : Operator} {left right : Expr} {type : ValueType} (info : Info) (hop : op ≠ .multiply)
    (hl : HasType env left type) (hr : HasType env right type) :
    HasType env (.operation op [left, right] info) type
  /-- A product with a scalar on the left. -/
  | scaling {left right : Expr} {type : ValueType} (info : Info) (hl : HasType env left .scalar)
    (hr : HasType env right type) : HasType env (.operation .multiply [left, right] info) type
  /-- A product with a scalar on the right. -/
  | scaled {left right : Expr} {type : ValueType} (info : Info) (hl : HasType env left type)
    (hr : HasType env right .scalar) : HasType env (.operation .multiply [left, right] info) type

/-- The type that an expression has, if it has one. -/
def Expr.typeIn (env : TypeEnv) : Expr → Option ValueType
  | literal v _ => some v.type
  | reference name _ => (env name).join
  | operation op [left, right] _ => op.typeOf? (left.typeIn env) (right.typeIn env)
  | operation _ _ _ => none

namespace Operator

theorem resultType?_of_ne {op : Operator} (h : op ≠ .multiply) (s t : ValueType) :
    op.resultType? s t = if s = t then some s else none := by
  cases op with
  | multiply => exact absurd rfl h
  | add | subtract => rfl

/-- The types of operands that fit together. -/
theorem resultType?_eq_some_iff {op : Operator} {s t type : ValueType} :
    op.resultType? s t = some type ↔
      (op ≠ .multiply ∧ s = type ∧ t = type) ∨
        (op = .multiply ∧ ((s = .scalar ∧ t = type) ∨ (s = type ∧ t = .scalar))) := by
  by_cases hop : op = .multiply
  · subst hop
    simp only [resultType?, ne_eq, not_true_eq_false, false_and, true_and, false_or]
    split
    · rename_i hs
      subst hs
      simp only [Option.some.injEq, true_and]
      constructor
      · exact .inl
      · rintro (h | ⟨rfl, h⟩) <;> exact h
    · rename_i hs
      simp only [hs, false_and, false_or]
      split <;> simp [*]
  · rw [resultType?_of_ne hop]
    simp only [ne_eq, hop, not_false_eq_true, true_and, false_and, or_false]
    split
    · rename_i hs
      subst hs
      simp
    · rename_i hs
      simp only [reduceCtorEq, false_iff, not_and]
      rintro rfl rfl
      exact hs rfl

theorem typeOf?_eq_some_iff {op : Operator} {s t : Option ValueType} {type : ValueType} :
    op.typeOf? s t = some type ↔
      ∃ a b, s = some a ∧ t = some b ∧ op.resultType? a b = some type := by
  cases s <;> cases t <;> simp [typeOf?]

end Operator

theorem Expr.typeIn_unpaired (env : TypeEnv) {op : Operator} {operands : List Expr} {info : Info}
    (h : operands.length ≠ 2) : (operation op operands info).typeIn env = none := by
  rw [typeIn]
  rintro left right rfl
  exact h rfl

/-- An expression has the type that is found for it, and no other. -/
theorem Expr.typeIn_eq_some_iff {env : TypeEnv} {e : Expr} {type : ValueType} :
    e.typeIn env = some type ↔ e.HasType env type := by
  constructor
  · intro h
    induction e using Expr.pairInduction generalizing type with
    | literal v info =>
      cases h
      exact .literal v info
    | reference name info => exact .reference info (Option.join_eq_some_iff.1 h)
    | pair op left right info ihl ihr =>
      rw [typeIn] at h
      obtain ⟨s, t, hs, ht, hop⟩ := Operator.typeOf?_eq_some_iff.1 h
      rcases Operator.resultType?_eq_some_iff.1 hop with ⟨hne, rfl, rfl⟩ | ⟨rfl, hside⟩
      · exact .sum info hne (ihl hs) (ihr ht)
      · rcases hside with ⟨rfl, rfl⟩ | ⟨rfl, rfl⟩
        · exact .scaling info (ihl hs) (ihr ht)
        · exact .scaled info (ihl hs) (ihr ht)
    | unpaired op operands info hn =>
      rw [typeIn_unpaired env hn] at h
      cases h
  · intro h
    induction h with
    | literal v info => rfl
    | reference info h => rw [typeIn, h, Option.join_some]
    | sum info hop _ _ ihl ihr =>
      exact Operator.typeOf?_eq_some_iff.2
        ⟨_, _, ihl, ihr, Operator.resultType?_eq_some_iff.2 (.inl ⟨hop, rfl, rfl⟩)⟩
    | scaling info _ _ ihl ihr =>
      exact Operator.typeOf?_eq_some_iff.2
        ⟨_, _, ihl, ihr, Operator.resultType?_eq_some_iff.2 (.inr ⟨rfl, .inl ⟨rfl, rfl⟩⟩)⟩
    | scaled info _ _ ihl ihr =>
      exact Operator.typeOf?_eq_some_iff.2
        ⟨_, _, ihl, ihr, Operator.resultType?_eq_some_iff.2 (.inr ⟨rfl, .inr ⟨rfl, rfl⟩⟩)⟩

/-! ### Nodes and where they stand -/

/-- A node of a tree, with as much of it as the rules look at. -/
inductive Node where
  /-- An expression. -/
  | expr (e : Expr)
  /-- A declaration. -/
  | declaration (d : Declaration)
  /-- A conditional, by its guard. -/
  | conditional (guard : Expr) (info : Info)
  /-- A node that no rule is about: an assignment, an else branch, a rule or a sheet, or a part of
  an operation that has another number of operands than two. -/
  | other (info : Info)

/-- What a node carries. -/
def Node.info : Node → Info
  | expr e => e.info
  | declaration d => d.info
  | conditional _ i | other i => i

/-- A node, and the environment where it stands. -/
structure Occurrence where
  /-- The node. -/
  node : Node
  /-- What is known there. -/
  env : TypeEnv

/-- The nodes of an expression. -/
def Expr.nodes (env : TypeEnv) : Expr → List Occurrence
  | literal v info => [⟨.expr (literal v info), env⟩]
  | reference name info => [⟨.expr (reference name info), env⟩]
  | operation op [left, right] info =>
    ⟨.expr (operation op [left, right] info), env⟩ :: (left.nodes env ++ right.nodes env)
  | operation op operands info =>
    ⟨.expr (operation op operands info), env⟩ ::
      (Expr.listInfos operands).map fun i ↦ ⟨.other i, env⟩

/-- The environment after a statement. -/
def Stmt.extend (env : TypeEnv) : Stmt → TypeEnv
  | .assignment a => env.set a.name (a.value.typeIn env)
  | .declaration _ | .conditional .. => env

/-- The nodes of an assignment. -/
def Assignment.nodes (env : TypeEnv) (a : Assignment) : List Occurrence :=
  ⟨.other a.info, env⟩ :: a.value.nodes env

mutual

/-- The nodes of a statement. -/
def Stmt.nodes (env : TypeEnv) : Stmt → List Occurrence
  | .declaration d => ⟨.declaration d, env⟩ :: d.value.nodes env
  | .assignment a => a.nodes env
  | .conditional guard body otherwise info =>
    ⟨.conditional guard info, env⟩ ::
      (guard.nodes env ++ Body.nodes env body ++ otherwise.nodes env)

/-- The nodes of a body. -/
def Body.nodes (env : TypeEnv) : List Stmt → List Occurrence
  | [] => []
  | s :: rest => s.nodes env ++ Body.nodes (s.extend env) rest

/-- The nodes of an else branch. -/
def ElseBranch.nodes (env : TypeEnv) : ElseBranch → List Occurrence
  | .absent => []
  | .present body info => ⟨.other info, env⟩ :: Body.nodes env body

end

/-- The nodes of items. -/
def Item.nodesOfAll (env : TypeEnv) : List Item → List Occurrence
  | [] => []
  | .assignment a :: rest =>
    a.nodes env ++ nodesOfAll (env.set a.name (a.value.typeIn env)) rest
  | .rule r :: rest => ⟨.other r.info, env⟩ :: (Body.nodes env r.body ++ nodesOfAll env rest)

/-- The nodes of a sheet. -/
def Sheet.nodes (s : Sheet) : List Occurrence :=
  ⟨.other s.info, .empty⟩ :: Item.nodesOfAll .empty s.items

/-! ### Violations -/

/-- `n.Violates env cause` says that a node breaks a rule in an environment. Operands, values and
guards without a type break no rule here: theirs is broken where the type was lost. -/
inductive Node.Violates (env : TypeEnv) : Node → Cause → Prop where
  /-- A variable is not known. -/
  | undefinedVariable {name : String} {info : Info} (h : env name = none) :
    Violates env (.expr (.reference name info)) (.undefinedVariable name)
  /-- An operation does not have two operands. -/
  | operandArity {op : Operator} {operands : List Expr} {info : Info}
    (h : operands.length ≠ 2) :
    Violates env (.expr (.operation op operands info)) (.operandArity op.symbol operands.length)
  /-- A sum or a difference is of two types. -/
  | operandTypeMismatch {op : Operator} {left right : Expr} {info : Info} {s t : ValueType}
    (hop : op ≠ .multiply) (hl : left.HasType env s) (hr : right.HasType env t) (h : s ≠ t) :
    Violates env (.expr (.operation op [left, right] info)) (.operandTypeMismatch s t)
  /-- A product has no scalar side. -/
  | invalidScalarOperand {left right : Expr} {info : Info} {s t : ValueType}
    (hl : left.HasType env s) (hr : right.HasType env t) (hs : s ≠ .scalar) (ht : t ≠ .scalar) :
    Violates env (.expr (.operation .multiply [left, right] info)) (.invalidScalarOperand s t)
  /-- There is no such property. -/
  | unknownProperty {d : Declaration} (h : PropertyKind.ofName? d.property = none) :
    Violates env (.declaration d) (.unknownProperty d.property)
  /-- A property does not accept the type of its value. -/
  | propertyTypeViolation {d : Declaration} {kind : PropertyKind} {type : ValueType}
    (hk : PropertyKind.ofName? d.property = some kind) (hv : d.value.HasType env type)
    (h : kind.accepts type = false) :
    Violates env (.declaration d) (.propertyTypeViolation d.property kind.violation)
  /-- A guard is of a type other than that of truth values. -/
  | invalidConditionType {guard : Expr} {info : Info} {type : ValueType}
    (hg : guard.HasType env type) (h : type ≠ .bool) :
    Violates env (.conditional guard info) (.invalidConditionType type)

end TypedCss

import TypedCss.Evaluation
import TypedCss.Proofs.Scope
import TypedCss.Proofs.Tree

/-!
# Where evaluation stops

Evaluation goes through a tree in a fixed order, and an operation without a value stops it. A
`Clash` is such an operation with the values of its two operands. `StopsAt` says of an expression,
of a body and of a sheet that evaluation comes to a certain clash first: everything before it has a
value, and the scope is the one that the assignments before it have made.

The relation is sound for the evaluator: a tree that stops at a clash evaluates to the error of that
clash (`Sheet.evaluate_of_stopsAt`).
-/

namespace TypedCss

/-! ### Frames -/

theorem Body.evaluate_cons_ok {scope scope' : Scope Literal} {s : Stmt} {first : List Stmt}
    (rest : List Stmt) (h : s.evaluate scope = (.ok first, scope')) :
    Body.evaluate scope (s :: rest) =
      ((Body.evaluate scope' rest).1.map (first ++ ·), (Body.evaluate scope' rest).2) := by
  rw [Body.evaluate, h]

theorem Body.evaluate_cons_error {scope scope' : Scope Literal} {s : Stmt} {e : Error}
    (rest : List Stmt) (h : s.evaluate scope = (.error e, scope')) :
    Body.evaluate scope (s :: rest) = (.error e, scope') := by
  rw [Body.evaluate, h]

/-- What follows a statement does not matter to the outer frames, if it keeps to the innermost one
itself. -/
theorem Body.outer_evaluate_cons {scope : Scope Literal} {s : Stmt} {rest : List Stmt}
    (hs : (s.evaluate scope).2.outer = scope.outer)
    (hr : ∀ scope, (Body.evaluate scope rest).2.outer = scope.outer) :
    (Body.evaluate scope (s :: rest)).2.outer = scope.outer := by
  obtain ⟨result, scope', h⟩ : ∃ r t, s.evaluate scope = (r, t) := ⟨_, _, rfl⟩
  rw [h] at hs
  cases result with
  | error e => rw [evaluate_cons_error rest h, hs]
  | ok first => rw [evaluate_cons_ok rest h, hr, hs]

/-- The branch that a guard selects is a body in a frame of its own. -/
theorem ElseBranch.evaluate_eq (scope : Scope Literal) (e : ElseBranch) :
    e.evaluate scope = scope.inFrame (Body.evaluate · e.body) := by
  cases e <;> rfl

theorem Stmt.evaluate_conditional {scope : Scope Literal} {guard : Expr} {info : Info} {b : Bool}
    (body : List Stmt) (otherwise : ElseBranch)
    (h : guardValue scope guard info = .ok b) :
    (Stmt.conditional guard body otherwise info).evaluate scope =
      scope.inFrame (Body.evaluate · (bif b then body else otherwise.body)) := by
  rw [Stmt.evaluate, h]
  cases b with
  | true => rfl
  | false => exact otherwise.evaluate_eq scope

/-- Evaluating a body changes the innermost frame only, also when it fails. -/
theorem Body.outer_evaluate (body : List Stmt) :
    ∀ scope : Scope Literal, (Body.evaluate scope body).2.outer = scope.outer := by
  induction body using Body.induction with
  | nil => exact fun _ ↦ rfl
  | declaration d rest ih => exact fun scope ↦ outer_evaluate_cons rfl ih
  | assignment a rest ih =>
    intro scope
    refine outer_evaluate_cons ?_ ih
    rw [Stmt.evaluate, Assignment.evaluate]
    cases a.value.fold scope with
    | error e => rfl
    | ok v => exact Scope.outer_bind scope a.name v
  | conditional guard body otherwise info rest ihBody ihElse ihRest =>
    intro scope
    refine outer_evaluate_cons ?_ ihRest
    cases hg : Stmt.guardValue scope guard info with
    | error e => rw [Stmt.evaluate, hg]
    | ok b =>
      rw [Stmt.evaluate_conditional body otherwise hg]
      cases b with
      | true => exact congrArg Scope.outer (Scope.snd_inFrame (ihBody scope.push))
      | false => exact congrArg Scope.outer (Scope.snd_inFrame (ihElse scope.push))

/-- A body in a frame of its own leaves the scope as it was. -/
@[simp] theorem Body.snd_inFrame_evaluate (scope : Scope Literal) (body : List Stmt) :
    (scope.inFrame (Body.evaluate · body)).2 = scope :=
  Scope.snd_inFrame (Body.outer_evaluate body scope.push)

/-! ### Clashes -/

/-- An operation, and the values of its two operands. -/
structure Clash where
  /-- The operator. -/
  operator : Operator
  /-- The value of the left operand. -/
  left : Literal
  /-- The value of the right operand. -/
  right : Literal
  /-- What the node of the operation carries. -/
  info : Info

/-- The error that the values of a clash have no arithmetic. -/
def Clash.error (c : Clash) : Error :=
  ⟨.unfoldableOperation c.operator.symbol c.left.text c.right.text, c.info.start⟩

/-- Folding an expression comes to a clash: both operands have values, the operation has none. -/
inductive Expr.StopsAt (scope : Scope Literal) (c : Clash) : Expr → Prop where
  /-- The expression is the operation. -/
  | here {left right : Expr} : left.fold scope = .ok c.left → right.fold scope = .ok c.right →
      c.operator.fold? c.left c.right = none →
      StopsAt scope c (.operation c.operator [left, right] c.info)
  /-- The clash is in the left operand. -/
  | left {op : Operator} {left right : Expr} {info : Info} : StopsAt scope c left →
      StopsAt scope c (.operation op [left, right] info)
  /-- The left operand has a value, and the clash is in the right one. -/
  | right {op : Operator} {left right : Expr} {info : Info} {v : Literal} :
      left.fold scope = .ok v → StopsAt scope c right →
      StopsAt scope c (.operation op [left, right] info)

/-- Evaluating a body comes to a clash. -/
inductive Body.StopsAt (c : Clash) : Scope Literal → List Stmt → Prop where
  /-- In the value of the first declaration. -/
  | declaration {scope : Scope Literal} {d : Declaration} {rest : List Stmt} :
      d.value.StopsAt scope c → StopsAt c scope (.declaration d :: rest)
  /-- In the value of the first assignment. -/
  | assignment {scope : Scope Literal} {a : Assignment} {rest : List Stmt} :
      a.value.StopsAt scope c → StopsAt c scope (.assignment a :: rest)
  /-- In the guard of the first conditional. -/
  | guard {scope : Scope Literal} {guard : Expr} {body : List Stmt} {otherwise : ElseBranch}
      {info : Info} {rest : List Stmt} : guard.StopsAt scope c →
      StopsAt c scope (.conditional guard body otherwise info :: rest)
  /-- In the branch that the guard selects. -/
  | branch {scope : Scope Literal} {guard : Expr} {body : List Stmt} {otherwise : ElseBranch}
      {info : Info} {rest : List Stmt} {b : Bool} : Stmt.guardValue scope guard info = .ok b →
      StopsAt c scope.push (bif b then body else otherwise.body) →
      StopsAt c scope (.conditional guard body otherwise info :: rest)
  /-- After the first statement. -/
  | later {scope scope' : Scope Literal} {s : Stmt} {first rest : List Stmt} :
      s.evaluate scope = (.ok first, scope') → StopsAt c scope' rest → StopsAt c scope (s :: rest)

/-- Evaluating items comes to a clash. -/
inductive Item.StopsAt (c : Clash) : Scope Literal → List Item → Prop where
  /-- In the value of the first assignment. -/
  | assignment {scope : Scope Literal} {a : Assignment} {rest : List Item} :
      a.value.StopsAt scope c → StopsAt c scope (.assignment a :: rest)
  /-- In the body of the first rule. -/
  | rule {scope : Scope Literal} {r : Rule} {rest : List Item} :
      Body.StopsAt c scope.push r.body → StopsAt c scope (.rule r :: rest)
  /-- After the first assignment. -/
  | afterAssignment {scope scope' : Scope Literal} {a : Assignment} {rest : List Item} :
      a.evaluate scope = .ok scope' → StopsAt c scope' rest →
      StopsAt c scope (.assignment a :: rest)
  /-- After the first rule. -/
  | afterRule {scope scope' : Scope Literal} {r r' : Rule} {rest : List Item} :
      r.evaluate scope = (.ok r', scope') → StopsAt c scope' rest →
      StopsAt c scope (.rule r :: rest)

/-- Evaluating a sheet comes to a clash. -/
def Sheet.StopsAt (c : Clash) (s : Sheet) : Prop := Item.StopsAt c .empty s.items

/-! ### A clash is the error of the evaluation -/

theorem Expr.fold_of_stopsAt {scope : Scope Literal} {c : Clash} {e : Expr}
    (h : e.StopsAt scope c) : e.fold scope = .error c.error := by
  induction h with
  | here hl hr hn =>
    rw [fold, hl, hr]
    dsimp only
    rw [Operator.fold, hn]
    rfl
  | left _ ih => rw [fold, ih]
  | right hl _ ih => rw [fold, hl, ih]

theorem Body.evaluate_of_stopsAt {scope : Scope Literal} {c : Clash} {body : List Stmt}
    (h : Body.StopsAt c scope body) : (Body.evaluate scope body).1 = .error c.error := by
  induction h with
  | @declaration scope d rest hd =>
    have hs : (Stmt.declaration d).evaluate scope = (.error c.error, scope) := by
      rw [Stmt.evaluate, Declaration.evaluate, Expr.evaluate, Expr.fold_of_stopsAt hd]
      rfl
    rw [evaluate_cons_error rest hs]
  | @assignment scope a rest ha =>
    have hs : (Stmt.assignment a).evaluate scope = (.error c.error, scope) := by
      rw [Stmt.evaluate, Assignment.evaluate, Expr.fold_of_stopsAt ha]
      rfl
    rw [evaluate_cons_error rest hs]
  | @guard scope guard body otherwise info rest hg =>
    have hs : (Stmt.conditional guard body otherwise info).evaluate scope =
        (.error c.error, scope) := by
      rw [Stmt.evaluate, Stmt.guardValue, Expr.fold_of_stopsAt hg]
    rw [evaluate_cons_error rest hs]
  | @branch scope guard body otherwise info rest b hg _ ih =>
    -- The frame of the branch is closed before the error is passed on.
    have hs : (Stmt.conditional guard body otherwise info).evaluate scope =
        (.error c.error, scope) := by
      rw [Stmt.evaluate_conditional body otherwise hg]
      exact Prod.ext ih (Body.snd_inFrame_evaluate scope _)
    rw [evaluate_cons_error rest hs]
  | later hs _ ih =>
    rw [evaluate_cons_ok _ hs, ih]
    rfl

theorem Item.evaluateAll_of_stopsAt {scope : Scope Literal} {c : Clash} {items : List Item}
    (h : Item.StopsAt c scope items) : Item.evaluateAll scope items = .error c.error := by
  induction h with
  | @assignment scope a rest ha =>
    rw [evaluateAll, Assignment.evaluate, Expr.fold_of_stopsAt ha]
    rfl
  | @rule scope r rest hb =>
    have hr : r.evaluate scope = (.error c.error, scope) := by
      refine Prod.ext ?_ (Body.snd_inFrame_evaluate scope r.body)
      show (Body.evaluate scope.push r.body).1.map _ = _
      rw [Body.evaluate_of_stopsAt hb]
      rfl
    rw [evaluateAll, hr]
  | afterAssignment ha _ ih =>
    rw [evaluateAll, ha]
    exact ih
  | @afterRule scope scope' r r' rest hr _ ih =>
    rw [evaluateAll, hr]
    show (evaluateAll scope' rest).map _ = _
    rw [ih]
    rfl

/-- A sheet that stops at a clash evaluates to the error of the clash. -/
theorem Sheet.evaluate_of_stopsAt {c : Clash} {s : Sheet} (h : s.StopsAt c) :
    s.evaluate = .error c.error := by
  rw [evaluate, Item.evaluateAll_of_stopsAt h]
  rfl

/-! ### A clash is at a node -/

theorem Expr.info_mem_of_stopsAt {scope : Scope Literal} {c : Clash} {e : Expr}
    (h : e.StopsAt scope c) : c.info ∈ e.infos := by
  induction h with
  | here _ _ _ => exact List.mem_cons_self ..
  | left _ ih =>
    rw [infos, listInfos]
    exact List.mem_cons_of_mem _ (List.mem_append_left _ ih)
  | right _ _ ih =>
    rw [infos, listInfos, listInfos]
    exact List.mem_cons_of_mem _ (List.mem_append_right _ (List.mem_append_left _ ih))

theorem Body.info_mem_of_stopsAt {scope : Scope Literal} {c : Clash} {body : List Stmt}
    (h : Body.StopsAt c scope body) : c.info ∈ Body.infos body := by
  induction h with
  | declaration hd =>
    exact List.mem_append_left _ (List.mem_cons_of_mem _ (Expr.info_mem_of_stopsAt hd))
  | assignment ha =>
    exact List.mem_append_left _ (List.mem_cons_of_mem _ (Expr.info_mem_of_stopsAt ha))
  | guard hg =>
    refine List.mem_append_left _ (List.mem_cons_of_mem _ ?_)
    exact List.mem_append_left _ (List.mem_append_left _ (Expr.info_mem_of_stopsAt hg))
  | @branch scope guard body otherwise info rest b hg _ ih =>
    refine List.mem_append_left _ (List.mem_cons_of_mem _ ?_)
    cases b with
    | true => exact List.mem_append_left _ (List.mem_append_right _ ih)
    | false =>
      refine List.mem_append_right _ ?_
      cases otherwise with
      | absent => cases ih
      | present branch i => exact List.mem_cons_of_mem _ ih
  | later _ _ ih => exact List.mem_append_right _ ih

/-- The operation of a clash is a node of the items. -/
theorem Item.info_mem_of_stopsAt {scope : Scope Literal} {c : Clash} {items : List Item}
    (h : Item.StopsAt c scope items) : c.info ∈ items.flatMap Item.infos := by
  induction h with
  | assignment ha =>
    exact List.mem_append_left _ (List.mem_cons_of_mem _ (Expr.info_mem_of_stopsAt ha))
  | rule hb => exact List.mem_append_left _ (List.mem_cons_of_mem _ (Body.info_mem_of_stopsAt hb))
  | afterAssignment _ _ ih => exact List.mem_append_right _ ih
  | afterRule _ _ ih => exact List.mem_append_right _ ih

end TypedCss

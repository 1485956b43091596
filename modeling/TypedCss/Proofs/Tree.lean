import TypedCss.Sheet

/-!
# Trees, by induction and by their nodes

Two induction principles follow the trees as the passes do. `Expr.pairInduction` tells the operation
on two operands from all others, since no pass looks into an operation on another number of them.
`Body.induction` treats a whole body at once: a statement is met at the front of the body that it
stands in, and a conditional brings one hypothesis for each of its branches.

`infos` lists what the nodes of a tree carry, a node before its parts. All that is said of
diagnostics is said of this list: `errors` concatenates it (`Sheet.errors_eq_flatMap`) and
`hasErrors` asks whether any of it is not clean (`Sheet.hasErrors_eq_any`). `allDeclarations` lists
the declarations of a tree at any depth.
-/

namespace TypedCss

/-! ### Induction -/

/-- Induction on an expression, in which an operation on two operands stands for itself and all
other operations are one case. -/
@[elab_as_elim]
theorem Expr.pairInduction {motive : Expr → Prop}
    (literal : ∀ v info, motive (.literal v info))
    (reference : ∀ name info, motive (.reference name info))
    (pair : ∀ op left right info, motive left → motive right →
      motive (.operation op [left, right] info))
    (unpaired : ∀ op operands info, operands.length ≠ 2 → motive (.operation op operands info)) :
    ∀ e, motive e
  | .literal v info => literal v info
  | .reference name info => reference name info
  | .operation op [] info => unpaired op [] info (by simp)
  | .operation op [e] info => unpaired op [e] info (by simp)
  | .operation op [left, right] info =>
    pair op left right info (pairInduction literal reference pair unpaired left)
      (pairInduction literal reference pair unpaired right)
  | .operation op (e :: f :: g :: es) info => unpaired op (e :: f :: g :: es) info (by simp)

/-- The statements of an else branch; an absent one has none. -/
def ElseBranch.body : ElseBranch → List Stmt
  | .absent => []
  | .present body _ => body

/-- Induction on a body, by its first statement. The branches of a conditional are bodies
themselves. -/
@[elab_as_elim]
theorem Body.induction {motive : List Stmt → Prop} (nil : motive [])
    (declaration : ∀ d rest, motive rest → motive (.declaration d :: rest))
    (assignment : ∀ a rest, motive rest → motive (.assignment a :: rest))
    (conditional : ∀ guard body otherwise info rest, motive body → motive otherwise.body →
      motive rest → motive (.conditional guard body otherwise info :: rest)) (body : List Stmt) :
    motive body :=
  @Stmt.rec_1 (fun s ↦ ∀ rest, motive rest → motive (s :: rest)) (fun e ↦ motive e.body) motive
    declaration assignment
    (fun guard body otherwise info hb he rest hr ↦
      conditional guard body otherwise info rest hb he hr)
    nil (fun _ _ hb ↦ hb) nil (fun _ rest hs hr ↦ hs rest hr) body

/-! ### What the nodes carry -/

mutual

/-- What the nodes of an expression carry. -/
def Expr.infos : Expr → List Info
  | .literal _ i | .reference _ i => [i]
  | .operation _ es i => i :: Expr.listInfos es

/-- What the nodes of several expressions carry. -/
def Expr.listInfos : List Expr → List Info
  | [] => []
  | e :: es => e.infos ++ Expr.listInfos es

end

/-- What the nodes of a declaration carry. -/
def Declaration.infos (d : Declaration) : List Info := d.info :: d.value.infos

/-- What the nodes of an assignment carry. -/
def Assignment.infos (a : Assignment) : List Info := a.info :: a.value.infos

mutual

/-- What the nodes of a statement carry: of a conditional first the guard, then the body, then the
else branch. -/
def Stmt.infos : Stmt → List Info
  | .declaration d => d.infos
  | .assignment a => a.infos
  | .conditional guard body otherwise info =>
    info :: (guard.infos ++ Body.infos body ++ otherwise.infos)

/-- What the nodes of a body carry. -/
def Body.infos : List Stmt → List Info
  | [] => []
  | s :: rest => s.infos ++ Body.infos rest

/-- What the nodes of an else branch carry. -/
def ElseBranch.infos : ElseBranch → List Info
  | .absent => []
  | .present body info => info :: Body.infos body

end

/-- What the nodes of a rule carry. -/
def Rule.infos (r : Rule) : List Info := r.info :: Body.infos r.body

/-- What the nodes of an item carry. -/
def Item.infos : Item → List Info
  | .assignment a => a.infos
  | .rule r => r.infos

/-- What the nodes of a sheet carry. -/
def Sheet.infos (s : Sheet) : List Info := s.info :: s.items.flatMap Item.infos

theorem Expr.info_mem_infos (e : Expr) : e.info ∈ e.infos := by
  cases e <;> simp [Expr.info, Expr.infos]

/-! ### Declarations at any depth -/

mutual

/-- The declarations in a statement, those of both branches of a conditional among them. -/
def Stmt.allDeclarations : Stmt → List Declaration
  | .declaration d => [d]
  | .assignment _ => []
  | .conditional _ body otherwise _ => Body.allDeclarations body ++ otherwise.allDeclarations

/-- The declarations in a body. -/
def Body.allDeclarations : List Stmt → List Declaration
  | [] => []
  | s :: rest => s.allDeclarations ++ Body.allDeclarations rest

/-- The declarations in an else branch. -/
def ElseBranch.allDeclarations : ElseBranch → List Declaration
  | .absent => []
  | .present body _ => Body.allDeclarations body

end

theorem Body.allDeclarations_append (xs ys : List Stmt) :
    Body.allDeclarations (xs ++ ys) = Body.allDeclarations xs ++ Body.allDeclarations ys := by
  induction xs with
  | nil => rfl
  | cons s xs ih => rw [List.cons_append, allDeclarations, allDeclarations, ih, List.append_assoc]

/-- The declarations in an item. -/
def Item.allDeclarations : Item → List Declaration
  | .assignment _ => []
  | .rule r => Body.allDeclarations r.body

/-- The declarations in a sheet. -/
def Sheet.allDeclarations (s : Sheet) : List Declaration := s.items.flatMap Item.allDeclarations

/-! ### Diagnostics are found at the nodes -/

mutual

/-- The diagnostics of an expression are those of its nodes, in order. -/
theorem Expr.errors_eq_flatMap : ∀ e : Expr, e.errors = e.infos.flatMap Info.diagnostics
  | .literal _ _ => by simp [Expr.errors, Expr.infos]
  | .reference _ _ => by simp [Expr.errors, Expr.infos]
  | .operation _ es _ => by
    rw [Expr.errors, Expr.infos, List.flatMap_cons, Expr.listErrors_eq_flatMap es]

/-- The diagnostics of several expressions are those of their nodes, in order. -/
theorem Expr.listErrors_eq_flatMap :
    ∀ es : List Expr, Expr.listErrors es = (Expr.listInfos es).flatMap Info.diagnostics
  | [] => rfl
  | e :: es => by
    rw [Expr.listErrors, Expr.listInfos, List.flatMap_append, Expr.errors_eq_flatMap e,
      Expr.listErrors_eq_flatMap es]

end

mutual

/-- An expression has errors if one of its nodes has. -/
theorem Expr.hasErrors_eq_any : ∀ e : Expr, e.hasErrors = e.infos.any (!·.isClean)
  | .literal _ _ => by simp [Expr.hasErrors, Expr.infos]
  | .reference _ _ => by simp [Expr.hasErrors, Expr.infos]
  | .operation _ es _ => by
    rw [Expr.hasErrors, Expr.infos, List.any_cons, Expr.anyHasErrors_eq_any es]

/-- Several expressions have errors if one of their nodes has. -/
theorem Expr.anyHasErrors_eq_any :
    ∀ es : List Expr, Expr.anyHasErrors es = (Expr.listInfos es).any (!·.isClean)
  | [] => rfl
  | e :: es => by
    rw [Expr.anyHasErrors, Expr.listInfos, List.any_append, Expr.hasErrors_eq_any e,
      Expr.anyHasErrors_eq_any es]

end

theorem Declaration.errors_eq_flatMap (d : Declaration) :
    d.errors = d.infos.flatMap Info.diagnostics := by
  rw [Declaration.errors, Declaration.infos, List.flatMap_cons, Expr.errors_eq_flatMap]

theorem Assignment.errors_eq_flatMap (a : Assignment) :
    a.errors = a.infos.flatMap Info.diagnostics := by
  rw [Assignment.errors, Assignment.infos, List.flatMap_cons, Expr.errors_eq_flatMap]

theorem Declaration.hasErrors_eq_any (d : Declaration) :
    d.hasErrors = d.infos.any (!·.isClean) := by
  rw [Declaration.hasErrors, Declaration.infos, List.any_cons, Expr.hasErrors_eq_any]

theorem Assignment.hasErrors_eq_any (a : Assignment) :
    a.hasErrors = a.infos.any (!·.isClean) := by
  rw [Assignment.hasErrors, Assignment.infos, List.any_cons, Expr.hasErrors_eq_any]

/-- The diagnostics of a body are those of its nodes, in order. -/
theorem Body.errors_eq_flatMap (body : List Stmt) :
    Body.errors body = (Body.infos body).flatMap Info.diagnostics := by
  induction body using Body.induction with
  | nil => rfl
  | declaration d rest ih =>
    rw [Body.errors, Body.infos, List.flatMap_append, Stmt.errors, Stmt.infos,
      Declaration.errors_eq_flatMap, ih]
  | assignment a rest ih =>
    rw [Body.errors, Body.infos, List.flatMap_append, Stmt.errors, Stmt.infos,
      Assignment.errors_eq_flatMap, ih]
  | conditional guard body otherwise info rest ihBody ihElse ihRest =>
    have he : otherwise.errors = otherwise.infos.flatMap Info.diagnostics := by
      cases otherwise with
      | absent => rfl
      | present b i =>
        rw [ElseBranch.errors, ElseBranch.infos, List.flatMap_cons]
        exact congrArg _ ihElse
    rw [Body.errors, Body.infos, Stmt.errors, Stmt.infos, ihBody, ihRest, he,
      Expr.errors_eq_flatMap]
    simp only [List.flatMap_append, List.flatMap_cons, List.append_assoc, List.cons_append]

/-- A body has errors if one of its nodes has. -/
theorem Body.hasErrors_eq_any (body : List Stmt) :
    Body.hasErrors body = (Body.infos body).any (!·.isClean) := by
  induction body using Body.induction with
  | nil => rfl
  | declaration d rest ih =>
    rw [Body.hasErrors, Body.infos, List.any_append, Stmt.hasErrors, Stmt.infos,
      Declaration.hasErrors_eq_any, ih]
  | assignment a rest ih =>
    rw [Body.hasErrors, Body.infos, List.any_append, Stmt.hasErrors, Stmt.infos,
      Assignment.hasErrors_eq_any, ih]
  | conditional guard body otherwise info rest ihBody ihElse ihRest =>
    have he : otherwise.hasErrors = otherwise.infos.any (!·.isClean) := by
      cases otherwise with
      | absent => rfl
      | present b i =>
        rw [ElseBranch.hasErrors, ElseBranch.infos, List.any_cons]
        exact congrArg _ ihElse
    rw [Body.hasErrors, Body.infos, Stmt.hasErrors, Stmt.infos, ihBody, ihRest, he,
      Expr.hasErrors_eq_any]
    simp only [List.any_append, List.any_cons, Bool.or_assoc, List.cons_append]

theorem Item.errors_eq_flatMap (i : Item) : i.errors = i.infos.flatMap Info.diagnostics := by
  cases i with
  | assignment a => exact a.errors_eq_flatMap
  | rule r => rw [Item.errors, Item.infos, Rule.errors, Rule.infos, List.flatMap_cons,
      Body.errors_eq_flatMap]

theorem Item.hasErrors_eq_any (i : Item) : i.hasErrors = i.infos.any (!·.isClean) := by
  cases i with
  | assignment a => exact a.hasErrors_eq_any
  | rule r => rw [Item.hasErrors, Item.infos, Rule.hasErrors, Rule.infos, List.any_cons,
      Body.hasErrors_eq_any]

/-- The diagnostics of a sheet are those of its nodes, in order. -/
theorem Sheet.errors_eq_flatMap (s : Sheet) : s.errors = s.infos.flatMap Info.diagnostics := by
  rw [Sheet.errors, Sheet.infos, List.flatMap_cons, List.flatMap_assoc]
  exact congrArg _ (congrArg (List.flatMap · s.items) (funext Item.errors_eq_flatMap))

/-- A sheet has errors if one of its nodes has. -/
theorem Sheet.hasErrors_eq_any (s : Sheet) : s.hasErrors = s.infos.any (!·.isClean) := by
  rw [Sheet.hasErrors, Sheet.infos, List.any_cons, List.any_flatMap]
  exact congrArg _ (congrArg (List.any s.items) (funext Item.hasErrors_eq_any))

/-- A sheet has no errors if there is nothing to report. -/
theorem Sheet.hasErrors_eq_false_iff (s : Sheet) : s.hasErrors = false ↔ s.errors = [] := by
  rw [hasErrors_eq_any, errors_eq_flatMap, List.any_eq_false, List.flatMap_eq_nil_iff]
  refine forall₂_congr fun i _ ↦ ?_
  rw [Info.isClean, Bool.not_eq_true', Bool.not_eq_false, List.isEmpty_iff]

/-- A sheet that has errors has something to report. -/
theorem Sheet.errors_ne_nil {s : Sheet} (h : s.hasErrors = true) : s.errors ≠ [] := by
  intro hn
  rw [(hasErrors_eq_false_iff s).2 hn] at h
  cases h

end TypedCss

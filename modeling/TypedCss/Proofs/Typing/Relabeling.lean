import TypedCss.Proofs.Relabeling
import TypedCss.Proofs.Typing.Annotation

/-!
# Checking moved trees

The checker looks at no position, and it places what it reports at the start of a node. So a moved
tree is checked as the tree is, with the same reports at the moved places (`Sheet.check_relabel`),
and these are collected in the same order (`Sheet.errors_relabel`).
-/

namespace TypedCss

/-! ### Notes on moved nodes -/

namespace Info

variable (r : Relocation) (i : Info)

theorem report_move (cause : Cause) : (i.move r).report cause = (i.report cause).move r := by
  rw [move, move, diagnostics_report, List.map_append]
  rfl

/-- A note is made where the node is moved to. -/
theorem note_move (cause? : Option Cause) : (i.move r).note cause? = (i.note cause?).move r := by
  cases cause? with
  | none => rfl
  | some cause => exact i.report_move r cause

@[simp] theorem isClean_move : (i.move r).isClean = i.isClean :=
  List.isEmpty_map

end Info

/-! ### Checking -/

section

variable (r : Relocation)

/-- The type of an expression and the number of its reports do not depend on where it is. -/
theorem Expr.check_relabel (scope : Scope (Option ValueType)) (e : Expr) :
    (e.relabel (Info.move r)).check scope =
      { e.check scope with expr := (e.check scope).expr.relabel (Info.move r) } := by
  induction e using Expr.pairInduction with
  | literal v info => rfl
  | reference name info =>
    rw [relabel, check_reference, check_reference, Info.note_move]
    rfl
  | pair op left right info ihl ihr =>
    rw [relabel, listRelabel, listRelabel, listRelabel, check_pair, check_pair, ihl, ihr,
      Info.note_move]
    rfl
  | unpaired op operands info hn =>
    have hn' : (listRelabel (Info.move r) operands).length ≠ 2 := by rwa [length_listRelabel]
    rw [relabel, check_unpaired scope hn', check_unpaired scope hn, length_listRelabel,
      Info.report_move]
    rfl

/-- A moved declaration is checked as it was, and what is noted moves with it. -/
theorem Declaration.check_relabel (c : Checker) (d : Declaration) :
    (d.relabel (Info.move r)).check c = ((d.check c).1.relabel (Info.move r), (d.check c).2) := by
  rw [check_eq, check_eq, relabel, Expr.check_relabel, Info.note_move]
  rfl

theorem Assignment.check_relabel (c : Checker) (a : Assignment) :
    (a.relabel (Info.move r)).check c = ((a.check c).1.relabel (Info.move r), (a.check c).2) := by
  rw [check, relabel, Expr.check_relabel]
  rfl

/-- An else branch is checked as its body is. -/
theorem ElseBranch.check_relabel_of_body {e : ElseBranch} {c : Checker}
    (h : ∀ c, Body.check c (Body.relabel (Info.move r) e.body) =
      (Body.relabel (Info.move r) (Body.check c e.body).1, (Body.check c e.body).2)) :
    (e.relabel (Info.move r)).check c = ((e.check c).1.relabel (Info.move r), (e.check c).2) := by
  cases e with
  | absent => rfl
  | present body info =>
    have hbody : Body.check c.enter (Body.relabel (Info.move r) body) =
        (Body.relabel (Info.move r) (Body.check c.enter body).1, (Body.check c.enter body).2) :=
      h c.enter
    rw [relabel, check, check, Checker.inFrame, Checker.inFrame, hbody]
    rfl

/-- A moved body is checked as the body is. -/
theorem Body.check_relabel (body : List Stmt) : ∀ c : Checker,
    Body.check c (Body.relabel (Info.move r) body) =
      (Body.relabel (Info.move r) (Body.check c body).1, (Body.check c body).2) := by
  induction body using Body.induction with
  | nil => exact fun _ ↦ rfl
  | declaration d rest ih =>
    intro c
    rw [relabel, Stmt.relabel, check_cons, check_cons, Stmt.check, Stmt.check,
      Declaration.check_relabel, ih]
    rfl
  | assignment a rest ih =>
    intro c
    rw [relabel, Stmt.relabel, check_cons, check_cons, Stmt.check, Stmt.check,
      Assignment.check_relabel, ih]
    rfl
  | conditional guard body otherwise info rest ihBody ihElse ihRest =>
    intro c
    have hframe : c.inFrame (Body.check · (Body.relabel (Info.move r) body)) =
        (Body.relabel (Info.move r) (c.inFrame (Body.check · body)).1,
          (c.inFrame (Body.check · body)).2) := by
      rw [Checker.inFrame, Checker.inFrame, ihBody]
    rw [relabel, Stmt.relabel, check_cons, check_cons, Stmt.check_conditional,
      Stmt.check_conditional, hframe]
    simp only [Expr.check_relabel, ElseBranch.check_relabel_of_body r ihElse, Info.note_move,
      ihRest]
    rfl

theorem Rule.check_relabel (c : Checker) (x : Rule) :
    (x.relabel (Info.move r)).check c = ((x.check c).1.relabel (Info.move r), (x.check c).2) := by
  rw [check, check, Checker.inFrame, Checker.inFrame, relabel, Body.check_relabel]
  rfl

theorem Item.check_relabel (c : Checker) (i : Item) :
    (i.relabel (Info.move r)).check c = ((i.check c).1.relabel (Info.move r), (i.check c).2) := by
  cases i with
  | assignment a =>
    rw [relabel, check, check, Assignment.check_relabel]
    rfl
  | rule x =>
    rw [relabel, check, check, Rule.check_relabel]
    rfl

/-- Moved items are checked as they were, and what is noted moves with them. -/
theorem Item.checkAll_relabel (items : List Item) : ∀ c : Checker,
    Item.checkAll c (items.map (Item.relabel (Info.move r))) =
      ((Item.checkAll c items).1.map (Item.relabel (Info.move r)), (Item.checkAll c items).2) := by
  induction items with
  | nil => exact fun _ ↦ rfl
  | cons i rest ih =>
    intro c
    rw [List.map_cons, checkAll_cons, checkAll_cons, check_relabel, ih]
    rfl

/-- A moved sheet is checked as the sheet is. -/
theorem Sheet.check_relabel (s : Sheet) :
    (s.relabel (Info.move r)).check = (s.check.1.relabel (Info.move r), s.check.2) := by
  rw [check, check, relabel, Item.checkAll_relabel]
  rfl

end

/-! ### Reports -/

/-- The reports on a moved sheet are moved. -/
theorem Sheet.errors_relabel (r : Relocation) (s : Sheet) :
    (s.relabel (Info.move r)).errors = s.errors.map (Error.move r.start) := by
  rw [errors_eq_flatMap, errors_eq_flatMap, infos_relabel, List.flatMap_map, List.map_flatMap]
  rfl

/-- Moving a sheet adds no reports and takes none away. -/
theorem Sheet.hasErrors_relabel (r : Relocation) (s : Sheet) :
    (s.relabel (Info.move r)).hasErrors = s.hasErrors := by
  rw [hasErrors_eq_any, hasErrors_eq_any, infos_relabel, List.any_map]
  simp only [Function.comp_def, Info.isClean_move]

end TypedCss

import TypedCss.Proofs.Relabeling
import TypedCss.Proofs.Scope
import TypedCss.Typing

/-!
# What checking changes

Checking adds at most one diagnostic to each node and touches nothing else. `Info.note` says this of
one node, and the equations below say of each form of tree which cause is noted, if any. From them:

* the scope is the same after a body as before it, apart from the innermost frame
  (`Body.outer_check`);
* the tree is the same as before for whoever does not see the notes (`Sheet.relabel_check`);
* a tree that has no errors afterwards was not changed at all (`Sheet.check_eq_self`).
-/

namespace TypedCss

/-! ### Notes -/

namespace Info

/-- Adds a diagnostic if there is a cause for one. -/
def note (info : Info) : Option Cause → Info
  | none => info
  | some cause => info.report cause

@[simp] theorem note_none (info : Info) : info.note none = info := rfl

/-- A node with a report is not clean. -/
theorem isClean_report (info : Info) (cause : Cause) : (info.report cause).isClean = false := by
  simp [isClean]

/-- A node that is clean afterwards was given no note. -/
theorem eq_none_of_isClean_note {info : Info} {cause? : Option Cause}
    (h : (info.note cause?).isClean = true) : cause? = none := by
  cases cause? with
  | none => rfl
  | some cause => simp [note, isClean_report] at h

/-- `IsNote P old new` says that `new` is `old` with at most one note, whose cause satisfies `P`. -/
def IsNote (P : Cause → Prop) (old new : Info) : Prop :=
  ∃ cause? : Option Cause, new = old.note cause? ∧ ∀ cause ∈ cause?, P cause

/-- A node as it was has no note. -/
theorem IsNote.refl (P : Cause → Prop) (info : Info) : IsNote P info info :=
  ⟨none, rfl, by simp⟩

theorem IsNote.of_note {P : Cause → Prop} {cause? : Option Cause} (info : Info)
    (h : ∀ cause ∈ cause?, P cause) : IsNote P info (info.note cause?) :=
  ⟨cause?, rfl, h⟩

/-- What is found at a node afterwards was there before, or is the note. -/
theorem IsNote.mem_diagnostics {P : Cause → Prop} {old new : Info} (h : IsNote P old new)
    {e : Error} (he : e ∈ new.diagnostics) :
    e ∈ old.diagnostics ∨ P e.cause ∧ e.position = old.start := by
  obtain ⟨cause?, rfl, hp⟩ := h
  cases cause? with
  | none => exact .inl he
  | some cause =>
    rcases List.mem_append.1 he with he | he
    · exact .inl he
    · obtain rfl := List.mem_singleton.1 he
      exact .inr ⟨hp cause rfl, rfl⟩

end Info

/-! ### The equations of the checker -/

namespace Operator

/-- The type of an operation, if those of its operands are known and fit together. -/
def typeOf? (op : Operator) : Option ValueType → Option ValueType → Option ValueType
  | some s, some t => op.resultType? s t
  | _, _ => none

/-- What is wrong with an operation on operands of the given types. -/
def cause? (op : Operator) : Option ValueType → Option ValueType → Option Cause
  | some s, some t => if op.resultType? s t = none then some (op.typeError s t) else none
  | _, _ => none

/-- An operation on operands of known types has a type unless something is wrong with it. -/
theorem exists_typeOf?_of_cause?_eq_none {op : Operator} {s t : ValueType}
    (h : op.cause? (some s) (some t) = none) :
    ∃ type, op.typeOf? (some s) (some t) = some type := by
  simp only [cause?, ite_eq_right_iff, reduceCtorEq, imp_false] at h
  exact Option.ne_none_iff_exists'.1 h

end Operator

namespace Expr

variable (scope : Scope (Option ValueType))

/-- What is wrong with a variable that has the given binding, if any. -/
def referenceCause? (name : String) : Option (Option ValueType) → Option Cause
  | some _ => none
  | none => some (.undefinedVariable name)

/-- A variable has the type it is bound to; one that is not bound is noted. -/
theorem check_reference (name : String) (info : Info) :
    (reference name info).check scope =
      ⟨reference name (info.note (referenceCause? name (scope.lookup name))),
        (scope.lookup name).join, (referenceCause? name (scope.lookup name)).toList.length⟩ := by
  rw [check]
  cases scope.lookup name <;> rfl

/-- Both operands are checked first. An operation is noted only if both have types. -/
theorem check_pair (op : Operator) (left right : Expr) (info : Info) :
    (operation op [left, right] info).check scope =
      ⟨operation op [(left.check scope).expr, (right.check scope).expr]
          (info.note (op.cause? (left.check scope).type (right.check scope).type)),
        op.typeOf? (left.check scope).type (right.check scope).type,
        (left.check scope).reports + (right.check scope).reports +
          (op.cause? (left.check scope).type (right.check scope).type).toList.length⟩ := by
  rw [check]
  cases (left.check scope).type with
  | none => rfl
  | some s =>
    cases (right.check scope).type with
    | none => rfl
    | some t =>
      simp only [Operator.typeOf?, Operator.cause?]
      cases op.resultType? s t <;> rfl

/-- Operands that are not two are not looked at. -/
theorem check_unpaired {op : Operator} {operands : List Expr} {info : Info}
    (h : operands.length ≠ 2) :
    (operation op operands info).check scope =
      ⟨operation op operands (info.report (.operandArity op.symbol operands.length)), none, 1⟩ := by
  rw [check]
  rintro left right rfl
  exact h rfl

end Expr

namespace Checker

theorem count_count (c : Checker) (a b : Nat) : (c.count a).count b = c.count (a + b) :=
  congrArg (Checker.mk c.scope) (Nat.add_assoc ..)

@[simp] theorem scope_count (c : Checker) (n : Nat) : (c.count n).scope = c.scope := rfl

/-- A pass that keeps to the innermost frame leaves no trace outside a frame of its own. -/
theorem scope_inFrame {β : Type} {c : Checker} {f : Checker → β × Checker}
    (h : (f c.enter).2.scope.outer = c.scope.frames) : (c.inFrame f).2.scope = c.scope :=
  Scope.pop_eq_of_outer_eq h

end Checker

/-- A declaration is noted for its property, or for the type of its value. -/
theorem Declaration.check_eq (c : Checker) (d : Declaration) :
    d.check c =
      ({ d with
          value := (d.value.check c.scope).expr
          info := d.info.note (cause? d.property (d.value.check c.scope).type) },
        c.count ((d.value.check c.scope).reports +
          (cause? d.property (d.value.check c.scope).type).toList.length)) := by
  rw [check, ← Checker.count_count]
  cases cause? d.property (d.value.check c.scope).type <;> rfl

/-- Nothing is wrong with a value of some type only if the property is known and accepts it. -/
theorem Declaration.exists_kind_of_cause?_eq_none {property : String} {type : ValueType}
    (h : cause? property (some type) = none) :
    ∃ kind, PropertyKind.ofName? property = some kind ∧ kind.accepts type = true := by
  unfold cause? at h
  split at h
  · cases h
  · cases ‹some type = none›
  · rename_i kind t hk ht
    obtain rfl := Option.some.inj ht
    exact ⟨kind, hk, by simpa using h⟩

/-- A declaration binds nothing. -/
@[simp] theorem Declaration.scope_check (c : Checker) (d : Declaration) :
    (d.check c).2.scope = c.scope := by
  rw [check_eq, Checker.scope_count]

/-- An assignment binds its variable to the type of its value, even if that is not known. -/
@[simp] theorem Assignment.scope_check (c : Checker) (a : Assignment) :
    (a.check c).2.scope = c.scope.bind a.name (a.value.check c.scope).type := rfl

/-- The body is checked in a frame of its own, then the guard and the else branch outside it. -/
theorem Stmt.check_conditional (c : Checker) (guard : Expr) (body : List Stmt)
    (otherwise : ElseBranch) (info : Info) :
    (Stmt.conditional guard body otherwise info).check c =
      let inner := c.inFrame (Body.check · body)
      let value := guard.check inner.2.scope
      let last := otherwise.check
        (inner.2.count (value.reports + (guardCause? value.type).toList.length))
      (.conditional value.expr inner.1 last.1 (info.note (guardCause? value.type)), last.2) := by
  rw [Stmt.check]
  simp only [← Checker.count_count]
  cases guardCause? (guard.check (c.inFrame (Body.check · body)).2.scope).type <;> rfl

/-! ### Scopes -/

/-- An else branch leaves the scope as it was, if its body keeps to the innermost frame. -/
theorem ElseBranch.scope_check_of_outer {e : ElseBranch} {c : Checker}
    (h : ∀ c, (Body.check c e.body).2.scope.outer = c.scope.outer) :
    (e.check c).2.scope = c.scope := by
  cases e with
  | absent => rfl
  | present body info => exact Checker.scope_inFrame (f := (Body.check · body)) (h c.enter)

/-- A statement is checked in the state that those before it leave. -/
theorem Body.check_cons (c : Checker) (s : Stmt) (rest : List Stmt) :
    Body.check c (s :: rest) =
      ((s.check c).1 :: (Body.check (s.check c).2 rest).1, (Body.check (s.check c).2 rest).2) :=
  rfl

/-- Checking a body changes the innermost frame only. -/
theorem Body.outer_check (body : List Stmt) :
    ∀ c : Checker, (Body.check c body).2.scope.outer = c.scope.outer := by
  induction body using Body.induction with
  | nil => exact fun _ ↦ rfl
  | declaration d rest ih =>
    intro c
    exact (ih (d.check c).2).trans (congrArg Scope.outer (d.scope_check c))
  | assignment a rest ih =>
    intro c
    exact (ih (a.check c).2).trans (Scope.outer_bind ..)
  | conditional guard body otherwise info rest ihBody ihElse ihRest =>
    intro c
    rw [Body.check_cons, ihRest, Stmt.check_conditional]
    -- Both branches have frames of their own, which are closed by now.
    exact congrArg Scope.outer ((ElseBranch.scope_check_of_outer ihElse).trans
      (Checker.scope_inFrame (f := (Body.check · body)) (ihBody c.enter)))

/-- A body in a frame of its own leaves the scope as it was. -/
@[simp] theorem Body.scope_inFrame_check (c : Checker) (body : List Stmt) :
    (c.inFrame (Body.check · body)).2.scope = c.scope :=
  Checker.scope_inFrame (f := (Body.check · body)) (Body.outer_check body c.enter)

/-- An else branch leaves the scope as it was. -/
@[simp] theorem ElseBranch.scope_check (c : Checker) (e : ElseBranch) :
    (e.check c).2.scope = c.scope :=
  ElseBranch.scope_check_of_outer (Body.outer_check e.body)

/-- So does a conditional. -/
@[simp] theorem Stmt.scope_check_conditional (c : Checker) (guard : Expr) (body : List Stmt)
    (otherwise : ElseBranch) (info : Info) :
    ((Stmt.conditional guard body otherwise info).check c).2.scope = c.scope := by
  rw [Stmt.check_conditional]
  simp

/-- The parts of a conditional are checked in the scope around it, each branch in a frame of its
own. -/
theorem Stmt.exists_fst_check_conditional (c : Checker) (guard : Expr) (body : List Stmt)
    (otherwise : ElseBranch) (info : Info) :
    ∃ last : Checker, last.scope = c.scope ∧
      ((Stmt.conditional guard body otherwise info).check c).1 =
        .conditional (guard.check c.scope).expr (Body.check c.enter body).1 (otherwise.check last).1
          (info.note (guardCause? (guard.check c.scope).type)) := by
  rw [Stmt.check_conditional]
  simp only [Body.scope_inFrame_check]
  refine ⟨(c.inFrame (Body.check · body)).2.count _, ?_, rfl⟩
  rw [Checker.scope_count, Body.scope_inFrame_check]

/-- So does a rule. -/
@[simp] theorem Rule.scope_check (c : Checker) (r : Rule) : (r.check c).2.scope = c.scope :=
  Body.scope_inFrame_check c r.body

theorem Item.checkAll_cons (c : Checker) (i : Item) (rest : List Item) :
    Item.checkAll c (i :: rest) =
      ((i.check c).1 :: (Item.checkAll (i.check c).2 rest).1,
        (Item.checkAll (i.check c).2 rest).2) :=
  rfl

/-- Items change the frame in which they are checked, and no other. -/
theorem Item.outer_checkAll (items : List Item) :
    ∀ c : Checker, (Item.checkAll c items).2.scope.outer = c.scope.outer := by
  induction items with
  | nil => exact fun _ ↦ rfl
  | cons i rest ih =>
    intro c
    refine (ih (i.check c).2).trans ?_
    cases i with
    | assignment a => exact Scope.outer_bind ..
    | rule r => exact congrArg Scope.outer (r.scope_check c)

/-! ### The tree without its notes -/

section

-- `f` does not see the notes: forgetting all that nodes carry, and keeping only their spans.
variable {f : Info → Info} (hf : ∀ info cause, f (info.report cause) = f info)
include hf

/-- A note is not seen. -/
theorem Info.relabel_note (info : Info) (cause? : Option Cause) :
    f (info.note cause?) = f info := by
  cases cause? with
  | none => rfl
  | some cause => exact hf info cause

/-- An expression that is checked is the same for whoever does not see the notes. -/
theorem Expr.relabel_check (scope : Scope (Option ValueType)) (e : Expr) :
    (e.check scope).expr.relabel f = e.relabel f := by
  induction e using Expr.pairInduction with
  | literal v info => rfl
  | reference name info =>
    rw [check_reference, relabel, Info.relabel_note hf, relabel]
  | pair op left right info ihl ihr =>
    rw [check_pair, relabel, relabel, Info.relabel_note hf]
    simp only [listRelabel, ihl, ihr]
  | unpaired op operands info hn =>
    rw [check_unpaired scope hn, relabel, hf, relabel]

theorem Declaration.relabel_check (c : Checker) (d : Declaration) :
    (d.check c).1.relabel f = d.relabel f := by
  rw [check_eq, relabel, relabel, Expr.relabel_check hf, Info.relabel_note hf]

theorem Assignment.relabel_check (c : Checker) (a : Assignment) :
    (a.check c).1.relabel f = a.relabel f := by
  rw [check, relabel, relabel, Expr.relabel_check hf]

/-- The scope in which a body is checked does not matter to whoever does not see the notes. -/
theorem Body.relabel_check (body : List Stmt) : ∀ c : Checker,
    Body.relabel f (Body.check c body).1 = Body.relabel f body := by
  induction body using Body.induction with
  | nil => exact fun _ ↦ rfl
  | declaration d rest ih =>
    intro c
    exact congrArg₂ (Stmt.declaration · :: ·) (d.relabel_check hf c) (ih _)
  | assignment a rest ih =>
    intro c
    exact congrArg₂ (Stmt.assignment · :: ·) (a.relabel_check hf c) (ih _)
  | conditional guard body otherwise info rest ihBody ihElse ihRest =>
    intro c
    obtain ⟨last, -, hcheck⟩ := Stmt.exists_fst_check_conditional c guard body otherwise info
    have helse : (otherwise.check last).1.relabel f = otherwise.relabel f := by
      cases otherwise with
      | absent => rfl
      | present branch i => exact congrArg (ElseBranch.present · (f i)) (ihElse last.enter)
    rw [check_cons, relabel, relabel, hcheck, Stmt.relabel, Stmt.relabel, Expr.relabel_check hf,
      ihBody, helse, Info.relabel_note hf, ihRest]

theorem Rule.relabel_check (c : Checker) (r : Rule) : (r.check c).1.relabel f = r.relabel f :=
  congrArg (Rule.mk r.selectors · (f r.info)) (Body.relabel_check hf r.body c.enter)

theorem Item.relabel_check (c : Checker) (i : Item) : (i.check c).1.relabel f = i.relabel f := by
  cases i with
  | assignment a => exact congrArg Item.assignment (a.relabel_check hf c)
  | rule r => exact congrArg Item.rule (r.relabel_check hf c)

/-- Nor does the scope in which items are checked. -/
theorem Item.relabel_checkAll (items : List Item) : ∀ c : Checker,
    (Item.checkAll c items).1.map (Item.relabel f) = items.map (Item.relabel f) := by
  induction items with
  | nil => exact fun _ ↦ rfl
  | cons i rest ih =>
    intro c
    rw [checkAll_cons, List.map_cons, List.map_cons, i.relabel_check hf, ih]

/-- Whoever does not see the notes sees the sheet as it was before it was checked. -/
theorem Sheet.relabel_check (s : Sheet) : s.check.1.relabel f = s.relabel f :=
  congrArg (Sheet.mk · (f s.info)) (Item.relabel_checkAll hf s.items .start)

end

/-! ### A clean tree was not changed -/

/-- An expression that has no errors after it was checked is the one before. -/
theorem Expr.check_eq_self {scope : Scope (Option ValueType)} {e : Expr}
    (h : (e.check scope).expr.hasErrors = false) : (e.check scope).expr = e := by
  induction e using Expr.pairInduction with
  | literal v info => rfl
  | reference name info =>
    rw [check_reference] at h ⊢
    simp only [hasErrors, Bool.not_eq_false'] at h
    rw [Info.eq_none_of_isClean_note h, Info.note_none]
  | pair op left right info ihl ihr =>
    rw [check_pair] at h ⊢
    simp only [hasErrors, anyHasErrors, Bool.or_eq_false_iff, Bool.not_eq_false', and_true] at h
    obtain ⟨hi, hl, hr⟩ := h
    rw [Info.eq_none_of_isClean_note hi, Info.note_none, ihl hl, ihr hr]
  | unpaired op operands info hn =>
    rw [check_unpaired scope hn] at h
    simp [hasErrors, Info.isClean_report] at h

/-- A declaration that has no errors after it was checked is the one before. -/
theorem Declaration.check_eq_self {c : Checker} {d : Declaration}
    (h : (d.check c).1.hasErrors = false) : (d.check c).1 = d := by
  rw [check_eq] at h ⊢
  simp only [hasErrors, Bool.or_eq_false_iff, Bool.not_eq_false'] at h
  rw [Info.eq_none_of_isClean_note h.1, Info.note_none, Expr.check_eq_self h.2]

theorem Assignment.check_eq_self {c : Checker} {a : Assignment}
    (h : (a.check c).1.hasErrors = false) : (a.check c).1 = a := by
  simp only [check, hasErrors, Bool.or_eq_false_iff] at h ⊢
  rw [Expr.check_eq_self h.2]

/-- An else branch that has no errors after it was checked is the one before, if its body is. -/
theorem ElseBranch.check_eq_self_of_body {c : Checker} {e : ElseBranch}
    (hb : ∀ c, Body.hasErrors (Body.check c e.body).1 = false → (Body.check c e.body).1 = e.body)
    (h : (e.check c).1.hasErrors = false) : (e.check c).1 = e := by
  cases e with
  | absent => rfl
  | present body info =>
    have he : ((present body info).check c).1 = present (Body.check c.enter body).1 info := rfl
    rw [he, hasErrors, Bool.or_eq_false_iff] at h
    rw [he]
    exact congrArg (present · info) (hb c.enter h.2)

/-- A body that has no errors after it was checked is the one before. -/
theorem Body.check_eq_self {body : List Stmt} :
    ∀ {c : Checker}, Body.hasErrors (Body.check c body).1 = false →
      (Body.check c body).1 = body := by
  induction body using Body.induction with
  | nil => exact fun _ ↦ rfl
  | declaration d rest ih =>
    intro c h
    rw [check_cons, hasErrors, Bool.or_eq_false_iff] at h
    rw [check_cons, ih h.2]
    exact congrArg (Stmt.declaration · :: rest) (Declaration.check_eq_self h.1)
  | assignment a rest ih =>
    intro c h
    rw [check_cons, hasErrors, Bool.or_eq_false_iff] at h
    rw [check_cons, ih h.2]
    exact congrArg (Stmt.assignment · :: rest) (Assignment.check_eq_self h.1)
  | conditional guard body otherwise info rest ihBody ihElse ihRest =>
    intro c h
    rw [check_cons, hasErrors, Bool.or_eq_false_iff] at h
    rw [check_cons, ihRest h.2]
    simp only [Stmt.check_conditional, Stmt.hasErrors, Bool.or_eq_false_iff,
      Bool.not_eq_false'] at h ⊢
    obtain ⟨⟨⟨⟨hi, hg⟩, hb⟩, he⟩, -⟩ := h
    rw [ElseBranch.check_eq_self_of_body (fun _ ↦ ihElse) he, Info.eq_none_of_isClean_note hi,
      Info.note_none, Expr.check_eq_self hg]
    exact congrArg (Stmt.conditional guard · otherwise info :: rest) (ihBody (c := c.enter) hb)

/-- A rule that has no errors after it was checked is the one before. -/
theorem Rule.check_eq_self {c : Checker} {r : Rule} (h : (r.check c).1.hasErrors = false) :
    (r.check c).1 = r := by
  have he : (r.check c).1 = { r with body := (Body.check c.enter r.body).1 } := rfl
  rw [he, hasErrors, Bool.or_eq_false_iff] at h
  rw [he, Body.check_eq_self h.2]

theorem Item.check_eq_self {c : Checker} {i : Item} (h : (i.check c).1.hasErrors = false) :
    (i.check c).1 = i := by
  cases i with
  | assignment a => exact congrArg Item.assignment (Assignment.check_eq_self h)
  | rule r => exact congrArg Item.rule (Rule.check_eq_self h)

/-- Items that have no errors after they were checked are those before. -/
theorem Item.checkAll_eq_self {items : List Item} :
    ∀ {c : Checker}, (Item.checkAll c items).1.any Item.hasErrors = false →
      (Item.checkAll c items).1 = items := by
  induction items with
  | nil => exact fun _ ↦ rfl
  | cons i rest ih =>
    intro c h
    rw [checkAll_cons, List.any_cons, Bool.or_eq_false_iff] at h
    rw [checkAll_cons, check_eq_self h.1, ih h.2]

/-- A sheet that has no errors after it was checked is the one before. -/
theorem Sheet.check_eq_self {s : Sheet} (h : s.check.1.hasErrors = false) : s.check.1 = s := by
  have he : s.check.1 = { s with items := (Item.checkAll .start s.items).1 } := rfl
  rw [he, hasErrors, Bool.or_eq_false_iff] at h
  rw [he, Item.checkAll_eq_self h.2]

end TypedCss

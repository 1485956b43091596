import Mathlib.Data.List.Forall2
import TypedCss.Proofs.Typing.Annotation

/-!
# Which notes checking makes

Each node carries after checking what it carried before, with at most one note, and the note is a
violation of the typing rules (`Sheet.infos_check`). It is not about the number of operands if all
operations of the tree have two, as those of a source do (`Expr.IsBinary`). So what is reported on a
checked tree was reported on the tree before, or is such a note (`Sheet.mem_errors_check`).
-/

namespace TypedCss

/-! ### Operations on two operands -/

/-- Whether each operation of an expression has exactly two operands. -/
def Expr.IsBinary : Expr → Prop
  | literal _ _ | reference _ _ => True
  | operation _ [left, right] _ => left.IsBinary ∧ right.IsBinary
  | operation _ _ _ => False

theorem Expr.length_eq_of_isBinary {op : Operator} {operands : List Expr} {info : Info}
    (h : (operation op operands info).IsBinary) : operands.length = 2 := by
  match operands with
  | [left, right] => rfl
  | [] | [_] | _ :: _ :: _ :: _ => exact h.elim

mutual

/-- The expressions of a statement: values and guards, each as a whole. -/
def Stmt.exprs : Stmt → List Expr
  | .declaration d => [d.value]
  | .assignment a => [a.value]
  | .conditional guard body otherwise _ => guard :: (Body.exprs body ++ otherwise.exprs)

/-- The expressions of a body. -/
def Body.exprs : List Stmt → List Expr
  | [] => []
  | s :: rest => s.exprs ++ Body.exprs rest

/-- The expressions of an else branch. -/
def ElseBranch.exprs : ElseBranch → List Expr
  | .absent => []
  | .present body _ => Body.exprs body

end

/-- The expressions of an item. -/
def Item.exprs : Item → List Expr
  | .assignment a => [a.value]
  | .rule r => Body.exprs r.body

/-- The expressions of a sheet. -/
def Sheet.exprs (s : Sheet) : List Expr := s.items.flatMap Item.exprs

/-! ### Notes on expressions -/

/-- A violation of the typing rules; where all operations are binary, one of another kind than that
an operation lacks operands. -/
structure Cause.IsNoted (binary : Prop) (cause : Cause) : Prop where
  /-- The cause is a violation of the typing rules. -/
  semantic : cause.isSemantic = true
  /-- The number of operands is not the cause. -/
  not_arity : binary → ∀ op n, cause ≠ .operandArity op n

/-- What is noted on an operation is an error of its types. -/
theorem Operator.isNoted_of_cause? {binary : Prop} {op : Operator} {s t : Option ValueType}
    {cause : Cause} (h : op.cause? s t = some cause) : cause.IsNoted binary := by
  unfold cause? at h
  split at h
  · split at h
    · cases h
      cases op <;> exact ⟨rfl, by rintro _ _ _ ⟨⟩⟩
    · cases h
  · cases h

theorem Expr.isNoted_of_referenceCause? {binary : Prop} {name : String}
    {binding : Option (Option ValueType)} {cause : Cause}
    (h : referenceCause? name binding = some cause) : cause.IsNoted binary := by
  cases binding with
  | none =>
    cases h
    exact ⟨rfl, by rintro _ _ _ ⟨⟩⟩
  | some type => cases h

/-- The nodes of an expression after checking. -/
theorem Expr.infos_check {binary : Prop} {e : Expr} (scope : Scope (Option ValueType))
    (h : binary → e.IsBinary) :
    List.Forall₂ (Info.IsNote (Cause.IsNoted binary)) e.infos (e.check scope).expr.infos := by
  induction e using Expr.pairInduction with
  | literal v info => exact .cons (.refl _ info) .nil
  | reference name info =>
    rw [check_reference]
    exact .cons (.of_note info fun _ ↦ isNoted_of_referenceCause?) .nil
  | pair op left right info ihl ihr =>
    rw [check_pair]
    simp only [infos, listInfos, List.append_nil]
    exact .cons (.of_note info fun _ ↦ Operator.isNoted_of_cause?)
      (List.rel_append (ihl fun hb ↦ (h hb).1) (ihr fun hb ↦ (h hb).2))
  | unpaired op operands info hn =>
    rw [check_unpaired scope hn]
    refine .cons ⟨some _, rfl, ?_⟩ (List.forall₂_same.2 fun i _ ↦ .refl _ i)
    rintro cause ⟨⟩
    exact ⟨rfl, fun hb ↦ absurd (length_eq_of_isBinary (h hb)) hn⟩

/-! ### Notes on statements -/

/-- What is noted on a declaration is an error of its property or of its type. -/
theorem Declaration.isNoted_of_cause? {binary : Prop} {property : String}
    {type : Option ValueType} {cause : Cause} (h : cause? property type = some cause) :
    cause.IsNoted binary := by
  unfold cause? at h
  split at h
  · cases h
    exact ⟨rfl, by rintro _ _ _ ⟨⟩⟩
  · cases h
  · split at h
    · cases h
    · cases h
      exact ⟨rfl, by rintro _ _ _ ⟨⟩⟩

theorem Stmt.isNoted_of_guardCause? {binary : Prop} {type : Option ValueType} {cause : Cause}
    (h : guardCause? type = some cause) : cause.IsNoted binary := by
  unfold guardCause? at h
  split at h
  · cases h
  · cases h
  · cases h
    exact ⟨rfl, by rintro _ _ _ ⟨⟩⟩

/-- At most the declaration itself and the nodes of its value are noted. -/
theorem Declaration.infos_check {binary : Prop} {d : Declaration} (c : Checker)
    (h : binary → d.value.IsBinary) :
    List.Forall₂ (Info.IsNote (Cause.IsNoted binary)) d.infos (d.check c).1.infos := by
  rw [check_eq]
  exact .cons (.of_note d.info fun _ ↦ isNoted_of_cause?) (Expr.infos_check c.scope h)

theorem Assignment.infos_check {binary : Prop} {a : Assignment} (c : Checker)
    (h : binary → a.value.IsBinary) :
    List.Forall₂ (Info.IsNote (Cause.IsNoted binary)) a.infos (a.check c).1.infos :=
  .cons (.refl _ a.info) (Expr.infos_check c.scope h)

/-- The nodes of a body after checking. -/
theorem Body.infos_check {binary : Prop} {body : List Stmt} :
    ∀ (c : Checker), (binary → ∀ e ∈ Body.exprs body, e.IsBinary) →
      List.Forall₂ (Info.IsNote (Cause.IsNoted binary)) (Body.infos body)
        (Body.infos (Body.check c body).1) := by
  induction body using Body.induction with
  | nil => exact fun _ _ ↦ .nil
  | declaration d rest ih =>
    intro c h
    simp only [exprs, Stmt.exprs, List.cons_append, List.nil_append, List.forall_mem_cons] at h
    exact List.rel_append (Declaration.infos_check c fun hb ↦ (h hb).1)
      (ih _ fun hb ↦ (h hb).2)
  | assignment a rest ih =>
    intro c h
    simp only [exprs, Stmt.exprs, List.cons_append, List.nil_append, List.forall_mem_cons] at h
    exact List.rel_append (Assignment.infos_check c fun hb ↦ (h hb).1)
      (ih _ fun hb ↦ (h hb).2)
  | conditional guard body otherwise info rest ihBody ihElse ihRest =>
    intro c h
    simp only [exprs, Stmt.exprs, List.cons_append, List.forall_mem_cons, List.forall_mem_append]
      at h
    rw [check_cons, Stmt.check_conditional]
    have hbody := ihBody c.enter fun hb ↦ (h hb).2.1.1
    -- The else branch is noted in the same way with whatever the checker knows by then.
    have helse : ∀ c : Checker, List.Forall₂ (Info.IsNote (Cause.IsNoted binary)) otherwise.infos
        (otherwise.check c).1.infos := by
      intro c
      cases otherwise with
      | absent => exact .nil
      | present branch i => exact .cons (.refl _ i) (ihElse c.enter fun hb ↦ (h hb).2.1.2)
    exact List.rel_append
      (.cons (.of_note info fun _ ↦ Stmt.isNoted_of_guardCause?)
        (List.rel_append (List.rel_append (Expr.infos_check _ fun hb ↦ (h hb).1) hbody) (helse _)))
      (ihRest _ fun hb ↦ (h hb).2.2)

/-! ### Notes on sheets -/

theorem Item.infos_check {binary : Prop} {i : Item} (c : Checker)
    (h : binary → ∀ e ∈ i.exprs, e.IsBinary) :
    List.Forall₂ (Info.IsNote (Cause.IsNoted binary)) i.infos (i.check c).1.infos := by
  cases i with
  | assignment a => exact Assignment.infos_check c fun hb ↦ h hb a.value (List.mem_singleton_self _)
  | rule r => exact .cons (.refl _ r.info) (Body.infos_check c.enter h)

/-- The nodes of items are noted in their places, at most once each. -/
theorem Item.infos_checkAll {binary : Prop} {items : List Item} :
    ∀ (c : Checker), (binary → ∀ i ∈ items, ∀ e ∈ i.exprs, e.IsBinary) →
      List.Forall₂ (Info.IsNote (Cause.IsNoted binary)) (items.flatMap infos)
        ((checkAll c items).1.flatMap infos) := by
  induction items with
  | nil => exact fun _ _ ↦ .nil
  | cons i rest ih =>
    intro c h
    simp only [List.forall_mem_cons] at h
    exact List.rel_append (infos_check c fun hb ↦ (h hb).1) (ih _ fun hb ↦ (h hb).2)

/-- The nodes of a sheet after checking: what each carried before, with at most one note. -/
theorem Sheet.infos_check {binary : Prop} {s : Sheet} (h : binary → ∀ e ∈ s.exprs, e.IsBinary) :
    List.Forall₂ (Info.IsNote (Cause.IsNoted binary)) s.infos s.check.1.infos := by
  refine .cons (.refl _ s.info) (Item.infos_checkAll .start fun hb i hi e he ↦ ?_)
  exact h hb e (List.mem_flatMap.2 ⟨i, hi, he⟩)

/-- What is reported on a checked tree was reported before, or is a note at one of its nodes. -/
theorem Sheet.mem_errors_check {binary : Prop} {s : Sheet}
    (h : binary → ∀ e ∈ s.exprs, e.IsBinary) {e : Error} (he : e ∈ s.check.1.errors) :
    e ∈ s.errors ∨ e.cause.IsNoted binary ∧ ∃ i ∈ s.infos, e.position = i.start := by
  rw [errors_eq_flatMap] at he ⊢
  obtain ⟨new, hn, he⟩ := List.mem_flatMap.1 he
  obtain ⟨hl, hget⟩ := List.forall₂_iff_get.1 (infos_check h)
  obtain ⟨⟨n, hlt⟩, rfl⟩ := List.get_of_mem hn
  have ho : s.infos.get ⟨n, hl ▸ hlt⟩ ∈ s.infos := List.get_mem ..
  rcases (hget n (hl ▸ hlt) hlt).mem_diagnostics he with he | ⟨hc, hp⟩
  · exact .inl (List.mem_flatMap.2 ⟨_, ho, he⟩)
  · exact .inr ⟨hc, _, ho, hp⟩

end TypedCss

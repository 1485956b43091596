import Mathlib.Data.List.Forall2
import TypedCss.Proofs.Typing.Rules

/-!
# Checking reports exactly the violations

The checker keeps its scope in frames, gives types while it reports, and looks at the body of a
conditional before the guard. `Sheet.check_reports` says that what it leaves at each node depends on
nothing but the rules: a node that breaks one carries one diagnostic more, with the cause that the
rule gives, and every other node carries what it did.

The scope of the checker is followed by the environment of its names. `Expr.type_check` says that
the types agree, and each node then needs one fact: the cause that the checker notes is a violation,
and every violation is noted.
-/

namespace TypedCss

/-! ### Reports at one node -/

/-- `o.IsReported new` says that a node carries `new` after exactly what the rules ask for was
reported on it. -/
structure Occurrence.IsReported (o : Occurrence) (new : Info) : Prop where
  /-- At most one diagnostic is new. It comes last, and it is placed at the start of the node. -/
  atMostOne : new = o.node.info ∨ ∃ cause, new = o.node.info.report cause
  /-- There is a new one exactly if a rule is broken, and it gives the cause. -/
  exact : ∀ cause, new = o.node.info.report cause ↔ o.node.Violates o.env cause

namespace Info

theorem report_ne (info : Info) (cause : Cause) : info.report cause ≠ info := by
  intro h
  have hd := congrArg (·.diagnostics.length) h
  simp at hd

theorem report_inj {info : Info} {c d : Cause} : info.report c = info.report d ↔ c = d := by
  constructor
  · intro h
    have hd := congrArg diagnostics h
    simp only [diagnostics_report, List.append_cancel_left_eq, List.cons.injEq,
      Error.mk.injEq, and_true] at hd
    exact hd
  · rintro rfl
    rfl

/-- A note is a report of its cause and of nothing else. -/
theorem note_eq_report_iff {info : Info} {cause? : Option Cause} {cause : Cause} :
    info.note cause? = info.report cause ↔ cause? = some cause := by
  cases cause? with
  | none => simpa using (report_ne info cause).symm
  | some c => simpa [note] using report_inj

end Info

namespace Occurrence.IsReported

variable {o : Occurrence}

/-- A note is what the rules ask for, if its cause is the violation, where there is one. -/
theorem of_note {cause? : Option Cause}
    (h : ∀ cause, cause? = some cause ↔ o.node.Violates o.env cause) :
    o.IsReported (o.node.info.note cause?) where
  atMostOne := by
    cases cause? with
    | none => exact .inl rfl
    | some cause => exact .inr ⟨cause, rfl⟩
  exact cause := Info.note_eq_report_iff.trans (h cause)

/-- A node that breaks no rule is left as it was. -/
theorem of_not_violates (h : ∀ cause, ¬ o.node.Violates o.env cause) :
    o.IsReported o.node.info :=
  @of_note o none fun cause ↦ iff_of_false nofun (h cause)

theorem other (info : Info) (env : TypeEnv) : IsReported ⟨.other info, env⟩ info :=
  of_not_violates fun _ h ↦ by cases h

end Occurrence.IsReported

/-! ### Causes are violations -/

section Violations

variable {env : TypeEnv} {cause : Cause}

theorem Expr.referenceCause?_eq_some_iff {name : String} {info : Info} :
    referenceCause? name (env name) = some cause ↔
      Node.Violates env (.expr (.reference name info)) cause := by
  constructor
  · intro h
    cases hn : env name with
    | none =>
      rw [hn] at h
      cases h
      exact .undefinedVariable hn
    | some type =>
      rw [hn] at h
      cases h
  · rintro ⟨h⟩
    rw [h]
    rfl

theorem Operator.typeError_of_ne {op : Operator} (h : op ≠ .multiply) (s t : ValueType) :
    op.typeError s t = .operandTypeMismatch s t := by
  cases op with
  | multiply => exact absurd rfl h
  | add | subtract => rfl

theorem Operator.cause?_eq_some_iff {op : Operator} {s t : Option ValueType} :
    op.cause? s t = some cause ↔ ∃ a b, s = some a ∧ t = some b ∧
      op.resultType? a b = none ∧ op.typeError a b = cause := by
  cases s <;> cases t <;> simp [cause?]

/-- Operands that do not fit together break the rule of their operator. -/
theorem Expr.pairCause?_eq_some_iff {op : Operator} {left right : Expr} {info : Info} :
    op.cause? (left.typeIn env) (right.typeIn env) = some cause ↔
      Node.Violates env (.expr (.operation op [left, right] info)) cause := by
  rw [Operator.cause?_eq_some_iff]
  constructor
  · rintro ⟨s, t, hs, ht, hn, rfl⟩
    rw [Expr.typeIn_eq_some_iff] at hs ht
    have hfit : ∀ type, op.resultType? s t ≠ some type := fun type h ↦ by rw [hn] at h; cases h
    by_cases hop : op = .multiply
    · subst hop
      refine .invalidScalarOperand hs ht ?_ ?_
      · rintro rfl
        exact hfit t (Operator.resultType?_eq_some_iff.2 (.inr ⟨rfl, .inl ⟨rfl, rfl⟩⟩))
      · rintro rfl
        exact hfit s (Operator.resultType?_eq_some_iff.2 (.inr ⟨rfl, .inr ⟨rfl, rfl⟩⟩))
    · rw [Operator.typeError_of_ne hop]
      refine .operandTypeMismatch hop hs ht ?_
      rintro rfl
      exact hfit s (Operator.resultType?_eq_some_iff.2 (.inl ⟨hop, rfl, rfl⟩))
  · intro h
    cases h with
    | operandArity h => exact absurd rfl h
    | @operandTypeMismatch _ _ _ _ s t hop hl hr h =>
      refine ⟨s, t, Expr.typeIn_eq_some_iff.2 hl, Expr.typeIn_eq_some_iff.2 hr, ?_,
        Operator.typeError_of_ne hop s t⟩
      rw [Operator.resultType?_of_ne hop, if_neg h]
    | @invalidScalarOperand _ _ _ s t hl hr hs ht =>
      refine ⟨s, t, Expr.typeIn_eq_some_iff.2 hl, Expr.typeIn_eq_some_iff.2 hr, ?_, rfl⟩
      rw [Operator.resultType?, if_neg hs, if_neg ht]

/-- An operation on another number of operands than two breaks this rule and no other. -/
theorem Expr.unpairedCause_eq_iff {op : Operator} {operands : List Expr} {info : Info}
    (hn : operands.length ≠ 2) :
    some (Cause.operandArity op.symbol operands.length) = some cause ↔
      Node.Violates env (.expr (.operation op operands info)) cause := by
  constructor
  · rintro ⟨⟩
    exact .operandArity hn
  · intro h
    cases h with
    | operandArity h => rfl
    | operandTypeMismatch => exact absurd rfl hn
    | invalidScalarOperand => exact absurd rfl hn

theorem Declaration.cause?_eq_some_iff {d : Declaration} :
    cause? d.property (d.value.typeIn env) = some cause ↔
      Node.Violates env (.declaration d) cause := by
  constructor
  · intro h
    unfold cause? at h
    split at h
    · rename_i hk
      cases h
      exact .unknownProperty hk
    · cases h
    · rename_i kind type hk ht
      split at h
      · cases h
      · rename_i ha
        cases h
        exact .propertyTypeViolation hk (Expr.typeIn_eq_some_iff.1 ht) (Bool.eq_false_iff.2 ha)
  · intro h
    cases h with
    | unknownProperty h => simp only [cause?, h]
    | propertyTypeViolation hk hv h => simp [cause?, hk, Expr.typeIn_eq_some_iff.2 hv, h]

theorem Stmt.guardCause?_eq_some_iff {guard : Expr} {info : Info} :
    guardCause? (guard.typeIn env) = some cause ↔
      Node.Violates env (.conditional guard info) cause := by
  constructor
  · intro h
    cases ht : guard.typeIn env with
    | none =>
      rw [ht] at h
      cases h
    | some type =>
      rw [ht] at h
      have hne : type ≠ .bool := by
        rintro rfl
        cases h
      have hc : guardCause? (some type) = some (.invalidConditionType type) := by
        cases type <;> first | rfl | exact absurd rfl hne
      obtain rfl := Option.some.inj (hc.symm.trans h)
      exact .invalidConditionType (Expr.typeIn_eq_some_iff.1 ht) hne
  · intro h
    cases h with
    | @invalidConditionType _ _ type hg h =>
      rw [Expr.typeIn_eq_some_iff.2 hg]
      cases type <;> first | rfl | exact absurd rfl h

end Violations

/-! ### Expressions -/

namespace Expr

variable (scope : Scope (Option ValueType))

/-- The type that the checker finds is the one that the rules give. -/
theorem type_check (e : Expr) : (e.check scope).type = e.typeIn scope.lookup := by
  induction e using Expr.pairInduction with
  | literal v info => rfl
  | reference name info => rw [check_reference, typeIn]
  | pair op left right info ihl ihr => rw [check_pair, typeIn, ihl, ihr]
  | unpaired op operands info hn => rw [check_unpaired scope hn, typeIn_unpaired _ hn]

theorem nodes_unpaired (env : TypeEnv) {op : Operator} {operands : List Expr} {info : Info}
    (h : operands.length ≠ 2) :
    (operation op operands info).nodes env =
      ⟨.expr (operation op operands info), env⟩ ::
        (listInfos operands).map fun i ↦ ⟨.other i, env⟩ := by
  rw [nodes]
  rintro left right rfl
  exact h rfl

/-- Checking an expression reports the violations at its nodes. -/
theorem reports_check (e : Expr) :
    List.Forall₂ Occurrence.IsReported (e.nodes scope.lookup) (e.check scope).expr.infos := by
  induction e using Expr.pairInduction with
  | literal v info => exact .cons (.of_not_violates fun _ h ↦ by cases h) .nil
  | reference name info =>
    rw [check_reference]
    exact .cons (.of_note fun _ ↦ referenceCause?_eq_some_iff) .nil
  | pair op left right info ihl ihr =>
    rw [check_pair, type_check, type_check]
    simp only [nodes, infos, listInfos, List.append_nil]
    exact .cons (.of_note fun _ ↦ pairCause?_eq_some_iff) (List.rel_append ihl ihr)
  | unpaired op operands info hn =>
    rw [check_unpaired scope hn, nodes_unpaired _ hn]
    refine .cons (@Occurrence.IsReported.of_note _ (some _) fun _ ↦ unpairedCause_eq_iff hn) ?_
    exact List.forall₂_map_left_iff.2 (List.forall₂_same.2 fun i _ ↦ .other i _)

/-- The nodes of an expression are those that carry its infos. -/
theorem info_nodes (env : TypeEnv) (e : Expr) :
    (e.nodes env).map (·.node.info) = e.infos := by
  induction e using Expr.pairInduction with
  | literal v info => rfl
  | reference name info => rfl
  | pair op left right info ihl ihr =>
    simp only [nodes, infos, listInfos, List.map_cons, List.map_append, ihl, ihr, List.append_nil]
    rfl
  | unpaired op operands info hn =>
    rw [nodes_unpaired env hn, List.map_cons, List.map_map]
    exact congrArg (info :: ·) (List.map_id _)

end Expr

/-! ### Statements -/

/-- In a frame of its own a pass knows the same names at first. -/
theorem Checker.lookup_enter (c : Checker) : c.enter.scope.lookup = c.scope.lookup :=
  Scope.lookup_push_eq c.scope

theorem Declaration.reports_check (c : Checker) (d : Declaration) :
    List.Forall₂ Occurrence.IsReported
      (⟨.declaration d, c.scope.lookup⟩ :: d.value.nodes c.scope.lookup) (d.check c).1.infos := by
  rw [check_eq, Expr.type_check]
  exact .cons (.of_note fun _ ↦ cause?_eq_some_iff) (Expr.reports_check c.scope d.value)

theorem Assignment.reports_check (c : Checker) (a : Assignment) :
    List.Forall₂ Occurrence.IsReported (a.nodes c.scope.lookup) (a.check c).1.infos :=
  .cons (.other a.info _) (Expr.reports_check c.scope a.value)

/-- The checker knows the names of the environment after an assignment. -/
theorem Assignment.lookup_check (c : Checker) (a : Assignment) :
    (a.check c).2.scope.lookup =
      Env.set c.scope.lookup a.name (a.value.typeIn c.scope.lookup) := by
  rw [scope_check, Expr.type_check, Scope.lookup_bind_eq]

/-- Checking a body reports the violations at its nodes. -/
theorem Body.reports_check (body : List Stmt) : ∀ c : Checker,
    List.Forall₂ Occurrence.IsReported (Body.nodes c.scope.lookup body)
      (Body.infos (Body.check c body).1) := by
  induction body using Body.induction with
  | nil => exact fun _ ↦ .nil
  | declaration d rest ih =>
    intro c
    have hrest := ih (d.check c).2
    rw [Declaration.scope_check] at hrest
    exact List.rel_append (d.reports_check c) hrest
  | assignment a rest ih =>
    intro c
    have hrest := ih (a.check c).2
    rw [Assignment.lookup_check] at hrest
    exact List.rel_append (a.reports_check c) hrest
  | conditional guard body otherwise info rest ihBody ihElse ihRest =>
    intro c
    have hrest := ihRest ((Stmt.conditional guard body otherwise info).check c).2
    rw [Stmt.scope_check_conditional] at hrest
    obtain ⟨last, hlast, hcheck⟩ := Stmt.exists_fst_check_conditional c guard body otherwise info
    have hbranch : ∀ {branch : List Stmt},
        (∀ c : Checker, List.Forall₂ Occurrence.IsReported (Body.nodes c.scope.lookup branch)
          (Body.infos (Body.check c branch).1)) → ∀ c' : Checker, c'.scope = c.scope →
        List.Forall₂ Occurrence.IsReported (Body.nodes c.scope.lookup branch)
          (Body.infos (Body.check c'.enter branch).1) := by
      intro branch ih c' hc'
      have henter : c'.enter.scope.lookup = c.scope.lookup := hc' ▸ c'.lookup_enter
      exact henter ▸ ih c'.enter
    have helse : List.Forall₂ Occurrence.IsReported (otherwise.nodes c.scope.lookup)
        (otherwise.check last).1.infos := by
      cases otherwise with
      | absent => exact .nil
      | present branch i => exact .cons (.other i _) (hbranch ihElse last hlast)
    rw [check_cons, infos, nodes, hcheck, Expr.type_check]
    exact List.rel_append (.cons (.of_note fun _ ↦ Stmt.guardCause?_eq_some_iff)
      (List.rel_append (List.rel_append (Expr.reports_check c.scope guard) (hbranch ihBody c rfl))
        helse)) hrest

/-- The nodes of a body are those that carry its infos. -/
theorem Body.info_nodes (body : List Stmt) : ∀ env : TypeEnv,
    (Body.nodes env body).map (·.node.info) = Body.infos body := by
  induction body using Body.induction with
  | nil => exact fun _ ↦ rfl
  | declaration d rest ih =>
    intro env
    rw [nodes, Stmt.nodes, List.map_append, List.map_cons, Expr.info_nodes, ih]
    rfl
  | assignment a rest ih =>
    intro env
    rw [nodes, Stmt.nodes, Assignment.nodes, List.map_append, List.map_cons, Expr.info_nodes, ih]
    rfl
  | conditional guard body otherwise info rest ihBody ihElse ihRest =>
    intro env
    have helse : (otherwise.nodes env).map (·.node.info) = otherwise.infos := by
      cases otherwise with
      | absent => rfl
      | present branch i => exact congrArg (i :: ·) (ihElse env)
    rw [nodes, Stmt.nodes, List.map_append, List.map_cons, List.map_append, List.map_append,
      Expr.info_nodes, ihBody, helse, ihRest]
    rfl

/-! ### Sheets -/

theorem Rule.reports_check (c : Checker) (r : Rule) :
    List.Forall₂ Occurrence.IsReported
      (⟨.other r.info, c.scope.lookup⟩ :: Body.nodes c.scope.lookup r.body)
      (r.check c).1.infos := by
  have hbody := Body.reports_check r.body c.enter
  rw [c.lookup_enter] at hbody
  exact .cons (.other r.info _) hbody

/-- Checking items reports the violations at their nodes. -/
theorem Item.reports_checkAll (items : List Item) : ∀ c : Checker,
    List.Forall₂ Occurrence.IsReported (Item.nodesOfAll c.scope.lookup items)
      ((Item.checkAll c items).1.flatMap Item.infos) := by
  induction items with
  | nil => exact fun _ ↦ .nil
  | cons i rest ih =>
    intro c
    cases i with
    | assignment a =>
      have hrest := ih (a.check c).2
      rw [Assignment.lookup_check] at hrest
      exact List.rel_append (a.reports_check c) hrest
    | rule r =>
      have hrest := ih (r.check c).2
      rw [Rule.scope_check] at hrest
      exact List.rel_append (r.reports_check c) hrest

theorem Item.shape_checkAll (items : List Item) (c : Checker) :
    (Item.checkAll c items).1.map Item.shape = items.map Item.shape := by
  rw [show Item.shape = Item.relabel (fun _ ↦ .null) from funext shape_eq_relabel]
  exact relabel_checkAll (fun _ _ ↦ rfl) items c

theorem Item.info_nodesOfAll (items : List Item) : ∀ env : TypeEnv,
    (Item.nodesOfAll env items).map (·.node.info) = items.flatMap Item.infos := by
  induction items with
  | nil => exact fun _ ↦ rfl
  | cons i rest ih =>
    intro env
    cases i with
    | assignment a =>
      rw [nodesOfAll, Assignment.nodes, List.map_append, List.map_cons, Expr.info_nodes, ih]
      rfl
    | rule r =>
      rw [nodesOfAll, List.map_cons, List.map_append, Body.info_nodes, ih]
      rfl

/-- Checking a sheet reports the violations at its nodes. -/
theorem Sheet.isReported_check (s : Sheet) :
    List.Forall₂ Occurrence.IsReported s.nodes s.check.1.infos :=
  .cons (.other s.info _) (Item.reports_checkAll s.items .start)

/-- The nodes of a sheet are those that carry its infos. -/
theorem Sheet.info_nodes (s : Sheet) : s.nodes.map (·.node.info) = s.infos :=
  congrArg (s.info :: ·) (Item.info_nodesOfAll s.items .empty)

/-- **Exact reports.** Checking leaves a sheet the tree that it is, and leaves at each of its nodes
what the rules ask for: one diagnostic more where a rule is broken, with the cause of the violation
and at the start of the node, and nothing new anywhere else. -/
theorem Sheet.check_reports (s : Sheet) :
    s.check.1.shape = s.shape ∧ s.nodes.map (·.node.info) = s.infos ∧
      List.Forall₂ Occurrence.IsReported s.nodes s.check.1.infos :=
  ⟨congrArg (Sheet.mk · .null) (Item.shape_checkAll s.items .start), s.info_nodes,
    s.isReported_check⟩

end TypedCss

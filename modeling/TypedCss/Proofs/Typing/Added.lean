import TypedCss.Proofs.Typing.WellTyped

/-!
# What checking adds

The diagnostics of a node only grow, at their end, so what checking adds to a node is what comes
after those that it had (`Info.added`). The rules decide what that is: `Occurrence.cause?` finds the
one violation of a node, if there is any, from the node and its environment, and neither depends on
diagnostics (`Expr.nodes_relabel` and its kin for larger trees).

The checker counts what it adds while it goes over the tree. Each of its passes counts as much as is
added at the nodes that it passes (`Body.errorCount_check`), so that the count at the end is that of
all nodes. `Sheet.check_annotates` puts this together.
-/

namespace TypedCss

/-- The diagnostics of a node that come after those it had. -/
def Info.added (old new : Info) : List Error := new.diagnostics.drop old.diagnostics.length

/-- What checking a sheet adds to each of its nodes. -/
def Sheet.added (s : Sheet) : List (List Error) := List.zipWith Info.added s.infos s.check.1.infos

/-! ### What the rules add to a node -/

namespace Occurrence

/-- The violation of a node, if there is one. -/
def cause? : Occurrence → Option Cause
  | ⟨.expr (.literal _ _), _⟩ => none
  | ⟨.expr (.reference name _), env⟩ => Expr.referenceCause? name (env name)
  | ⟨.expr (.operation op [left, right] _), env⟩ => op.cause? (left.typeIn env) (right.typeIn env)
  | ⟨.expr (.operation op operands _), _⟩ => some (.operandArity op.symbol operands.length)
  | ⟨.declaration d, env⟩ => Declaration.cause? d.property (d.value.typeIn env)
  | ⟨.conditional guard _, env⟩ => Stmt.guardCause? (guard.typeIn env)
  | ⟨.other _, _⟩ => none

/-- An operation on other than two operands is a violation in every environment. -/
theorem cause?_unpaired {op : Operator} {operands : List Expr} {info : Info} {env : TypeEnv}
    (h : operands.length ≠ 2) :
    cause? ⟨.expr (.operation op operands info), env⟩ =
      some (.operandArity op.symbol operands.length) := by
  rw [cause?]
  rintro left right rfl
  exact h rfl

/-- The violation that is found is the one that the rules name. -/
theorem cause?_eq_some_iff {o : Occurrence} {cause : Cause} :
    o.cause? = some cause ↔ o.node.Violates o.env cause := by
  obtain ⟨node, env⟩ := o
  cases node with
  | expr e =>
    cases e using Expr.pairInduction with
    | literal v info => exact iff_of_false nofun fun h ↦ by cases h
    | reference name info => exact Expr.referenceCause?_eq_some_iff
    | pair op left right info => exact Expr.pairCause?_eq_some_iff
    | unpaired op operands info hn =>
      rw [cause?_unpaired hn]
      exact Expr.unpairedCause_eq_iff hn
  | declaration d => exact Declaration.cause?_eq_some_iff
  | conditional guard info => exact Stmt.guardCause?_eq_some_iff
  | other info => exact iff_of_false nofun fun h ↦ by cases h

/-- What the rules ask to be added to a node: its violation, placed at its start. -/
def added (o : Occurrence) : List Error := o.cause?.toList.map (⟨·, o.node.info.start⟩)

@[simp] theorem length_added (o : Occurrence) : o.added.length = o.cause?.toList.length :=
  List.length_map _

@[simp] theorem added_other (info : Info) (env : TypeEnv) : added ⟨.other info, env⟩ = [] := rfl

/-- What a node carries after its report is what it carried before and what the rules add. -/
theorem IsReported.diagnostics_eq {o : Occurrence} {new : Info} (h : o.IsReported new) :
    new.diagnostics = o.node.info.diagnostics ++ o.added := by
  rcases h.atMostOne with rfl | ⟨cause, rfl⟩
  · have hnone : o.cause? = none := by
      refine Option.eq_none_iff_forall_ne_some.2 fun cause hc ↦ ?_
      exact Info.report_ne _ cause ((h.exact cause).2 (cause?_eq_some_iff.1 hc)).symm
    rw [added, hnone]
    exact (List.append_nil _).symm
  · rw [added, cause?_eq_some_iff.2 ((h.exact cause).1 rfl)]
    rfl

/-- What is added to a reported node is what the rules add. -/
theorem IsReported.added_eq {o : Occurrence} {new : Info} (h : o.IsReported new) :
    o.node.info.added new = o.added := by
  rw [Info.added, h.diagnostics_eq, List.drop_left]

end Occurrence

section

variable {os : List Occurrence} {infos : List Info}

/-- What was added to nodes that were reported on is what the rules add to them. -/
theorem zipWith_added_of_isReported (h : List.Forall₂ Occurrence.IsReported os infos) :
    List.zipWith Info.added (os.map (·.node.info)) infos = os.map Occurrence.added := by
  induction h with
  | nil => rfl
  | cons ho _ ih => rw [List.map_cons, List.zipWith_cons_cons, ih, ho.added_eq, List.map_cons]

/-- The diagnostics of some nodes grow by as much as the rules add to them. -/
theorem length_diagnostics_of_isReported (h : List.Forall₂ Occurrence.IsReported os infos) :
    (infos.flatMap Info.diagnostics).length =
      ((os.map (·.node.info)).flatMap Info.diagnostics).length +
        (os.flatMap Occurrence.added).length := by
  induction h with
  | nil => rfl
  | cons ho _ ih =>
    simp only [List.map_cons, List.flatMap_cons, List.length_append, ih, ho.diagnostics_eq]
    omega

end

/-! ### What the checker counts -/

/-- An expression counts what is added at its nodes. -/
theorem Expr.reports_eq (scope : Scope (Option ValueType)) (e : Expr) :
    (e.check scope).reports = ((e.nodes scope.lookup).flatMap Occurrence.added).length := by
  induction e using Expr.pairInduction with
  | literal v info => rfl
  | reference name info =>
    rw [check_reference, nodes, List.flatMap_singleton, Occurrence.length_added, Occurrence.cause?]
  | pair op left right info ihl ihr =>
    rw [check_pair, nodes, List.flatMap_cons, List.flatMap_append, List.length_append,
      List.length_append, Occurrence.length_added, Occurrence.cause?, ← ihl, ← ihr, type_check,
      type_check]
    exact Nat.add_comm ..
  | unpaired op operands info hn =>
    rw [check_unpaired scope hn, nodes_unpaired _ hn, List.flatMap_cons, List.length_append,
      Occurrence.length_added, Occurrence.cause?_unpaired hn, List.flatMap_map]
    simp

/-- A declaration counts what is added to it and in its value. -/
theorem Declaration.errorCount_check (c : Checker) (d : Declaration) :
    (d.check c).2.errorCount = c.errorCount +
      (((Stmt.declaration d).nodes c.scope.lookup).flatMap Occurrence.added).length := by
  rw [check_eq, Stmt.nodes, List.flatMap_cons, List.length_append, Occurrence.length_added,
    Occurrence.cause?, Checker.count, Expr.reports_eq, Expr.type_check,
    Nat.add_comm (List.length _)]

/-- An assignment counts what is added in its value. -/
theorem Assignment.errorCount_check (c : Checker) (a : Assignment) :
    (a.check c).2.errorCount =
      c.errorCount + ((a.nodes c.scope.lookup).flatMap Occurrence.added).length :=
  congrArg (c.errorCount + ·) (Expr.reports_eq c.scope a.value)

/-- A body counts what is added at its nodes. -/
theorem Body.errorCount_check (body : List Stmt) : ∀ c : Checker,
    (Body.check c body).2.errorCount =
      c.errorCount + ((Body.nodes c.scope.lookup body).flatMap Occurrence.added).length := by
  induction body using Body.induction with
  | nil => exact fun _ ↦ rfl
  | declaration d rest ih =>
    intro c
    have hrest := ih (d.check c).2
    rw [Declaration.scope_check, Declaration.errorCount_check] at hrest
    rw [nodes, List.flatMap_append, List.length_append, ← Nat.add_assoc]
    exact hrest
  | assignment a rest ih =>
    intro c
    have hrest := ih (a.check c).2
    rw [Assignment.lookup_check, Assignment.errorCount_check] at hrest
    rw [nodes, List.flatMap_append, List.length_append, ← Nat.add_assoc]
    exact hrest
  | conditional guard body otherwise info rest ihBody ihElse ihRest =>
    intro c
    have hbody : (c.inFrame (Body.check · body)).2.errorCount = c.errorCount +
        ((Body.nodes c.scope.lookup body).flatMap Occurrence.added).length := by
      have h := ihBody c.enter
      rwa [c.lookup_enter] at h
    have helse : ∀ last : Checker, last.scope = c.scope →
        (otherwise.check last).2.errorCount = last.errorCount +
          ((otherwise.nodes c.scope.lookup).flatMap Occurrence.added).length := by
      intro last hlast
      cases otherwise with
      | absent => rfl
      | present branch i =>
        have h := ihElse last.enter
        rwa [last.lookup_enter, hlast] at h
    -- The checker goes over the body, the guard and the else branch, and counts in this order.
    rw [check_cons, ihRest, Stmt.scope_check_conditional, Stmt.check_conditional]
    simp only [Body.scope_inFrame_check]
    rw [helse _ (by rw [Checker.scope_count, Body.scope_inFrame_check]), Checker.count, hbody,
      Expr.reports_eq, Expr.type_check, nodes, Stmt.nodes, Stmt.extend]
    simp only [List.flatMap_append, List.flatMap_cons, List.length_append,
      Occurrence.length_added, Occurrence.cause?]
    omega

/-- A rule counts what is added in its body. -/
theorem Rule.errorCount_check (c : Checker) (r : Rule) :
    (r.check c).2.errorCount =
      c.errorCount + ((Body.nodes c.scope.lookup r.body).flatMap Occurrence.added).length := by
  have h := Body.errorCount_check r.body c.enter
  rwa [c.lookup_enter] at h

/-- Items count what is added at their nodes. -/
theorem Item.errorCount_checkAll (items : List Item) : ∀ c : Checker,
    (Item.checkAll c items).2.errorCount =
      c.errorCount + ((Item.nodesOfAll c.scope.lookup items).flatMap Occurrence.added).length := by
  induction items with
  | nil => exact fun _ ↦ rfl
  | cons i rest ih =>
    intro c
    cases i with
    | assignment a =>
      have hrest := ih (a.check c).2
      rw [Assignment.lookup_check, Assignment.errorCount_check] at hrest
      rw [nodesOfAll, List.flatMap_append, List.length_append, ← Nat.add_assoc]
      exact hrest
    | rule r =>
      have hrest := ih (r.check c).2
      rw [Rule.scope_check, Rule.errorCount_check] at hrest
      rw [nodesOfAll, List.flatMap_cons, Occurrence.added_other, List.nil_append,
        List.flatMap_append, List.length_append, ← Nat.add_assoc]
      exact hrest

/-- The checker has counted, at the end of a sheet, what is added at its nodes. -/
theorem Sheet.errorCount_check (s : Sheet) :
    s.check.2.errorCount = (s.nodes.flatMap Occurrence.added).length :=
  (Item.errorCount_checkAll s.items .start).trans (Nat.zero_add _)

/-! ### Relabeled nodes -/

section

variable (f : Info → Info)

/-- A relabeled node. -/
def Node.relabel : Node → Node
  | expr e => expr (e.relabel f)
  | declaration d => declaration (d.relabel f)
  | conditional guard info => conditional (guard.relabel f) (f info)
  | other info => other (f info)

/-- A relabeled node where it stood. -/
def Occurrence.relabel (o : Occurrence) : Occurrence := ⟨o.node.relabel f, o.env⟩

theorem Node.info_relabel (n : Node) : (n.relabel f).info = f n.info := by
  cases n with
  | expr e => exact e.info_relabel f
  | declaration | conditional | other => all_goals rfl

/-- What a node violates does not depend on what the nodes carry. -/
theorem Occurrence.cause?_relabel (o : Occurrence) : (o.relabel f).cause? = o.cause? := by
  obtain ⟨node, env⟩ := o
  cases node with
  | expr e =>
    cases e using Expr.pairInduction with
    | literal v info => rfl
    | reference name info => rfl
    | pair op left right info =>
      exact congrArg₂ op.cause? (left.typeIn_relabel f env) (right.typeIn_relabel f env)
    | unpaired op operands info hn =>
      have hf : cause? ⟨.expr (.operation op (Expr.listRelabel f operands) (f info)), env⟩ = _ :=
        cause?_unpaired (by rwa [Expr.length_listRelabel])
      rw [cause?_unpaired hn, ← Expr.length_listRelabel f operands]
      exact hf
  | declaration d => exact congrArg (Declaration.cause? d.property) (d.value.typeIn_relabel f env)
  | conditional guard info => exact congrArg Stmt.guardCause? (guard.typeIn_relabel f env)
  | other info => rfl

/-- What the rules add to a node depends on where it starts, and on nothing else that it carries. -/
theorem Occurrence.added_relabel (hf : ∀ info, (f info).start = info.start) (o : Occurrence) :
    (o.relabel f).added = o.added := by
  rw [added, added, cause?_relabel, relabel, Node.info_relabel, hf]

/-- A relabeled expression has the same nodes in the same environments, relabeled. -/
theorem Expr.nodes_relabel (env : TypeEnv) (e : Expr) :
    (e.relabel f).nodes env = (e.nodes env).map (Occurrence.relabel f) := by
  induction e using Expr.pairInduction with
  | literal v info => rfl
  | reference name info => rfl
  | pair op left right info ihl ihr =>
    simp only [relabel, listRelabel, nodes, ihl, ihr, List.map_cons, List.map_append]
    rfl
  | unpaired op operands info hn =>
    rw [nodes_unpaired env hn, relabel, nodes_unpaired env (by rwa [length_listRelabel]),
      listInfos_relabel, List.map_cons, List.map_map, List.map_map]
    rfl

theorem Assignment.nodes_relabel (env : TypeEnv) (a : Assignment) :
    (a.relabel f).nodes env = (a.nodes env).map (Occurrence.relabel f) :=
  congrArg (Occurrence.mk (.other (f a.info)) env :: ·) (a.value.nodes_relabel f env)

/-- So has a body: what its nodes carry binds nothing. -/
theorem Body.nodes_relabel (body : List Stmt) : ∀ env : TypeEnv,
    Body.nodes env (Body.relabel f body) = (Body.nodes env body).map (Occurrence.relabel f) := by
  induction body using Body.induction with
  | nil => exact fun _ ↦ rfl
  | declaration d rest ih =>
    intro env
    rw [relabel, nodes, nodes, List.map_append, Stmt.relabel, Stmt.extend, Stmt.extend, ih]
    exact congrArg (⟨.declaration (d.relabel f), env⟩ :: · ++ _) (d.value.nodes_relabel f env)
  | assignment a rest ih =>
    intro env
    have henv : (Stmt.assignment (a.relabel f)).extend env = (Stmt.assignment a).extend env :=
      congrArg (Env.set env a.name) (a.value.typeIn_relabel f env)
    rw [relabel, nodes, nodes, List.map_append, Stmt.relabel, henv, ih]
    exact congrArg (· ++ _) (a.nodes_relabel f env)
  | conditional guard body otherwise info rest ihBody ihElse ihRest =>
    intro env
    have helse : (otherwise.relabel f).nodes env =
        (otherwise.nodes env).map (Occurrence.relabel f) := by
      cases otherwise with
      | absent => rfl
      | present branch i => exact congrArg (Occurrence.mk (.other (f i)) env :: ·) (ihElse env)
    rw [relabel, nodes, nodes, List.map_append, Stmt.relabel, Stmt.extend, Stmt.extend, ihRest,
      Stmt.nodes, Stmt.nodes, Expr.nodes_relabel, ihBody, helse]
    simp only [List.map_cons, List.map_append]
    rfl

theorem Item.nodesOfAll_relabel (items : List Item) : ∀ env : TypeEnv,
    Item.nodesOfAll env (items.map (Item.relabel f)) =
      (Item.nodesOfAll env items).map (Occurrence.relabel f) := by
  induction items with
  | nil => exact fun _ ↦ rfl
  | cons i rest ih =>
    intro env
    cases i with
    | assignment a =>
      rw [nodesOfAll, List.map_append, ← Assignment.nodes_relabel, ← ih,
        ← a.value.typeIn_relabel f env]
      rfl
    | rule r =>
      rw [List.map_cons, nodesOfAll, List.map_cons, List.map_append, ← Body.nodes_relabel, ← ih]
      rfl

theorem Sheet.nodes_relabel (s : Sheet) :
    (s.relabel f).nodes = s.nodes.map (Occurrence.relabel f) :=
  congrArg (Occurrence.mk (.other (f s.info)) .empty :: ·)
    (Item.nodesOfAll_relabel f s.items .empty)

end

/-! ### Sheets -/

namespace Sheet

/-- What checking adds is what the rules add. -/
theorem added_eq (s : Sheet) : s.added = s.nodes.map Occurrence.added := by
  rw [added, ← info_nodes, zipWith_added_of_isReported s.isReported_check]

/-- The count at the end is that of all diagnostics that were added. -/
theorem errorCount_eq (s : Sheet) : s.check.2.errorCount = s.added.flatten.length := by
  rw [errorCount_check, added_eq, ← List.flatMap_def]

/-- A sheet has as many diagnostics more as were counted. -/
theorem length_errors_check (s : Sheet) :
    s.check.1.errors.length = s.errors.length + s.check.2.errorCount := by
  rw [errors_eq_flatMap, errors_eq_flatMap, errorCount_check, ← s.info_nodes,
    length_diagnostics_of_isReported s.isReported_check]

/-- The diagnostics that are there already do not decide what is added. -/
theorem added_eq_of_relabel_bare_eq {s t : Sheet}
    (h : t.relabel Info.bare = s.relabel Info.bare) : t.added = s.added := by
  have hbare : ∀ u : Sheet, (u.relabel Info.bare).nodes.map Occurrence.added = u.added := by
    intro u
    rw [nodes_relabel, List.map_map, added_eq]
    exact List.map_congr_left fun o _ ↦ o.added_relabel Info.bare fun _ ↦ rfl
  rw [← hbare t, h, hbare]

/-- **Checking only annotates.** Without its diagnostics a checked sheet is the sheet that it was.
Each node has the diagnostics that it had, and after them at most one more, at its start. The
checker counts these, so there are as many more errors in the sheet as it counts, and a sheet
without errors has some afterwards exactly if any were counted. All frames have been closed. What is
added depends on the sheet without its diagnostics only; checking a checked sheet adds the same to
the same nodes. -/
theorem check_annotates (s : Sheet) :
    s.check.1.relabel Info.bare = s.relabel Info.bare ∧
      List.Forall₂ (fun old new : Info ↦ ∃ errors : List Error,
        new.diagnostics = old.diagnostics ++ errors ∧ errors.length ≤ 1 ∧
          ∀ e ∈ errors, e.position = old.span.start) s.infos s.check.1.infos ∧
      s.check.2.errorCount = s.added.flatten.length ∧
      s.check.1.errors.length = s.errors.length + s.check.2.errorCount ∧
      (s.hasErrors = false → (s.check.1.hasErrors = true ↔ 0 < s.check.2.errorCount)) ∧
      s.check.2.scope.depth = 1 ∧
      (∀ t : Sheet, t.relabel Info.bare = s.relabel Info.bare →
        t.added = s.added ∧ t.check.2.errorCount = s.check.2.errorCount) ∧
      s.check.1.added = s.added ∧ s.check.1.check.2.errorCount = s.check.2.errorCount := by
  have herase : s.check.1.relabel Info.bare = s.relabel Info.bare :=
    relabel_check (fun _ _ ↦ rfl) s
  have hsame : ∀ t : Sheet, t.relabel Info.bare = s.relabel Info.bare →
      t.added = s.added ∧ t.check.2.errorCount = s.check.2.errorCount := by
    intro t ht
    have hadded := added_eq_of_relabel_bare_eq ht
    exact ⟨hadded, by rw [errorCount_eq, errorCount_eq, hadded]⟩
  refine ⟨herase, ?_, s.errorCount_eq, s.length_errors_check, ?_, ?_, hsame, hsame _ herase⟩
  · rw [← info_nodes, List.forall₂_map_left_iff]
    refine s.isReported_check.imp fun o new ho ↦ ⟨o.added, ho.diagnostics_eq, ?_, ?_⟩
    · rw [Occurrence.length_added]
      exact Option.length_toList_le
    · intro e he
      obtain ⟨cause, -, rfl⟩ := List.mem_map.1 he
      rfl
  · intro hs
    rw [hasErrors_eq_false_iff] at hs
    rw [← Bool.not_eq_false, hasErrors_eq_false_iff, ← ne_eq, ← List.length_pos_iff,
      length_errors_check, hs, List.length_nil, Nat.zero_add]
  · -- The items have touched no frame but the outermost, around which there is none.
    have houter : s.check.2.scope.outer = [] := Item.outer_checkAll s.items .start
    rw [Scope.depth, Scope.frames_eq_cons, houter]
    rfl

/-- A sheet with a variable that is not known, in a declaration on which something was reported. -/
def unbound (reported : List Error) : Sheet :=
  ⟨[.rule ⟨[.tag "p"], [.declaration ⟨"color", .reference "--c" .null, ⟨.null, reported⟩⟩], .null⟩],
    .null⟩

theorem check_annotates_unbound :
    (unbound []).hasErrors = false ∧
      ((unbound []).check.1.hasErrors = true ↔ 0 < (unbound []).check.2.errorCount) ∧
      (unbound [⟨.unknownProperty "margin", .null⟩]).relabel Info.bare =
        (unbound []).relabel Info.bare ∧
      (unbound [⟨.unknownProperty "margin", .null⟩]).added = (unbound []).added ∧
      (unbound [⟨.unknownProperty "margin", .null⟩]).check.2.errorCount =
        (unbound []).check.2.errorCount := by
  obtain ⟨-, -, -, -, herrors, -, hsame, -⟩ := check_annotates (unbound [])
  exact ⟨rfl, herrors rfl, rfl, hsame _ rfl⟩

end Sheet

end TypedCss

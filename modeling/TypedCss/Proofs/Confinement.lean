import TypedCss.Proofs.Evaluation.Clash
import TypedCss.Proofs.Typing.Annotation

/-!
# What the passes leave in a scope

Checking and evaluating give back the scope that they were given, after a declaration, a conditional
or a rule, also where an evaluation fails inside nested branches. Only the assignments that stand in
a body itself are left in the scope after it, and they are left in the innermost frame
(`passes_confined`).

After a body the scope is thus what its assignments make of it when they are run alone. An
evaluation that fails `StopsIn` the scope that the assignments before the failing statement have
made; the failing statement itself leaves nothing (`Stmt.snd_evaluate_of_error`).
-/

namespace TypedCss

/-! ### Assignments of a body -/

/-- The assignment that a statement is, if it is one. -/
def Stmt.assignment? : Stmt → Option Assignment
  | .assignment a => some a
  | _ => none

/-- The assignments that stand in a body itself, outside conditionals. -/
def Body.assignments (body : List Stmt) : List Assignment := body.filterMap Stmt.assignment?

/-- The names that a body binds in the frame in which it is run. -/
def Body.boundNames (body : List Stmt) : List String := (Body.assignments body).map Assignment.name

theorem Body.assignments_append (xs ys : List Stmt) :
    Body.assignments (xs ++ ys) = Body.assignments xs ++ Body.assignments ys :=
  List.filterMap_append

/-! ### Checking -/

/-- The scope of a checker that has seen some assignments, one after another. -/
def Assignment.checkAll (scope : Scope (Option ValueType)) (as : List Assignment) :
    Scope (Option ValueType) :=
  as.foldl (fun scope a ↦ scope.bind a.name (a.value.check scope).type) scope

theorem Assignment.rebinds_checkAll {names : List String} {as : List Assignment}
    (h : ∀ a ∈ as, a.name ∈ names) : ∀ scope : Scope (Option ValueType),
      scope.Rebinds names (checkAll scope as) := by
  induction as with
  | nil => exact fun scope ↦ .refl scope names
  | cons a as ih =>
    intro scope
    obtain ⟨ha, hr⟩ := List.forall_mem_cons.1 h
    exact (Scope.Rebinds.bind scope _ ha).trans (ih hr _)

/-- A body leaves its assignments in the scope, and nothing else. -/
theorem Body.scope_check (body : List Stmt) : ∀ c : Checker,
    (Body.check c body).2.scope = Assignment.checkAll c.scope (Body.assignments body) := by
  induction body with
  | nil => exact fun _ ↦ rfl
  | cons s rest ih =>
    intro c
    rw [check_cons, ih]
    cases s with
    | declaration d =>
      show Assignment.checkAll (d.check c).2.scope (Body.assignments rest) = _
      rw [Declaration.scope_check]
      rfl
    | assignment a => rfl
    | conditional guard body otherwise info =>
      rw [Stmt.scope_check_conditional]
      rfl

/-! ### Evaluation -/

/-- The scope after some assignments were evaluated, one after another. -/
def Assignment.evaluateAll (scope : Scope Literal) (as : List Assignment) :
    Except Error (Scope Literal) :=
  as.foldlM Assignment.evaluate scope

theorem Assignment.evaluateAll_cons {scope scope' : Scope Literal} {a : Assignment}
    (as : List Assignment) (h : a.evaluate scope = .ok scope') :
    evaluateAll scope (a :: as) = evaluateAll scope' as := by
  rw [evaluateAll, List.foldlM_cons, h]
  rfl

theorem Assignment.exists_evaluate_eq {scope scope' : Scope Literal} {a : Assignment}
    (h : a.evaluate scope = .ok scope') : ∃ v, scope' = scope.bind a.name v := by
  rw [evaluate] at h
  cases hv : a.value.fold scope with
  | error e =>
    rw [hv] at h
    cases h
  | ok v =>
    rw [hv] at h
    exact ⟨v, (Except.ok.inj h).symm⟩

theorem Assignment.rebinds_evaluateAll {names : List String} {as : List Assignment}
    (h : ∀ a ∈ as, a.name ∈ names) : ∀ {scope scope' : Scope Literal},
      evaluateAll scope as = .ok scope' → scope.Rebinds names scope' := by
  induction as with
  | nil =>
    intro scope scope' hs
    obtain rfl : scope = scope' := Except.ok.inj hs
    exact .refl scope names
  | cons a as ih =>
    intro scope scope' hs
    obtain ⟨ha, hr⟩ := List.forall_mem_cons.1 h
    cases hm : a.evaluate scope with
    | error e =>
      rw [evaluateAll, List.foldlM_cons, hm] at hs
      cases hs
    | ok mid =>
      rw [evaluateAll_cons as hm] at hs
      obtain ⟨v, rfl⟩ := exists_evaluate_eq hm
      exact (Scope.Rebinds.bind scope v ha).trans (ih hr hs)

/-- A conditional gives back the scope that it was given, whatever it evaluates to. -/
@[simp] theorem Stmt.snd_evaluate_conditional (scope : Scope Literal) (guard : Expr)
    (body : List Stmt) (otherwise : ElseBranch) (info : Info) :
    ((Stmt.conditional guard body otherwise info).evaluate scope).2 = scope := by
  cases hg : Stmt.guardValue scope guard info with
  | error e => rw [Stmt.evaluate, hg]
  | ok b =>
    rw [Stmt.evaluate_conditional body otherwise hg]
    exact Body.snd_inFrame_evaluate scope _

/-- A rule gives back the scope that it was given, whatever it evaluates to. -/
@[simp] theorem Rule.snd_evaluate (scope : Scope Literal) (r : Rule) :
    (r.evaluate scope).2 = scope :=
  Body.snd_inFrame_evaluate scope r.body

/-- A statement that fails leaves nothing in the scope. -/
theorem Stmt.snd_evaluate_of_error {scope : Scope Literal} {s : Stmt} {e : Error}
    (h : (s.evaluate scope).1 = .error e) : (s.evaluate scope).2 = scope := by
  cases s with
  | declaration d => rfl
  | assignment a =>
    rw [Stmt.evaluate] at h ⊢
    cases ha : a.evaluate scope with
    | error e => rfl
    | ok mid =>
      rw [ha] at h
      cases h
  | conditional guard body otherwise info =>
    exact Stmt.snd_evaluate_conditional scope guard body otherwise info

/-- A statement that succeeds leaves the assignment that it is, if it is one. -/
theorem Stmt.evaluateAll_assignments {scope : Scope Literal} {s : Stmt} {first : List Stmt}
    (h : (s.evaluate scope).1 = .ok first) :
    Assignment.evaluateAll scope (Body.assignments [s]) = .ok (s.evaluate scope).2 := by
  cases s with
  | declaration d => rfl
  | assignment a =>
    rw [Stmt.evaluate] at h ⊢
    cases ha : a.evaluate scope with
    | error e =>
      rw [ha] at h
      cases h
    | ok mid => exact Assignment.evaluateAll_cons [] ha
  | conditional guard body otherwise info =>
    rw [Stmt.snd_evaluate_conditional]
    rfl

/-- `StopsIn scope body result scope'` says how far the evaluation of a body comes that gives
`result`, and in which scope it ends. -/
inductive Body.StopsIn (scope : Scope Literal) (body : List Stmt) :
    Except Error (List Stmt) → Scope Literal → Prop where
  /-- It comes to the end, and leaves all assignments in the scope. -/
  | atEnd {out : List Stmt} {scope' : Scope Literal}
    (assigned : Assignment.evaluateAll scope (Body.assignments body) = .ok scope') :
    StopsIn scope body (.ok out) scope'
  /-- It comes to a statement that fails, and leaves the assignments before it in the scope. -/
  | atFailure {before : List Stmt} {s : Stmt} {rest out : List Stmt} {e : Error}
    {scope' : Scope Literal} (split : body = before ++ s :: rest)
    (passed : Body.evaluate scope before = (.ok out, scope'))
    (assigned : Assignment.evaluateAll scope (Body.assignments before) = .ok scope')
    (failed : (s.evaluate scope').1 = .error e) :
    StopsIn scope body (.error e) scope'

/-- Where a body stops after a statement that succeeds is where the rest of it stops. -/
theorem Body.StopsIn.cons {scope : Scope Literal} {s : Stmt} {rest first : List Stmt}
    {result : Except Error (List Stmt)} {scope' : Scope Literal}
    (hs : (s.evaluate scope).1 = .ok first) (h : StopsIn (s.evaluate scope).2 rest result scope') :
    StopsIn scope (s :: rest) (result.map (first ++ ·)) scope' := by
  have hcons : ∀ {body : List Stmt} {last : Scope Literal},
      Assignment.evaluateAll (s.evaluate scope).2 (assignments body) = .ok last →
        Assignment.evaluateAll scope (assignments (s :: body)) = .ok last := by
    intro body last hb
    have happend : assignments (s :: body) = assignments [s] ++ assignments body :=
      assignments_append [s] body
    rw [happend, Assignment.evaluateAll, List.foldlM_append]
    refine (congrArg (· >>= _) (Stmt.evaluateAll_assignments hs)).trans ?_
    exact hb
  cases h with
  | atEnd assigned => exact .atEnd (hcons assigned)
  | @atFailure before s' later out e _ split passed assigned failed =>
    have hrun : Body.evaluate scope (s :: before) = (.ok (first ++ out), scope') := by
      rw [evaluate_cons_ok before (Prod.ext hs rfl), passed]
      rfl
    exact .atFailure (congrArg (s :: ·) split) hrun (hcons assigned) failed

/-- An evaluation leaves the assignments before the statement that it stops at. -/
theorem Body.stopsIn_evaluate (body : List Stmt) : ∀ scope : Scope Literal,
    StopsIn scope body (Body.evaluate scope body).1 (Body.evaluate scope body).2 := by
  induction body with
  | nil => exact fun scope ↦ .atEnd rfl
  | cons s rest ih =>
    intro scope
    cases hs : (s.evaluate scope).1 with
    | error e =>
      rw [evaluate_cons_error rest (Prod.ext hs (Stmt.snd_evaluate_of_error hs))]
      have hnone : Body.evaluate scope [] = (.ok [], scope) := rfl
      exact .atFailure (List.nil_append (s :: rest)).symm hnone rfl hs
    | ok first =>
      rw [evaluate_cons_ok rest (Prod.ext hs rfl)]
      exact .cons hs (ih _)

theorem Body.rebinds_of_stopsIn {scope scope' : Scope Literal} {body : List Stmt}
    {result : Except Error (List Stmt)} (h : StopsIn scope body result scope') :
    scope.Rebinds (boundNames body) scope' := by
  cases h with
  | atEnd assigned =>
    exact Assignment.rebinds_evaluateAll (fun a ha ↦ List.mem_map_of_mem ha) assigned
  | @atFailure before s rest _ _ _ split _ assigned _ =>
    refine Assignment.rebinds_evaluateAll (fun a ha ↦ List.mem_map_of_mem ?_) assigned
    rw [split, assignments_append]
    exact List.mem_append_left _ ha

/-! ### Both passes -/

/-- **Scope discipline.** Whatever frames are open and whatever they bind, a declaration, a
conditional and a rule leave the scope as it was, both when they are checked and when they are
evaluated to whatever result. An expression is only given a scope to read. A body rebinds, in the
innermost frame, the names that it assigns itself: all of its assignments are left when it was
checked or evaluated to its end, and those before the failing statement when the evaluation failed.
-/
theorem passes_confined :
    (∀ c : Checker,
      (∀ d : Declaration, ((Stmt.declaration d).check c).2.scope = c.scope) ∧
      (∀ (guard : Expr) (body : List Stmt) (otherwise : ElseBranch) (info : Info),
        ((Stmt.conditional guard body otherwise info).check c).2.scope = c.scope) ∧
      (∀ r : Rule, (r.check c).2.scope = c.scope) ∧
      ∀ body : List Stmt,
        c.scope.Rebinds (Body.boundNames body) (Body.check c body).2.scope ∧
        (Body.check c body).2.scope = Assignment.checkAll c.scope (Body.assignments body)) ∧
    ∀ scope : Scope Literal,
      (∀ d : Declaration, ((Stmt.declaration d).evaluate scope).2 = scope) ∧
      (∀ (guard : Expr) (body : List Stmt) (otherwise : ElseBranch) (info : Info),
        ((Stmt.conditional guard body otherwise info).evaluate scope).2 = scope) ∧
      (∀ r : Rule, (r.evaluate scope).2 = scope) ∧
      ∀ body : List Stmt,
        scope.Rebinds (Body.boundNames body) (Body.evaluate scope body).2 ∧
        Body.StopsIn scope body (Body.evaluate scope body).1 (Body.evaluate scope body).2 := by
  refine ⟨fun c ↦ ⟨Declaration.scope_check c, Stmt.scope_check_conditional c, Rule.scope_check c,
      fun body ↦ ⟨?_, Body.scope_check body c⟩⟩,
    fun scope ↦ ⟨fun _ ↦ rfl, Stmt.snd_evaluate_conditional scope, Rule.snd_evaluate scope,
      fun body ↦ ⟨?_, Body.stopsIn_evaluate body scope⟩⟩⟩
  · rw [Body.scope_check]
    exact Assignment.rebinds_checkAll (fun a ha ↦ List.mem_map_of_mem ha) c.scope
  · exact Body.rebinds_of_stopsIn (Body.stopsIn_evaluate body scope)

end TypedCss

import TypedCss.Proofs.Relabeling
import TypedCss.Proofs.Typing.Exact

/-!
# Well-typed sheets

A sheet is well typed if every assignment gives its variable a value of some type, every declaration
gives a known property a value of a type that it accepts, and every guard is a truth value. This is
what a sheet without violations is (`Body.wellTyped_iff`), so the checker finds nothing in a sheet
exactly if it is well typed (`Sheet.hasErrors_check_eq_false_iff`).

More may be known than a sheet needs (`Body.WellTyped.mono`), and it does not matter what its nodes
carry (`Item.allWellTyped_relabel_iff`).
-/

namespace TypedCss

/-! ### Rules for whole trees -/

/-- A known property is given a value of a type that it accepts. -/
def Declaration.WellTyped (env : TypeEnv) (d : Declaration) : Prop :=
  ∃ kind type, PropertyKind.ofName? d.property = some kind ∧ d.value.HasType env type ∧
    kind.accepts type = true

mutual

/-- The statements of a body are well typed, each in the environment after those before it. -/
def Body.WellTyped (env : TypeEnv) : List Stmt → Prop
  | [] => True
  | .declaration d :: rest => d.WellTyped env ∧ Body.WellTyped env rest
  | .assignment a :: rest =>
    ∃ type, a.value.HasType env type ∧ Body.WellTyped (env.set a.name (some type)) rest
  | .conditional guard body otherwise _ :: rest =>
    guard.HasType env .bool ∧ Body.WellTyped env body ∧ otherwise.WellTyped env ∧
      Body.WellTyped env rest

/-- The statements of an else branch are well typed. -/
def ElseBranch.WellTyped (env : TypeEnv) : ElseBranch → Prop
  | .absent => True
  | .present body _ => Body.WellTyped env body

end

/-- Items are well typed, each in the environment after those before it. -/
def Item.AllWellTyped (env : TypeEnv) : List Item → Prop
  | [] => True
  | .assignment a :: rest =>
    ∃ type, a.value.HasType env type ∧ AllWellTyped (env.set a.name (some type)) rest
  | .rule r :: rest => Body.WellTyped env r.body ∧ AllWellTyped env rest

/-- The items of a sheet are well typed. -/
def Sheet.WellTyped (s : Sheet) : Prop := Item.AllWellTyped .empty s.items

theorem ElseBranch.wellTyped_iff {env : TypeEnv} (e : ElseBranch) :
    e.WellTyped env ↔ Body.WellTyped env e.body := by
  cases e with
  | absent => simp only [WellTyped, body, Body.WellTyped]
  | present branch info => simp only [WellTyped, body]

/-! ### Trees without violations -/

/-- A node breaks no rule where it stands. -/
def Occurrence.Obeys (o : Occurrence) : Prop := ∀ cause, ¬ o.node.Violates o.env cause

/-- Every name that is known has a type. -/
def TypeEnv.IsTyped (env : TypeEnv) : Prop := ∀ name, env name ≠ some none

theorem TypeEnv.IsTyped.empty : IsTyped .empty := fun _ h ↦ by cases h

theorem TypeEnv.IsTyped.set {env : TypeEnv} (h : IsTyped env) (name : String) (type : ValueType) :
    IsTyped (Env.set env name (some type)) := by
  intro other ho
  rw [Env.set] at ho
  split at ho
  · cases ho
  · exact h other ho

section

variable {env : TypeEnv}

/-- A note is left where a rule is broken, so a node that obeys them gives no cause for one. -/
theorem Occurrence.obeys_iff {o : Occurrence} {cause? : Option Cause}
    (h : ∀ cause, cause? = some cause ↔ o.node.Violates o.env cause) :
    o.Obeys ↔ cause? = none := by
  rw [Obeys, Option.eq_none_iff_forall_ne_some]
  exact forall_congr' fun cause ↦ not_congr (h cause).symm

theorem Occurrence.Obeys.other (info : Info) (env : TypeEnv) : Obeys ⟨.other info, env⟩ :=
  fun _ h ↦ by cases h

/-- The nodes of an expression obey the rules if it has a type. -/
theorem Expr.exists_hasType_iff (h : TypeEnv.IsTyped env) (e : Expr) :
    (∃ type, e.HasType env type) ↔ ∀ o ∈ e.nodes env, o.Obeys := by
  induction e using Expr.pairInduction with
  | literal v info =>
    refine iff_of_true ⟨v.type, .literal v info⟩ fun o ho cause hv ↦ ?_
    obtain rfl := List.mem_singleton.1 ho
    cases hv
  | reference name info =>
    rw [nodes, List.forall_mem_singleton,
      Occurrence.obeys_iff (fun cause ↦ referenceCause?_eq_some_iff)]
    constructor
    · rintro ⟨type, ht⟩
      cases ht with
      | reference _ ht =>
        show referenceCause? name (env name) = none
        rw [ht, referenceCause?]
    · intro hn
      replace hn : referenceCause? name (env name) = none := hn
      cases ht : env name with
      | none =>
        rw [ht] at hn
        cases hn
      | some t =>
        cases t with
        | none => exact absurd ht (h name)
        | some type => exact ⟨type, .reference info ht⟩
  | pair op left right info ihl ihr =>
    rw [nodes, List.forall_mem_cons, List.forall_mem_append, ← ihl, ← ihr,
      Occurrence.obeys_iff (fun cause ↦ pairCause?_eq_some_iff)]
    simp only [← typeIn_eq_some_iff, typeIn]
    constructor
    · rintro ⟨type, ht⟩
      obtain ⟨s, t, hs, ht, hop⟩ := Operator.typeOf?_eq_some_iff.1 ht
      refine ⟨?_, ⟨s, hs⟩, t, ht⟩
      simp [hs, ht, Operator.cause?, hop]
    · rintro ⟨hn, ⟨s, hs⟩, t, ht⟩
      rw [hs, ht] at hn ⊢
      exact Operator.exists_typeOf?_of_cause?_eq_none hn
  | unpaired op operands info hn =>
    rw [nodes_unpaired env hn, List.forall_mem_cons]
    refine iff_of_false ?_ fun ho ↦ ho.1 _ (.operandArity hn)
    rintro ⟨type, ht⟩
    rw [← typeIn_eq_some_iff, typeIn_unpaired env hn] at ht
    cases ht

/-- A declaration and its value obey the rules if the declaration is well typed. -/
theorem Declaration.wellTyped_iff (h : TypeEnv.IsTyped env) (d : Declaration) :
    d.WellTyped env ↔
      Occurrence.Obeys ⟨.declaration d, env⟩ ∧ ∀ o ∈ d.value.nodes env, o.Obeys := by
  rw [← Expr.exists_hasType_iff h, Occurrence.obeys_iff (fun cause ↦ cause?_eq_some_iff)]
  constructor
  · rintro ⟨kind, type, hk, ht, ha⟩
    refine ⟨?_, type, ht⟩
    simp [cause?, hk, Expr.typeIn_eq_some_iff.2 ht, ha]
  · rintro ⟨hn, type, ht⟩
    rw [Expr.typeIn_eq_some_iff.2 ht] at hn
    obtain ⟨kind, hk, ha⟩ := exists_kind_of_cause?_eq_none hn
    exact ⟨kind, type, hk, ht, ha⟩

/-- A guard and the conditional that it decides obey the rules if the guard is a truth value. -/
theorem Stmt.guard_hasType_iff (h : TypeEnv.IsTyped env) (guard : Expr) (info : Info) :
    guard.HasType env .bool ↔
      Occurrence.Obeys ⟨.conditional guard info, env⟩ ∧ ∀ o ∈ guard.nodes env, o.Obeys := by
  rw [← Expr.exists_hasType_iff h, Occurrence.obeys_iff (fun cause ↦ guardCause?_eq_some_iff)]
  constructor
  · intro ht
    refine ⟨?_, .bool, ht⟩
    rw [Expr.typeIn_eq_some_iff.2 ht, guardCause?]
  · rintro ⟨hn, type, ht⟩
    rw [Expr.typeIn_eq_some_iff.2 ht] at hn
    cases type with
    | bool => exact ht
    | color | pixel | percentage | scalar => all_goals cases hn

end

/-- The nodes of a body obey the rules if the body is well typed. -/
theorem Body.wellTyped_iff (body : List Stmt) : ∀ {env : TypeEnv}, TypeEnv.IsTyped env →
    (Body.WellTyped env body ↔ ∀ o ∈ Body.nodes env body, o.Obeys) := by
  induction body using Body.induction with
  | nil => exact fun _ ↦ iff_of_true trivial fun o ho ↦ by cases ho
  | declaration d rest ih =>
    intro env h
    rw [WellTyped, nodes, Stmt.nodes, List.forall_mem_append, List.forall_mem_cons,
      d.wellTyped_iff h, ih h, Stmt.extend]
  | assignment a rest ih =>
    intro env h
    rw [WellTyped, nodes, Stmt.nodes, Assignment.nodes, List.forall_mem_append,
      List.forall_mem_cons, ← Expr.exists_hasType_iff h, Stmt.extend]
    constructor
    · rintro ⟨type, ht, hr⟩
      rw [Expr.typeIn_eq_some_iff.2 ht]
      exact ⟨⟨.other _ _, type, ht⟩, (ih (h.set a.name type)).1 hr⟩
    · rintro ⟨⟨-, type, ht⟩, hr⟩
      rw [Expr.typeIn_eq_some_iff.2 ht] at hr
      exact ⟨type, ht, (ih (h.set a.name type)).2 hr⟩
  | conditional guard body otherwise info rest ihBody ihElse ihRest =>
    intro env h
    have helse : otherwise.WellTyped env ↔ ∀ o ∈ otherwise.nodes env, o.Obeys := by
      rw [ElseBranch.wellTyped_iff, ihElse h]
      cases otherwise with
      | absent => exact Iff.rfl
      | present branch i =>
        rw [ElseBranch.nodes, List.forall_mem_cons, ElseBranch.body]
        exact (and_iff_right (.other i env)).symm
    rw [WellTyped, nodes, Stmt.nodes, List.forall_mem_append, List.forall_mem_cons,
      List.forall_mem_append, List.forall_mem_append, Stmt.guard_hasType_iff h guard info,
      ihBody h, helse, ihRest h, Stmt.extend]
    simp only [and_assoc]

/-- The nodes of items obey the rules if the items are well typed. -/
theorem Item.allWellTyped_iff (items : List Item) : ∀ {env : TypeEnv}, TypeEnv.IsTyped env →
    (Item.AllWellTyped env items ↔ ∀ o ∈ Item.nodesOfAll env items, o.Obeys) := by
  induction items with
  | nil => exact fun _ ↦ iff_of_true trivial fun o ho ↦ by cases ho
  | cons i rest ih =>
    intro env h
    cases i with
    | assignment a =>
      rw [AllWellTyped, nodesOfAll, Assignment.nodes, List.forall_mem_append, List.forall_mem_cons,
        ← Expr.exists_hasType_iff h]
      constructor
      · rintro ⟨type, ht, hr⟩
        rw [Expr.typeIn_eq_some_iff.2 ht]
        exact ⟨⟨.other _ _, type, ht⟩, (ih (h.set a.name type)).1 hr⟩
      · rintro ⟨⟨-, type, ht⟩, hr⟩
        rw [Expr.typeIn_eq_some_iff.2 ht] at hr
        exact ⟨type, ht, (ih (h.set a.name type)).2 hr⟩
    | rule r =>
      rw [AllWellTyped, nodesOfAll, List.forall_mem_cons, List.forall_mem_append,
        Body.wellTyped_iff r.body h, ih h]
      exact (and_iff_right (.other r.info env)).symm

/-! ### What the checker accepts -/

/-- A node is clean after its report if it was before and obeys the rules. -/
theorem Occurrence.IsReported.isClean_iff {o : Occurrence} {new : Info} (h : o.IsReported new) :
    new.isClean = true ↔ o.node.info.isClean = true ∧ o.Obeys := by
  rcases h.atMostOne with he | ⟨cause, he⟩
  · rw [he]
    refine (and_iff_left ?_).symm
    intro cause hv
    exact o.node.info.report_ne cause (((h.exact cause).2 hv).symm.trans he)
  · refine iff_of_false ?_ fun ho ↦ ho.2 cause ((h.exact cause).1 he)
    rw [he, Info.isClean_report]
    exact Bool.false_ne_true

/-- The checker finds nothing in a sheet exactly if nothing was reported on it before and it is well
typed. -/
theorem Sheet.hasErrors_check_eq_false_iff (s : Sheet) :
    s.check.1.hasErrors = false ↔ s.hasErrors = false ∧ s.WellTyped := by
  have hwell : s.WellTyped ↔ ∀ o ∈ s.nodes, o.Obeys := by
    rw [WellTyped, nodes, List.forall_mem_cons, Item.allWellTyped_iff s.items .empty]
    exact (and_iff_right (.other s.info _)).symm
  have hclean : ∀ {os : List Occurrence} {is : List Info},
      List.Forall₂ Occurrence.IsReported os is → ((∀ i ∈ is, i.isClean = true) ↔
        (∀ o ∈ os, o.node.info.isClean = true) ∧ ∀ o ∈ os, o.Obeys) := by
    intro os is h
    induction h with
    | nil => simp
    | cons ho _ ih => simp only [List.forall_mem_cons, ih, ho.isClean_iff, and_and_and_comm]
  have hany : ∀ is : List Info, (is.any (!·.isClean) = false ↔ ∀ i ∈ is, i.isClean = true) := by
    intro is
    simp [List.any_eq_false]
  rw [hasErrors_eq_any, hasErrors_eq_any, hany, hany, hclean s.isReported_check, hwell,
    ← info_nodes, List.forall_mem_map]

/-! ### More may be known -/

theorem Expr.HasType.mono {env env' : TypeEnv} (h : env.Within env') {e : Expr} {type : ValueType}
    (he : e.HasType env type) : e.HasType env' type := by
  induction he with
  | literal v info => exact .literal v info
  | reference info hn => exact .reference info (h _ _ hn)
  | sum info hop _ _ ihl ihr => exact .sum info hop ihl ihr
  | scaling info _ _ ihl ihr => exact .scaling info ihl ihr
  | scaled info _ _ ihl ihr => exact .scaled info ihl ihr

/-- A body stays well typed where more is known. -/
theorem Body.WellTyped.mono {body : List Stmt} : ∀ {env env' : TypeEnv}, env.Within env' →
    Body.WellTyped env body → Body.WellTyped env' body := by
  induction body using Body.induction with
  | nil => exact fun _ _ ↦ trivial
  | declaration d rest ih =>
    intro env env' h hb
    obtain ⟨⟨kind, type, hk, ht, ha⟩, hr⟩ := hb
    exact ⟨⟨kind, type, hk, ht.mono h, ha⟩, ih h hr⟩
  | assignment a rest ih =>
    intro env env' h hb
    obtain ⟨type, ht, hr⟩ := hb
    exact ⟨type, ht.mono h, ih (h.set a.name _) hr⟩
  | conditional guard body otherwise info rest ihBody ihElse ihRest =>
    intro env env' h hb
    obtain ⟨hg, hb, he, hr⟩ := hb
    refine ⟨hg.mono h, ihBody h hb, ?_, ihRest h hr⟩
    rw [ElseBranch.wellTyped_iff] at he ⊢
    exact ihElse h he

/-- Items stay well typed where more is known. -/
theorem Item.AllWellTyped.mono {items : List Item} : ∀ {env env' : TypeEnv}, env.Within env' →
    Item.AllWellTyped env items → Item.AllWellTyped env' items := by
  induction items with
  | nil => exact fun _ _ ↦ trivial
  | cons i rest ih =>
    intro env env' h hi
    cases i with
    | assignment a =>
      obtain ⟨type, ht, hr⟩ := hi
      exact ⟨type, ht.mono h, ih (h.set a.name _) hr⟩
    | rule r => exact ⟨hi.1.mono h, ih h hi.2⟩

/-- Items that are well typed by themselves are well typed after others. -/
theorem Item.AllWellTyped.append {xs ys : List Item} (hy : Item.AllWellTyped .empty ys) :
    ∀ {env : TypeEnv}, Item.AllWellTyped env xs → Item.AllWellTyped env (xs ++ ys) := by
  induction xs with
  | nil => exact fun {env} _ ↦ hy.mono env.empty_within
  | cons i rest ih =>
    intro env hx
    cases i with
    | assignment a =>
      obtain ⟨type, ht, hr⟩ := hx
      exact ⟨type, ht, ih hr⟩
    | rule r => exact ⟨hx.1, ih hx.2⟩

/-! ### Relabeled trees -/

section

variable (f : Info → Info)

theorem Expr.typeIn_relabel (env : TypeEnv) (e : Expr) :
    (e.relabel f).typeIn env = e.typeIn env := by
  induction e using Expr.pairInduction with
  | literal v info => rfl
  | reference name info => rfl
  | pair op left right info ihl ihr =>
    simp only [relabel, listRelabel, typeIn, ihl, ihr]
  | unpaired op operands info hn =>
    rw [relabel, typeIn_unpaired env hn, typeIn_unpaired env]
    rwa [length_listRelabel]

theorem Expr.hasType_relabel_iff {env : TypeEnv} {e : Expr} {type : ValueType} :
    (e.relabel f).HasType env type ↔ e.HasType env type := by
  rw [← typeIn_eq_some_iff, typeIn_relabel, typeIn_eq_some_iff]

theorem Body.wellTyped_relabel_iff (body : List Stmt) : ∀ {env : TypeEnv},
    Body.WellTyped env (Body.relabel f body) ↔ Body.WellTyped env body := by
  induction body using Body.induction with
  | nil => exact Iff.rfl
  | declaration d rest ih =>
    intro env
    simp only [relabel, Stmt.relabel, WellTyped, Declaration.WellTyped, Declaration.relabel,
      Expr.hasType_relabel_iff, ih]
  | assignment a rest ih =>
    intro env
    simp only [relabel, Stmt.relabel, WellTyped, Assignment.relabel, Expr.hasType_relabel_iff, ih]
  | conditional guard body otherwise info rest ihBody ihElse ihRest =>
    intro env
    simp only [relabel, Stmt.relabel, WellTyped, ElseBranch.wellTyped_iff,
      ElseBranch.body_relabel, Expr.hasType_relabel_iff, ihBody, ihElse, ihRest]

/-- Whether items are well typed does not depend on what their nodes carry. -/
theorem Item.allWellTyped_relabel_iff (items : List Item) : ∀ {env : TypeEnv},
    Item.AllWellTyped env (items.map (Item.relabel f)) ↔ Item.AllWellTyped env items := by
  induction items with
  | nil => exact Iff.rfl
  | cons i rest ih =>
    intro env
    cases i with
    | assignment a =>
      simp only [List.map_cons, relabel, AllWellTyped, Assignment.relabel,
        Expr.hasType_relabel_iff, ih]
    | rule r =>
      simp only [List.map_cons, relabel, AllWellTyped, Rule.relabel, Body.wellTyped_relabel_iff,
        ih]

end

end TypedCss

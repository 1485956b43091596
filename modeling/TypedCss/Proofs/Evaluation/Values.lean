import TypedCss.Proofs.Evaluation.Denotation
import TypedCss.Proofs.Typing.Notes

/-!
# Which values a sheet comes to

A value is a literal of the sheet, or an operation gave it. So what holds of all literals of a sheet
and of whatever operations give, holds of all literals of what the sheet evaluates to
(`Sheet.forall_literals_evaluate`). The selectors of the rules stay as they are
(`Sheet.selectors_evaluate`).
-/

namespace TypedCss

/-! ### Literals -/

mutual

/-- The literals in an expression. -/
def Expr.literals : Expr → List Literal
  | .literal v _ => [v]
  | .reference _ _ => []
  | .operation _ es _ => Expr.listLiterals es

/-- The literals in several expressions. -/
def Expr.listLiterals : List Expr → List Literal
  | [] => []
  | e :: es => e.literals ++ Expr.listLiterals es

end

/-- The literals in the expressions of a sheet. -/
def Sheet.literals (s : Sheet) : List Literal := s.exprs.flatMap Expr.literals

theorem ElseBranch.exprs_eq (e : ElseBranch) : e.exprs = Body.exprs e.body := by
  cases e <;> rfl

theorem Body.exprs_eq_flatMap (body : List Stmt) : Body.exprs body = body.flatMap Stmt.exprs := by
  induction body with
  | nil => rfl
  | cons s rest ih => exact congrArg (s.exprs ++ ·) ih

/-- The literals in a declaration of a rule are literals of the sheet. -/
theorem Sheet.mem_literals {s : Sheet} {r : Rule} (hr : .rule r ∈ s.items) {d : Declaration}
    (hd : .declaration d ∈ r.body) {v : Literal} (hv : v ∈ d.value.literals) : v ∈ s.literals := by
  have hbody : d.value ∈ Body.exprs r.body := by
    rw [Body.exprs_eq_flatMap]
    exact List.mem_flatMap.2 ⟨_, hd, List.mem_singleton_self _⟩
  exact List.mem_flatMap.2 ⟨d.value, List.mem_flatMap.2 ⟨_, hr, hbody⟩, hv⟩

/-! ### What holds of all values -/

section

variable {p : Literal → Prop} {env : Env Literal}
  (hp : ∀ {op : Operator} {l r v : Literal}, op.fold? l r = some v → p v)
include hp

theorem Expr.of_valueIn_eq_ok (henv : env.All p) {e : Expr} {v : Literal}
    (he : ∀ w ∈ e.literals, p w) (h : e.valueIn env = .ok v) : p v := by
  induction e using Expr.pairInduction with
  | literal w info =>
    obtain rfl := pure_eq_ok_iff.1 h
    exact he w (List.mem_singleton_self w)
  | reference name info => exact henv name v (valueIn_reference_eq_ok_iff.1 h)
  | pair op left right info _ _ =>
    obtain ⟨l, r, -, -, hop⟩ := valueIn_pair_eq_ok_iff.1 h
    exact hp hop
  | unpaired op operands info hn =>
    rw [valueIn_unpaired env hn] at h
    cases h

/-- What holds of the literals of a body holds of the values that it comes to. -/
theorem Body.forall_literals_denote (body : List Stmt) : ∀ {env : Env Literal}
    {ds : List Declaration}, env.All p → (∀ e ∈ Body.exprs body, ∀ v ∈ e.literals, p v) →
      Body.denote env body = .ok ds → ∀ d ∈ ds, ∀ v ∈ d.value.literals, p v := by
  induction body using Body.induction with
  | nil =>
    rintro env ds - - ⟨⟩ d ⟨⟩
  | declaration d rest ih =>
    intro env ds henv hb h
    obtain ⟨hd, hr⟩ := List.forall_mem_cons.1 hb
    obtain ⟨v, later, hv, hl, rfl⟩ := denote_declaration_eq_ok_iff.1 h
    refine List.forall_mem_cons.2 ⟨?_, ih henv hr hl⟩
    exact List.forall_mem_singleton.2 (Expr.of_valueIn_eq_ok hp henv hd hv)
  | assignment a rest ih =>
    intro env ds henv hb h
    obtain ⟨ha, hr⟩ := List.forall_mem_cons.1 hb
    obtain ⟨v, hv, hl⟩ := denote_assignment_eq_ok_iff.1 h
    exact ih (henv.set a.name (Expr.of_valueIn_eq_ok hp henv ha hv)) hr hl
  | conditional guard body otherwise info rest ihBody ihElse ihRest =>
    intro env ds henv hb h
    obtain ⟨hs, hr⟩ := List.forall_mem_append.1 hb
    obtain ⟨hbody, helse⟩ := List.forall_mem_append.1 (List.forall_mem_cons.1 hs).2
    obtain ⟨b, branch, later, -, hbranch, hl, rfl⟩ := denote_conditional_eq_ok_iff.1 h
    refine List.forall_mem_append.2 ⟨?_, ihRest henv hr hl⟩
    cases b with
    | true => exact ihBody henv hbody hbranch
    | false =>
      rw [ElseBranch.exprs_eq] at helse
      exact ihElse henv helse hbranch

/-- What holds of the literals of items holds of the values that they come to. -/
theorem Item.forall_literals_denoteAll (items : List Item) : ∀ {env : Env Literal}
    {rs : List Rule}, env.All p → (∀ e ∈ items.flatMap Item.exprs, ∀ v ∈ e.literals, p v) →
      Item.denoteAll env items = .ok rs →
        ∀ e ∈ (rs.map .rule).flatMap Item.exprs, ∀ v ∈ e.literals, p v := by
  induction items with
  | nil =>
    rintro env rs - - ⟨⟩ e ⟨⟩
  | cons i rest ih =>
    intro env rs henv hi h
    obtain ⟨hfirst, hr⟩ := List.forall_mem_append.1 hi
    cases i with
    | assignment a =>
      obtain ⟨v, hv, hl⟩ := denoteAll_assignment_eq_ok_iff.1 h
      have ha : ∀ v ∈ a.value.literals, p v := List.forall_mem_singleton.1 hfirst
      exact ih (henv.set a.name (Expr.of_valueIn_eq_ok hp henv ha hv)) hr hl
    | rule r =>
      obtain ⟨ds, later, hb, hl, rfl⟩ := denoteAll_rule_eq_ok_iff.1 h
      refine List.forall_mem_append.2 ⟨?_, ih henv hr hl⟩
      show ∀ e ∈ Body.exprs (ds.map .declaration), ∀ v ∈ e.literals, p v
      rw [Body.exprs_eq_flatMap, List.forall_mem_flatMap, List.forall_mem_map]
      intro d hd
      exact List.forall_mem_singleton.2 (Body.forall_literals_denote hp r.body henv hfirst hb d hd)

/-- What holds of the literals of a sheet holds of the values that it evaluates to. -/
theorem Sheet.forall_literals_evaluate {s t : Sheet} (hs : ∀ v ∈ s.literals, p v)
    (h : s.evaluate = .ok t) : ∀ v ∈ t.literals, p v := by
  obtain ⟨rs, hd, rfl⟩ := evaluate_eq_ok_iff.1 h
  exact List.forall_mem_flatMap.2
    (Item.forall_literals_denoteAll hp s.items .empty (List.forall_mem_flatMap.1 hs) hd)

end

/-! ### Selectors -/

theorem Item.selectors_denoteAll {items : List Item} {env : Env Literal} {rs : List Rule}
    (h : Item.denoteAll env items = .ok rs) :
    rs.map Rule.selectors = (items.filterMap Item.rule?).map Rule.selectors := by
  replace h := forall₂_denoteAll items h
  generalize items.filterMap Item.rule? = rules at h ⊢
  induction h with
  | nil => rfl
  | cons hr _ ih =>
    obtain ⟨env, ds, -, rfl⟩ := hr
    rw [List.map_cons, List.map_cons, ih]

/-- Evaluation keeps the rules of a sheet in their order, and the selectors of each. -/
theorem Sheet.selectors_evaluate {s t : Sheet} (h : s.evaluate = .ok t) :
    t.rules.map Rule.selectors = s.rules.map Rule.selectors := by
  obtain ⟨rs, hd, rfl⟩ := evaluate_eq_ok_iff.1 h
  rw [rules_map_rule]
  exact Item.selectors_denoteAll hd

end TypedCss

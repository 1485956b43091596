import TypedCss.Proofs.Evaluation.Resolved
import TypedCss.Proofs.Typing.Soundness
import TypedCss.Proofs.Typing.WellTyped

/-!
# Evaluated sheets

What is left of a sheet when it was checked and evaluated are rules, and in them declarations that
give their properties values which they accept. Such a sheet `IsNormal`
(`Sheet.isNormal_of_evaluate`). There is nothing to check in it and nothing to evaluate: it is well
typed (`Sheet.IsNormal.wellTyped`) and resolved (`Sheet.IsNormal.isResolved`). All of this can be
seen from the shape of a sheet (`Sheet.IsNormal.of_shape_eq`).
-/

namespace TypedCss

/-! ### Normal trees -/

/-- A declaration that gives its property a value which it accepts. -/
def Stmt.IsNormal : Stmt → Prop
  | .declaration d => d.IsAccepted
  | _ => False

/-- A rule of such declarations. -/
def Item.IsNormal : Item → Prop
  | .rule r => ∀ s ∈ r.body, s.IsNormal
  | .assignment _ => False

/-- A sheet of such rules. -/
def Sheet.IsNormal (s : Sheet) : Prop := ∀ i ∈ s.items, i.IsNormal

/-- A normal statement is a declaration. -/
theorem Stmt.IsNormal.exists_eq {s : Stmt} (h : s.IsNormal) :
    ∃ d : Declaration, s = .declaration d ∧ d.IsAccepted := by
  cases s with
  | declaration d => exact ⟨d, rfl, h⟩
  | assignment | conditional => exact h.elim

/-- A normal item is a rule of normal statements. -/
theorem Item.IsNormal.exists_eq {i : Item} (h : i.IsNormal) :
    ∃ r : Rule, i = .rule r ∧ ∀ s ∈ r.body, s.IsNormal := by
  cases i with
  | rule r => exact ⟨r, rfl, h⟩
  | assignment => exact h.elim

/-! ### Shapes -/

section

variable (f : Info → Info)

theorem Declaration.isAccepted_relabel_iff (d : Declaration) :
    (d.relabel f).IsAccepted ↔ d.IsAccepted := by
  obtain ⟨property, value, info⟩ := d
  constructor
  · rintro ⟨kind, v, i, hk, hv, ha⟩
    cases value with
    | literal w j =>
      obtain rfl := (Expr.literal.inj hv).1
      exact ⟨kind, w, j, hk, rfl, ha⟩
    | reference | operation => all_goals cases hv
  · rintro ⟨kind, v, i, hk, rfl, ha⟩
    exact ⟨kind, v, f i, hk, rfl, ha⟩

theorem Stmt.isNormal_relabel_iff (s : Stmt) : (s.relabel f).IsNormal ↔ s.IsNormal := by
  cases s with
  | declaration d => exact d.isAccepted_relabel_iff f
  | assignment | conditional => exact Iff.rfl

theorem Item.isNormal_relabel_iff (i : Item) : (i.relabel f).IsNormal ↔ i.IsNormal := by
  cases i with
  | rule r =>
    show (∀ s ∈ Body.relabel f r.body, s.IsNormal) ↔ ∀ s ∈ r.body, s.IsNormal
    simp only [Body.relabel_eq_map, List.forall_mem_map, Stmt.isNormal_relabel_iff]
  | assignment => exact Iff.rfl

/-- Whether a sheet is normal does not depend on what its nodes carry. -/
theorem Sheet.isNormal_relabel_iff (s : Sheet) : (s.relabel f).IsNormal ↔ s.IsNormal := by
  show (∀ i ∈ s.items.map (Item.relabel f), i.IsNormal) ↔ ∀ i ∈ s.items, i.IsNormal
  simp only [List.forall_mem_map, Item.isNormal_relabel_iff]

end

/-- A sheet of the shape of a normal one is normal. -/
theorem Sheet.IsNormal.of_shape_eq {s t : Sheet} (h : s.IsNormal) (hst : t.shape = s.shape) :
    t.IsNormal := by
  rw [shape_eq_relabel, shape_eq_relabel] at hst
  rwa [← isNormal_relabel_iff fun _ ↦ .null, hst, isNormal_relabel_iff]

/-! ### Checking -/

/-- Normal statements are well typed in every environment: they use no variable. -/
theorem Body.wellTyped_of_isNormal {body : List Stmt} (h : ∀ s ∈ body, s.IsNormal)
    (env : TypeEnv) : Body.WellTyped env body := by
  induction body with
  | nil => trivial
  | cons s rest ih =>
    obtain ⟨hs, hr⟩ := List.forall_mem_cons.1 h
    obtain ⟨d, rfl, kind, v, info, hk, hv, ha⟩ := hs.exists_eq
    refine ⟨⟨kind, v.type, hk, ?_, ha⟩, ih hr⟩
    rw [hv]
    exact .literal v info

/-- A normal sheet is well typed. -/
theorem Sheet.IsNormal.wellTyped {s : Sheet} (h : s.IsNormal) : s.WellTyped := by
  obtain ⟨items, info⟩ := s
  show Item.AllWellTyped .empty items
  induction items with
  | nil => trivial
  | cons i rest ih =>
    obtain ⟨hi, hr⟩ := List.forall_mem_cons.1 h
    obtain ⟨r, rfl, hbody⟩ := hi.exists_eq
    exact ⟨Body.wellTyped_of_isNormal hbody .empty, ih hr⟩

/-! ### Evaluating -/

theorem Stmt.IsNormal.isResolved {s : Stmt} (h : s.IsNormal) : s.IsResolved := by
  obtain ⟨d, rfl, kind, v, info, -, hv, -⟩ := h.exists_eq
  exact ⟨v, info, hv⟩

/-- A normal sheet has nothing left to evaluate. -/
theorem Sheet.IsNormal.isResolved {s : Sheet} (h : s.IsNormal) : s.IsResolved := by
  intro i hi
  obtain ⟨r, rfl, hbody⟩ := (h i hi).exists_eq
  exact fun stmt hs ↦ (hbody stmt hs).isResolved

/-! ### What evaluation leaves -/

theorem Body.allDeclarations_map_declaration (ds : List Declaration) :
    Body.allDeclarations (ds.map .declaration) = ds := by
  induction ds with
  | nil => rfl
  | cons d ds ih => exact congrArg (d :: ·) ih

/-- The rules that items come to hold declarations only. -/
theorem Item.exists_body_of_denoteAll {items : List Item} {env : Env Literal} {rs : List Rule}
    (h : Item.denoteAll env items = .ok rs) :
    ∀ r ∈ rs, ∃ ds : List Declaration, r.body = ds.map .declaration := by
  replace h := forall₂_denoteAll items h
  generalize items.filterMap Item.rule? = rules at h
  induction h with
  | nil => exact List.forall_mem_nil _
  | cons hr _ ih =>
    obtain ⟨env, ds, -, rfl⟩ := hr
    exact List.forall_mem_cons.2 ⟨⟨ds, rfl⟩, ih⟩

/-- What is left of a sheet without errors is normal. -/
theorem Sheet.isNormal_of_evaluate {s t : Sheet} (hs : s.check.1.hasErrors = false)
    (h : s.evaluate = .ok t) : t.IsNormal := by
  have hitems : (Item.checkAll .start s.items).1.any Item.hasErrors = false :=
    (Bool.or_eq_false_iff.1 hs).2
  rcases Item.evaluateAll_sound s.items (c := .start) .empty hitems with
    ⟨out, ho, hacc⟩ | ⟨clash, hc, -⟩
  · obtain ⟨rs, hd, rfl⟩ := evaluate_eq_ok_iff.1 h
    rw [Item.evaluateAll_eq, Scope.lookup_empty_eq, hd] at ho
    obtain rfl : rs.map Item.rule = out := Except.ok.inj ho
    intro i hi
    obtain ⟨r, hr, rfl⟩ := List.mem_map.1 hi
    obtain ⟨ds, hbody⟩ := Item.exists_body_of_denoteAll hd r hr
    intro stmt hstmt
    rw [hbody] at hstmt
    obtain ⟨d, hds, rfl⟩ := List.mem_map.1 hstmt
    refine hacc d (List.mem_flatMap.2 ⟨.rule r, hi, ?_⟩)
    show d ∈ Body.allDeclarations r.body
    rwa [hbody, Body.allDeclarations_map_declaration]
  · rw [evaluate_of_stopsAt hc] at h
    cases h

end TypedCss

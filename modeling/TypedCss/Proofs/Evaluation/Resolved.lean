import TypedCss.Proofs.Evaluation.Denotation
import TypedCss.Proofs.Relabeling

/-!
# Resolved sheets

A sheet is resolved if it consists of rules, and these of declarations whose values are literals.
There is nothing left to evaluate in it: it evaluates to itself, without what was reported on it
(`Sheet.IsResolved.evaluate_eq`).

Every sheet that evaluates to something evaluates to a resolved one, whether it was checked or not.
`Rule.ResolvesTo` says what is left of one rule. Its declarations are some of those of the rule at
any depth, in their order and each taken at most once (`Body.exists_sublist_of_denote`), and nothing
is reported on them. So the second evaluation changes nothing (`Sheet.evaluate_normalizes`).
-/

namespace TypedCss

/-! ### Resolved trees -/

/-- A declaration whose value is a literal. -/
def Stmt.IsResolved : Stmt → Prop
  | .declaration d => ∃ v info, d.value = .literal v info
  | _ => False

/-- A rule of such declarations. -/
def Item.IsResolved : Item → Prop
  | .rule r => ∀ s ∈ r.body, s.IsResolved
  | .assignment _ => False

/-- A sheet of such rules. -/
def Sheet.IsResolved (s : Sheet) : Prop := ∀ i ∈ s.items, i.IsResolved

theorem Stmt.IsResolved.exists_eq {s : Stmt} (h : s.IsResolved) :
    ∃ property v vinfo info, s = .declaration ⟨property, .literal v vinfo, info⟩ := by
  cases s with
  | declaration d =>
    obtain ⟨property, value, info⟩ := d
    obtain ⟨v, vinfo, rfl⟩ := h
    exact ⟨property, v, vinfo, info, rfl⟩
  | assignment | conditional => exact h.elim

theorem Item.IsResolved.exists_eq {i : Item} (h : i.IsResolved) :
    ∃ r : Rule, i = .rule r ∧ ∀ s ∈ r.body, s.IsResolved := by
  cases i with
  | rule r => exact ⟨r, rfl, h⟩
  | assignment => exact h.elim

/-- Resolved statements come to themselves. -/
theorem Body.denote_of_isResolved {body : List Stmt} (h : ∀ s ∈ body, s.IsResolved)
    (env : Env Literal) : ∃ ds, Body.denote env body = .ok ds ∧
      ds.map .declaration = Body.relabel Info.bare body := by
  induction body with
  | nil => exact ⟨[], rfl, rfl⟩
  | cons s rest ih =>
    obtain ⟨hs, hr⟩ := List.forall_mem_cons.1 h
    obtain ⟨property, v, vinfo, info, rfl⟩ := hs.exists_eq
    obtain ⟨later, hl, hmap⟩ := ih hr
    exact ⟨_, denote_declaration_eq_ok_iff.2 ⟨v, later, rfl, hl, rfl⟩, congrArg (_ :: ·) hmap⟩

theorem Item.denoteAll_of_isResolved {items : List Item} (h : ∀ i ∈ items, i.IsResolved)
    (env : Env Literal) : ∃ rs, Item.denoteAll env items = .ok rs ∧
      rs.map .rule = items.map (Item.relabel Info.bare) := by
  induction items with
  | nil => exact ⟨[], rfl, rfl⟩
  | cons i rest ih =>
    obtain ⟨hi, hr⟩ := List.forall_mem_cons.1 h
    obtain ⟨r, rfl, hbody⟩ := hi.exists_eq
    obtain ⟨ds, hd, hds⟩ := Body.denote_of_isResolved hbody env
    obtain ⟨later, hl, hmap⟩ := ih hr
    refine ⟨_, denoteAll_rule_eq_ok_iff.2 ⟨ds, later, hd, hl, rfl⟩, ?_⟩
    rw [List.map_cons, List.map_cons, hmap, hds]
    rfl

/-- A resolved sheet evaluates to itself, without what was reported on it. -/
theorem Sheet.IsResolved.evaluate_eq {s : Sheet} (h : s.IsResolved) :
    s.evaluate = .ok (s.relabel Info.bare) := by
  obtain ⟨rs, hd, hmap⟩ := Item.denoteAll_of_isResolved h .empty
  exact evaluate_eq_ok_iff.2 ⟨rs, hd, congrArg (Sheet.mk · _) hmap⟩

/-! ### What a body comes to -/

theorem ElseBranch.allDeclarations_eq (e : ElseBranch) :
    e.allDeclarations = Body.allDeclarations e.body := by
  cases e <;> rfl

/-- A body comes to some of its declarations, each with a value in the place of its expression. -/
theorem Body.exists_sublist_of_denote (body : List Stmt) : ∀ {env : Env Literal}
    {ds : List Declaration}, Body.denote env body = .ok ds →
      ∃ taken : List (Declaration × Literal),
        (taken.map Prod.fst).Sublist (Body.allDeclarations body) ∧
          ds = taken.map fun p ↦ p.1.holding p.2 := by
  induction body using Body.induction with
  | nil =>
    rintro env ds ⟨⟩
    exact ⟨[], .slnil, rfl⟩
  | declaration d rest ih =>
    intro env ds h
    obtain ⟨v, later, -, hl, rfl⟩ := denote_declaration_eq_ok_iff.1 h
    obtain ⟨taken, hsub, rfl⟩ := ih hl
    exact ⟨(d, v) :: taken, hsub.cons_cons d, rfl⟩
  | assignment a rest ih =>
    intro env ds h
    obtain ⟨v, -, hl⟩ := denote_assignment_eq_ok_iff.1 h
    exact ih hl
  | conditional guard body otherwise info rest ihBody ihElse ihRest =>
    intro env ds h
    obtain ⟨b, branch, later, -, hb, hl, rfl⟩ := denote_conditional_eq_ok_iff.1 h
    obtain ⟨takenLater, hsubLater, rfl⟩ := ihRest hl
    -- One branch gives declarations. Those of the other one are left out.
    obtain ⟨taken, hsub, rfl⟩ : ∃ taken : List (Declaration × Literal),
        (taken.map Prod.fst).Sublist (allDeclarations body ++ otherwise.allDeclarations) ∧
          branch = taken.map fun p ↦ p.1.holding p.2 := by
      cases b with
      | true =>
        obtain ⟨taken, hsub, hnew⟩ := ihBody hb
        exact ⟨taken, hsub.trans (List.sublist_append_left ..), hnew⟩
      | false =>
        obtain ⟨taken, hsub, hnew⟩ := ihElse hb
        rw [ElseBranch.allDeclarations_eq]
        exact ⟨taken, hsub.trans (List.sublist_append_right ..), hnew⟩
    refine ⟨taken ++ takenLater, ?_, List.map_append.symm⟩
    rw [List.map_append]
    exact hsub.append hsubLater

/-! ### What a rule comes to -/

/-- What a declaration keeps when it is given a value: its property, where it stands, and where its
value stands. -/
def Declaration.origin (d : Declaration) : String × Span × Span :=
  (d.property, d.info.span, d.value.span)

/-- `r.ResolvesTo new` says that `new` stands where `r` did, with the same selectors and with some
of its declarations, which have values. -/
structure Rule.ResolvesTo (r new : Rule) : Prop where
  /-- The selectors are the same. -/
  selectors : new.selectors = r.selectors
  /-- The span is the same. -/
  span : new.info.span = r.info.span
  /-- All that is left are declarations of literals. -/
  resolved : ∀ s ∈ new.body, s.IsResolved
  /-- They are declarations of the rule at any depth, in their order, and each at most once. -/
  origins : (new.declarations.map Declaration.origin).Sublist
    ((Body.allDeclarations r.body).map Declaration.origin)

theorem Rule.declarations_map_declaration (selectors : List Selector) (ds : List Declaration)
    (info : Info) : Rule.declarations ⟨selectors, ds.map .declaration, info⟩ = ds := by
  rw [declarations, List.filterMap_map]
  exact List.filterMap_some

/-- What a rule comes to resolves it. -/
theorem Rule.ComesTo.resolvesTo {env : Env Literal} {r new : Rule} (h : r.ComesTo env new) :
    r.ResolvesTo new := by
  obtain ⟨ds, hd, rfl⟩ := h
  obtain ⟨taken, hsub, rfl⟩ := Body.exists_sublist_of_denote r.body hd
  refine ⟨rfl, rfl, ?_, ?_⟩
  · exact List.forall_mem_map.2 (List.forall_mem_map.2 fun p _ ↦ ⟨p.2, _, rfl⟩)
  · have horigins := hsub.map Declaration.origin
    rw [List.map_map] at horigins
    rw [declarations_map_declaration, List.map_map]
    exact horigins

/-- Nothing is reported on what a rule comes to. -/
theorem Rule.ComesTo.relabel_bare {env : Env Literal} {r new : Rule} (h : r.ComesTo env new) :
    new.relabel Info.bare = new := by
  obtain ⟨ds, hd, rfl⟩ := h
  obtain ⟨taken, -, rfl⟩ := Body.exists_sublist_of_denote r.body hd
  have hbody : Body.relabel Info.bare ((taken.map fun p ↦ p.1.holding p.2).map .declaration) =
      (taken.map fun p ↦ p.1.holding p.2).map .declaration := by
    rw [Body.relabel_eq_map, List.map_map, List.map_map, List.map_map]
    rfl
  exact congrArg (Rule.mk r.selectors · r.info.bare) hbody

/-! ### What a sheet comes to -/

/-- **Normalization.** A sheet evaluates to rules only, one for each of its rules and in their
order. Each has the selectors and the span of the rule and holds nothing but declarations of
literals, which are declarations of the rule at any depth, in the order of the text and each taken
at most once. Nothing is reported on what is left, and evaluating it again gives the same tree, in
which each number is the float that it was, be it `NaN`. -/
theorem Sheet.evaluate_normalizes {s t : Sheet} (h : s.evaluate = .ok t) :
    t.items = t.rules.map .rule ∧ List.Forall₂ Rule.ResolvesTo s.rules t.rules ∧
      (∀ i ∈ t.infos, i.diagnostics = []) ∧ t.evaluate = .ok t := by
  obtain ⟨rs, hd, rfl⟩ := evaluate_eq_ok_iff.1 h
  rw [rules_map_rule]
  have hrules : List.Forall₂ (fun new r ↦ (Rule.relabel Info.bare new = new ∧
      ∀ s ∈ new.body, s.IsResolved) ∧ Rule.ResolvesTo r new) rs s.rules := by
    refine .flip ((Item.forall₂_denoteAll s.items hd).imp ?_)
    rintro r new ⟨env, hnew⟩
    exact ⟨⟨hnew.relabel_bare, hnew.resolvesTo.resolved⟩, hnew.resolvesTo⟩
  obtain ⟨hleft, hresolves⟩ := (List.forall₂_and_left rs s.rules).1 hrules
  have hbare : (Sheet.mk (rs.map .rule) s.info.bare).relabel Info.bare =
      ⟨rs.map .rule, s.info.bare⟩ := by
    rw [relabel, List.map_map]
    exact congrArg (Sheet.mk · s.info.bare)
      (List.map_congr_left fun r hr ↦ congrArg Item.rule (hleft r hr).1)
  refine ⟨rfl, .flip hresolves, ?_, ?_⟩
  · rw [← hbare, infos_relabel]
    exact List.forall_mem_map.2 fun _ _ ↦ rfl
  · have hresolved : (Sheet.mk (rs.map .rule) s.info.bare).IsResolved :=
      List.forall_mem_map.2 fun r hr ↦ (hleft r hr).2
    rw [hresolved.evaluate_eq, hbare]

/-- A sheet with a report on a declaration, whose only rule has a branch in a branch and one in
between that is not taken. -/
def Sheet.branching : Sheet :=
  let bare : Info := ⟨.null, []⟩
  let reported : Info := ⟨.null, [⟨.unknownProperty "margin", .null⟩]⟩
  let yes : Expr := .literal (.bool true) bare
  let no : Expr := .literal (.bool false) bare
  ⟨[.assignment ⟨"--c", .literal (.color "#abc") bare, bare⟩,
    .rule ⟨[.tag "p", .class "x"],
      [.conditional yes
          [.conditional no [.declaration ⟨"color", .reference "--d" bare, bare⟩]
              (.present [.assignment ⟨"--c", no, bare⟩,
                .declaration ⟨"margin", .reference "--c" bare, reported⟩] bare) bare,
            .declaration ⟨"color", .reference "--c" bare, bare⟩]
          (.present [.declaration ⟨"height", no, bare⟩] bare) bare,
        .declaration ⟨"width", yes, bare⟩],
      bare⟩],
    bare⟩

theorem Sheet.evaluate_normalizes_branching : ∃ t, Sheet.branching.evaluate = .ok t ∧
    t.items = t.rules.map .rule ∧ List.Forall₂ Rule.ResolvesTo Sheet.branching.rules t.rules ∧
      (∀ i ∈ t.infos, i.diagnostics = []) ∧ t.evaluate = .ok t :=
  ⟨_, rfl, Sheet.evaluate_normalizes rfl⟩

end TypedCss

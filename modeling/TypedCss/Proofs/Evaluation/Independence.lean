import TypedCss.Proofs.Evaluation.Denotation
import TypedCss.Proofs.Relabeling

/-!
# What a meaning does not depend on

What comes to something comes to the same where more is known (`Body.denote_mono`), since no name is
missing that it looks up. So items that come to something by themselves come to it after any other
items too (`Item.denoteAll_append`), whichever names those have set.

Nor does a meaning depend on what the nodes carry. A relabeled sheet comes to the relabeled rules,
or to the same error at another place (`Sheet.denote_relabel`).
-/

namespace TypedCss

/-! ### More may be known -/

theorem Expr.valueIn_mono {env env' : Env Literal} (h : env.Within env') {e : Expr} {v : Literal}
    (he : e.valueIn env = .ok v) : e.valueIn env' = .ok v := by
  induction e using Expr.pairInduction generalizing v with
  | literal w info => exact he
  | reference name info =>
    rw [valueIn_reference_eq_ok_iff] at he ⊢
    exact h name v he
  | pair op left right info ihl ihr =>
    obtain ⟨l, r, hl, hr, hop⟩ := valueIn_pair_eq_ok_iff.1 he
    exact valueIn_pair_eq_ok_iff.2 ⟨l, r, ihl hl, ihr hr, hop⟩
  | unpaired op operands info hn =>
    rw [valueIn_unpaired env hn] at he
    cases he

/-- A body comes to the same where more is known. -/
theorem Body.denote_mono {body : List Stmt} : ∀ {env env' : Env Literal} {ds : List Declaration},
    env.Within env' → Body.denote env body = .ok ds → Body.denote env' body = .ok ds := by
  induction body using Body.induction with
  | nil => exact fun _ hb ↦ hb
  | declaration d rest ih =>
    intro env env' ds h hb
    obtain ⟨v, later, hv, hl, rfl⟩ := denote_declaration_eq_ok_iff.1 hb
    exact denote_declaration_eq_ok_iff.2 ⟨v, later, Expr.valueIn_mono h hv, ih h hl, rfl⟩
  | assignment a rest ih =>
    intro env env' ds h hb
    obtain ⟨v, hv, hl⟩ := denote_assignment_eq_ok_iff.1 hb
    exact denote_assignment_eq_ok_iff.2 ⟨v, Expr.valueIn_mono h hv, ih (h.set a.name v) hl⟩
  | conditional guard body otherwise info rest ihBody ihElse ihRest =>
    intro env env' ds h hb
    obtain ⟨b, branch, later, hg, hbranch, hl, rfl⟩ := denote_conditional_eq_ok_iff.1 hb
    refine denote_conditional_eq_ok_iff.2
      ⟨b, branch, later, Expr.valueIn_mono h hg, ?_, ihRest h hl, rfl⟩
    cases b with
    | true => exact ihBody h hbranch
    | false => exact ihElse h hbranch

/-- Items come to the same where more is known. -/
theorem Item.denoteAll_mono {items : List Item} : ∀ {env env' : Env Literal} {rs : List Rule},
    env.Within env' → Item.denoteAll env items = .ok rs → Item.denoteAll env' items = .ok rs := by
  induction items with
  | nil => exact fun _ hi ↦ hi
  | cons i rest ih =>
    intro env env' rs h hi
    cases i with
    | assignment a =>
      obtain ⟨v, hv, hl⟩ := denoteAll_assignment_eq_ok_iff.1 hi
      exact denoteAll_assignment_eq_ok_iff.2 ⟨v, Expr.valueIn_mono h hv, ih (h.set a.name v) hl⟩
    | rule r =>
      obtain ⟨ds, later, hb, hl, rfl⟩ := denoteAll_rule_eq_ok_iff.1 hi
      exact denoteAll_rule_eq_ok_iff.2 ⟨ds, later, Body.denote_mono h hb, ih h hl, rfl⟩

/-- Items that come to something by themselves come to it after others, too. -/
theorem Item.denoteAll_append {xs ys : List Item} {later : List Rule}
    (hy : Item.denoteAll .empty ys = .ok later) : ∀ {env : Env Literal} {rs : List Rule},
      Item.denoteAll env xs = .ok rs → Item.denoteAll env (xs ++ ys) = .ok (rs ++ later) := by
  induction xs with
  | nil =>
    intro env rs hx
    cases hx
    exact Item.denoteAll_mono env.empty_within hy
  | cons i rest ih =>
    intro env rs hx
    cases i with
    | assignment a =>
      obtain ⟨v, hv, hl⟩ := denoteAll_assignment_eq_ok_iff.1 hx
      exact denoteAll_assignment_eq_ok_iff.2 ⟨v, hv, ih hl⟩
    | rule r =>
      obtain ⟨ds, others, hb, hl, rfl⟩ := denoteAll_rule_eq_ok_iff.1 hx
      exact denoteAll_rule_eq_ok_iff.2 ⟨ds, others ++ later, hb, ih hl, rfl⟩

/-! ### Relabeled trees -/

section

variable {p : Position → Position} {f : Info → Info} (hf : Info.Relabels p f)
include hf

theorem Expr.valueIn_relabel (env : Env Literal) (e : Expr) :
    (e.relabel f).valueIn env = (e.valueIn env).mapError (Error.move p) := by
  induction e using Expr.pairInduction with
  | literal v info => rfl
  | reference name info =>
    rw [relabel, valueIn, valueIn, hf.start]
    cases env name <;> rfl
  | pair op left right info ihl ihr =>
    rw [relabel, listRelabel, listRelabel, listRelabel, valueIn, valueIn, ihl, ihr, hf.start]
    cases left.valueIn env with
    | error e => rfl
    | ok l =>
      cases right.valueIn env with
      | error e => rfl
      | ok r =>
        dsimp only [bind, Except.bind, Except.mapError]
        cases op.fold? l r <;> rfl
  | unpaired op operands info hn =>
    have hn' : (listRelabel f operands).length ≠ 2 := by rwa [length_listRelabel]
    rw [relabel, valueIn_unpaired env hn, valueIn_unpaired env hn', length_listRelabel, hf.start]
    rfl

theorem Stmt.guardIn_relabel (env : Env Literal) (guard : Expr) (info : Info) :
    guardIn env (guard.relabel f) (f info) =
      (guardIn env guard info).mapError (Error.move p) := by
  rw [guardIn, guardIn, Expr.valueIn_relabel hf, hf.start]
  cases guard.valueIn env with
  | error e => rfl
  | ok v => cases v <;> rfl

theorem Declaration.holding_relabel (d : Declaration) (v : Literal) :
    (d.relabel f).holding v = (d.holding v).relabel f := by
  simp only [holding, relabel, Expr.relabel, Expr.info_relabel, hf.bare]

omit hf in
/-- Relabeling what two parts come to, one after the other, is relabeling what both come to. -/
theorem Declaration.append_relabel (first later : Except Error (List Declaration)) :
    (do
      let ds ← (first.map (List.map (Declaration.relabel f))).mapError (Error.move p)
      let es ← (later.map (List.map (Declaration.relabel f))).mapError (Error.move p)
      pure (ds ++ es)) =
    Except.mapError (Error.move p) (Except.map (List.map (Declaration.relabel f)) (do
      let ds ← first
      let es ← later
      pure (ds ++ es))) := by
  cases first with
  | error e => rfl
  | ok ds =>
    cases later with
    | error e => rfl
    | ok es => exact congrArg Except.ok List.map_append.symm

/-- A relabeled body comes to the relabeled declarations. -/
theorem Body.denote_relabel (body : List Stmt) : ∀ env : Env Literal,
    Body.denote env (Body.relabel f body) =
      ((Body.denote env body).map (List.map (Declaration.relabel f))).mapError (Error.move p) := by
  induction body using Body.induction with
  | nil => exact fun _ ↦ rfl
  | declaration d rest ih =>
    intro env
    rw [relabel, Stmt.relabel, denote, denote, Declaration.relabel, Expr.valueIn_relabel hf, ih]
    cases d.value.valueIn env with
    | error e => rfl
    | ok v =>
      cases denote env rest with
      | error e => rfl
      | ok later => exact congrArg (Except.ok <| · :: _) (Declaration.holding_relabel hf d v)
  | assignment a rest ih =>
    intro env
    rw [relabel, Stmt.relabel, denote, denote, Assignment.relabel, Expr.valueIn_relabel hf]
    cases a.value.valueIn env with
    | error e => rfl
    | ok v => exact ih (env.set a.name v)
  | conditional guard body otherwise info rest ihBody ihElse ihRest =>
    intro env
    rw [relabel, Stmt.relabel, denote, denote, Stmt.guardIn_relabel hf, ElseBranch.denote_eq,
      ElseBranch.denote_eq, ElseBranch.body_relabel, ihBody, ihElse, ihRest]
    cases Stmt.guardIn env guard info with
    | error e => rfl
    | ok b =>
      cases b with
      | true => exact Declaration.append_relabel (denote env body) (denote env rest)
      | false => exact Declaration.append_relabel (denote env otherwise.body) (denote env rest)

theorem Item.denoteAll_relabel (items : List Item) : ∀ env : Env Literal,
    Item.denoteAll env (items.map (Item.relabel f)) =
      ((Item.denoteAll env items).map (List.map (Rule.relabel f))).mapError (Error.move p) := by
  induction items with
  | nil => exact fun _ ↦ rfl
  | cons i rest ih =>
    intro env
    cases i with
    | assignment a =>
      rw [List.map_cons, relabel, denoteAll, denoteAll, Assignment.relabel,
        Expr.valueIn_relabel hf]
      cases a.value.valueIn env with
      | error e => rfl
      | ok v => exact ih (env.set a.name v)
    | rule r =>
      rw [List.map_cons, relabel, denoteAll, denoteAll, Rule.relabel, Body.denote_relabel hf, ih,
        hf.bare]
      cases Body.denote env r.body with
      | error e => rfl
      | ok ds =>
        cases denoteAll env rest with
        | error e => rfl
        | ok later =>
          have hbody : (ds.map (Declaration.relabel f)).map Stmt.declaration =
              Body.relabel f (ds.map .declaration) := by
            rw [Body.relabel_eq_map, List.map_map, List.map_map]
            rfl
          show Except.ok (Rule.mk r.selectors ((ds.map (Declaration.relabel f)).map .declaration)
            (f r.info.bare) :: later.map (Rule.relabel f)) = _
          rw [hbody]
          rfl

/-- A relabeled sheet comes to the relabeled rules, or to the same error at another place. -/
theorem Sheet.denote_relabel (s : Sheet) :
    (s.relabel f).denote = (s.denote.map (Sheet.relabel f)).mapError (Error.move p) := by
  rw [denote, denote, relabel, Item.denoteAll_relabel hf, hf.bare]
  cases Item.denoteAll .empty s.items with
  | error e => rfl
  | ok rs =>
    have hitems : (rs.map (Rule.relabel f)).map Item.rule =
        (rs.map Item.rule).map (Item.relabel f) := by
      rw [List.map_map, List.map_map]
      rfl
    exact congrArg (fun items ↦ Except.ok (Sheet.mk items (f s.info.bare))) hitems

/-- A relabeled sheet evaluates to the relabeled sheet, or to the same error at another place. -/
theorem Sheet.evaluate_relabel (s : Sheet) :
    (s.relabel f).evaluate = (s.evaluate.map (Sheet.relabel f)).mapError (Error.move p) := by
  have heval : ∀ t : Sheet, t.evaluate = t.denote := by
    intro t
    rw [evaluate_eq, denote]
    cases Item.denoteAll .empty t.items <;> rfl
  rw [heval, heval, denote_relabel hf]

end

end TypedCss

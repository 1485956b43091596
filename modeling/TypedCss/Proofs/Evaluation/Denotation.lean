import Mathlib.Data.List.Forall2
import TypedCss.Proofs.Environment
import TypedCss.Proofs.Evaluation.Clash

/-!
# What a sheet means

A body means the declarations that it comes to, each with its value, in an environment. Nothing is
opened or closed here: an assignment goes on with a further environment, and the branch of a
conditional is given the environment as it stands, which the statements after it still have. A rule
is given that of the sheet in the same way.

Evaluation is exactly this meaning (`Sheet.evaluate_eq_denote`), of a sheet that has one and of one
that has not: its scope shows nothing but its environment, whatever frames it consists of
(`Body.fst_evaluate`).
-/

namespace TypedCss

/-! ### Meanings -/

/-- The value of an expression in an environment. -/
def Expr.valueIn (env : Env Literal) : Expr → Except Error Literal
  | literal v _ => pure v
  | reference name info => (env name).elim (throw ⟨.unboundVariable name, info.start⟩) pure
  | operation op [left, right] info => do
    let l ← left.valueIn env
    let r ← right.valueIn env
    match op.fold? l r with
    | some v => pure v
    | none => throw ⟨.unfoldableOperation op.symbol l.text r.text, info.start⟩
  | operation op operands info => throw ⟨.operandArity op.symbol operands.length, info.start⟩

/-- The declaration with a value in the place of its expression. -/
def Declaration.holding (d : Declaration) (v : Literal) : Declaration :=
  ⟨d.property, .literal v d.value.info.bare, d.info.bare⟩

/-- The truth value of a guard in an environment. -/
def Stmt.guardIn (env : Env Literal) (guard : Expr) (info : Info) : Except Error Bool := do
  match ← guard.valueIn env with
  | .bool b => pure b
  | v => throw ⟨.nonBooleanCondition v.text, info.start⟩

mutual

/-- The declarations that the statements of a body come to in an environment. -/
def Body.denote (env : Env Literal) : List Stmt → Except Error (List Declaration)
  | [] => pure []
  | .declaration d :: rest => do
    let v ← d.value.valueIn env
    let later ← Body.denote env rest
    pure (d.holding v :: later)
  | .assignment a :: rest => do
    let v ← a.value.valueIn env
    Body.denote (env.set a.name v) rest
  | .conditional guard body otherwise info :: rest => do
    let selected ← Stmt.guardIn env guard info
    let branch ← (if selected then Body.denote env body else otherwise.denote env)
    let later ← Body.denote env rest
    pure (branch ++ later)

/-- The declarations that an else branch comes to in an environment. -/
def ElseBranch.denote (env : Env Literal) : ElseBranch → Except Error (List Declaration)
  | .absent => pure []
  | .present body _ => Body.denote env body

end

/-- The rules that items come to in an environment. -/
def Item.denoteAll (env : Env Literal) : List Item → Except Error (List Rule)
  | [] => pure []
  | .assignment a :: rest => do
    let v ← a.value.valueIn env
    denoteAll (env.set a.name v) rest
  | .rule r :: rest => do
    let declarations ← Body.denote env r.body
    let later ← denoteAll env rest
    pure (⟨r.selectors, declarations.map .declaration, r.info.bare⟩ :: later)

/-- The sheet of rules that a sheet comes to. -/
def Sheet.denote (s : Sheet) : Except Error Sheet := do
  let rules ← Item.denoteAll .empty s.items
  pure ⟨rules.map .rule, s.info.bare⟩

/-- `r.ComesTo env new` says what is left of a rule in an environment. -/
def Rule.ComesTo (env : Env Literal) (r new : Rule) : Prop :=
  ∃ ds, Body.denote env r.body = .ok ds ∧ ⟨r.selectors, ds.map .declaration, r.info.bare⟩ = new

/-! ### What has a meaning

A tree has a meaning if its parts have theirs, in the environments that they are given. -/

theorem bind_eq_ok_iff {ε α β : Type} {x : Except ε α} {f : α → Except ε β} {b : β} :
    x >>= f = .ok b ↔ ∃ a, x = .ok a ∧ f a = .ok b := by
  cases x with
  | error e => exact iff_of_false nofun nofun
  | ok a => exact ⟨fun h ↦ ⟨a, rfl, h⟩, fun ⟨_, h, hf⟩ ↦ by cases h; exact hf⟩

theorem pure_eq_ok_iff {ε α : Type} {a b : α} : (pure a : Except ε α) = .ok b ↔ a = b :=
  ⟨Except.ok.inj, congrArg Except.ok⟩

/-- A branch comes to what its statements come to; an absent one to nothing. -/
theorem ElseBranch.denote_eq (env : Env Literal) (e : ElseBranch) :
    e.denote env = Body.denote env e.body := by
  cases e <;> simp only [denote, body, Body.denote]

section

variable {env : Env Literal} {rest : List Stmt} {ds : List Declaration}

theorem Expr.valueIn_reference_eq_ok_iff {name : String} {info : Info} {v : Literal} :
    (reference name info).valueIn env = .ok v ↔ env name = some v := by
  rw [valueIn]
  cases env name with
  | none => exact iff_of_false nofun nofun
  | some w => exact ⟨fun h ↦ by cases h; rfl, fun h ↦ by cases h; rfl⟩

theorem Expr.valueIn_pair_eq_ok_iff {op : Operator} {left right : Expr} {info : Info}
    {v : Literal} : (operation op [left, right] info).valueIn env = .ok v ↔
      ∃ l r, left.valueIn env = .ok l ∧ right.valueIn env = .ok r ∧ op.fold? l r = some v := by
  simp only [valueIn, bind_eq_ok_iff]
  constructor
  · rintro ⟨l, hl, r, hr, hop⟩
    refine ⟨l, r, hl, hr, ?_⟩
    split at hop
    · rename_i w hw
      rw [hw, pure_eq_ok_iff.1 hop]
    · cases hop
  · rintro ⟨l, r, hl, hr, hop⟩
    refine ⟨l, hl, r, hr, ?_⟩
    rw [hop]
    rfl

theorem Stmt.guardIn_eq_ok_iff {guard : Expr} {info : Info} {b : Bool} :
    guardIn env guard info = .ok b ↔ guard.valueIn env = .ok (.bool b) := by
  rw [guardIn, bind_eq_ok_iff]
  constructor
  · rintro ⟨v, hv, hb⟩
    cases v with
    | bool c =>
      cases hb
      exact hv
    | color | pixel | percentage | scalar => all_goals cases hb
  · exact fun h ↦ ⟨.bool b, h, rfl⟩

theorem Body.denote_declaration_eq_ok_iff {d : Declaration} :
    denote env (.declaration d :: rest) = .ok ds ↔ ∃ v later,
      d.value.valueIn env = .ok v ∧ denote env rest = .ok later ∧ d.holding v :: later = ds := by
  simp only [denote, bind_eq_ok_iff, pure_eq_ok_iff, exists_and_left]

theorem Body.denote_assignment_eq_ok_iff {a : Assignment} :
    denote env (.assignment a :: rest) = .ok ds ↔
      ∃ v, a.value.valueIn env = .ok v ∧ denote (env.set a.name v) rest = .ok ds := by
  simp only [denote, bind_eq_ok_iff]

theorem Body.denote_conditional_eq_ok_iff {guard : Expr} {body : List Stmt}
    {otherwise : ElseBranch} {info : Info} :
    denote env (.conditional guard body otherwise info :: rest) = .ok ds ↔ ∃ b branch later,
      guard.valueIn env = .ok (.bool b) ∧
        denote env (bif b then body else otherwise.body) = .ok branch ∧
          denote env rest = .ok later ∧ branch ++ later = ds := by
  have hbranch : ∀ b : Bool, (if b = true then denote env body else otherwise.denote env) =
      denote env (bif b then body else otherwise.body) := by
    intro b
    cases b with
    | true => rfl
    | false => exact otherwise.denote_eq env
  simp only [denote, bind_eq_ok_iff, pure_eq_ok_iff, Stmt.guardIn_eq_ok_iff, hbranch,
    exists_and_left]

theorem Item.denoteAll_assignment_eq_ok_iff {a : Assignment} {items : List Item}
    {rs : List Rule} : denoteAll env (.assignment a :: items) = .ok rs ↔
      ∃ v, a.value.valueIn env = .ok v ∧ denoteAll (env.set a.name v) items = .ok rs := by
  simp only [denoteAll, bind_eq_ok_iff]

theorem Item.denoteAll_rule_eq_ok_iff {r : Rule} {items : List Item} {rs : List Rule} :
    denoteAll env (.rule r :: items) = .ok rs ↔ ∃ ds later,
      Body.denote env r.body = .ok ds ∧ denoteAll env items = .ok later ∧
        ⟨r.selectors, ds.map .declaration, r.info.bare⟩ :: later = rs := by
  simp only [denoteAll, bind_eq_ok_iff, pure_eq_ok_iff, exists_and_left]

end

/-- Items come to the rules among them, in their order, each in some environment. -/
theorem Item.forall₂_denoteAll (items : List Item) : ∀ {env : Env Literal} {rs : List Rule},
    Item.denoteAll env items = .ok rs →
      List.Forall₂ (fun r new ↦ ∃ env, r.ComesTo env new) (items.filterMap Item.rule?) rs := by
  induction items with
  | nil =>
    rintro env rs ⟨⟩
    exact .nil
  | cons i rest ih =>
    intro env rs h
    cases i with
    | assignment a =>
      obtain ⟨v, -, hl⟩ := denoteAll_assignment_eq_ok_iff.1 h
      exact ih hl
    | rule r =>
      obtain ⟨ds, later, hd, hl, rfl⟩ := denoteAll_rule_eq_ok_iff.1 h
      exact .cons ⟨env, ds, hd, rfl⟩ (ih hl)

/-! ### Expressions -/

/-- An operation that does not have two operands has no value, whatever the operands are. -/
theorem Expr.valueIn_unpaired (env : Env Literal) {op : Operator} {operands : List Expr}
    {info : Info} (h : operands.length ≠ 2) :
    (operation op operands info).valueIn env =
      .error ⟨.operandArity op.symbol operands.length, info.start⟩ := by
  rw [valueIn]
  · rfl
  · rintro left right rfl
    exact h rfl

theorem Expr.fold_unpaired (scope : Scope Literal) {op : Operator} {operands : List Expr}
    {info : Info} (h : operands.length ≠ 2) :
    (operation op operands info).fold scope =
      .error ⟨.operandArity op.symbol operands.length, info.start⟩ := by
  rw [fold]
  rintro left right rfl
  exact h rfl

/-- Folding in a scope gives the value in its environment. -/
theorem Expr.fold_eq_valueIn (scope : Scope Literal) (e : Expr) :
    e.fold scope = e.valueIn scope.lookup := by
  induction e using Expr.pairInduction with
  | literal v info => rfl
  | reference name info =>
    rw [fold, valueIn]
    cases scope.lookup name <;> rfl
  | pair op left right info ihl ihr =>
    rw [fold, valueIn, ihl, ihr]
    cases left.valueIn scope.lookup with
    | error e => rfl
    | ok l =>
      cases right.valueIn scope.lookup with
      | error e => rfl
      | ok r =>
        show (op.fold l r).mapError _ = match op.fold? l r with | some v => _ | none => _
        rw [Operator.fold]
        cases op.fold? l r <;> rfl
  | unpaired op operands info hn => rw [fold_unpaired scope hn, valueIn_unpaired _ hn]

/-- The guard of a conditional has the truth value that it has in the environment. -/
theorem Stmt.guardValue_eq_guardIn (scope : Scope Literal) (guard : Expr) (info : Info) :
    guardValue scope guard info = guardIn scope.lookup guard info := by
  rw [guardValue, guardIn, Expr.fold_eq_valueIn]
  cases guard.valueIn scope.lookup with
  | error e => rfl
  | ok v => cases v <;> rfl

/-! ### Bodies -/

section

variable {scope scope' : Scope Literal} {s : Stmt} {rest : List Stmt}

/-- If a statement comes to declarations, the others come to theirs in the environment after it. -/
theorem Body.fst_evaluate_of_ok {first : List Declaration}
    (hs : s.evaluate scope = (.ok (first.map .declaration), scope'))
    (ih : (Body.evaluate scope' rest).1 =
      (Body.denote scope'.lookup rest).map (List.map .declaration)) :
    (Body.evaluate scope (s :: rest)).1 =
      ((Body.denote scope'.lookup rest).map (first ++ ·)).map (List.map .declaration) := by
  rw [evaluate_cons_ok rest hs, ih]
  cases Body.denote scope'.lookup rest with
  | error e => rfl
  | ok later => exact congrArg Except.ok List.map_append.symm

/-- If a statement comes to an error, so does the body. -/
theorem Body.fst_evaluate_of_error {e : Error} (hs : s.evaluate scope = (.error e, scope')) :
    (Body.evaluate scope (s :: rest)).1 = .error e := by
  rw [evaluate_cons_error rest hs]

end

/-- What evaluating a body gives, the statements left of it or the error that stopped it, is its
meaning in the environment of the scope. -/
theorem Body.fst_evaluate (body : List Stmt) : ∀ scope : Scope Literal,
    (Body.evaluate scope body).1 =
      (Body.denote scope.lookup body).map (List.map .declaration) := by
  induction body using Body.induction with
  | nil => exact fun _ ↦ rfl
  | declaration d rest ih =>
    intro scope
    rw [denote]
    cases hv : d.value.valueIn scope.lookup with
    | error e =>
      have hs : (Stmt.declaration d).evaluate scope = (.error e, scope) := by
        rw [Stmt.evaluate, Declaration.evaluate, Expr.evaluate, Expr.fold_eq_valueIn, hv]
        rfl
      exact fst_evaluate_of_error hs
    | ok v =>
      have hs : (Stmt.declaration d).evaluate scope =
          (.ok ([d.holding v].map Stmt.declaration), scope) := by
        rw [Stmt.evaluate, Declaration.evaluate, Expr.evaluate, Expr.fold_eq_valueIn, hv]
        rfl
      exact fst_evaluate_of_ok hs (ih scope)
  | assignment a rest ih =>
    intro scope
    rw [denote]
    cases hv : a.value.valueIn scope.lookup with
    | error e =>
      have hs : (Stmt.assignment a).evaluate scope = (.error e, scope) := by
        rw [Stmt.evaluate, Assignment.evaluate, Expr.fold_eq_valueIn, hv]
        rfl
      exact fst_evaluate_of_error hs
    | ok v =>
      have hs : (Stmt.assignment a).evaluate scope =
          (.ok (([] : List Declaration).map Stmt.declaration), scope.bind a.name v) := by
        rw [Stmt.evaluate, Assignment.evaluate, Expr.fold_eq_valueIn, hv]
        rfl
      rw [fst_evaluate_of_ok hs (ih _), Scope.lookup_bind_eq]
      show _ = (denote (Env.set scope.lookup a.name v) rest).map (List.map Stmt.declaration)
      cases denote (Env.set scope.lookup a.name v) rest <;> rfl
  | conditional guard body otherwise info rest ihBody ihElse ihRest =>
    intro scope
    rw [denote, ← Stmt.guardValue_eq_guardIn]
    cases hg : Stmt.guardValue scope guard info with
    | error e =>
      have hs : (Stmt.conditional guard body otherwise info).evaluate scope =
          (.error e, scope) := by
        rw [Stmt.evaluate, hg]
      exact fst_evaluate_of_error hs
    | ok b =>
      -- The branch is evaluated in a frame of its own, which has the same environment and is closed
      -- when the statements after the conditional are evaluated.
      have hbranch : (Body.evaluate scope.push (bif b then body else otherwise.body)).1 =
          (if b = true then denote scope.lookup body else otherwise.denote scope.lookup).map
            (List.map .declaration) := by
        cases b with
        | true => exact Scope.lookup_push_eq scope ▸ ihBody scope.push
        | false =>
          rw [if_neg Bool.false_ne_true, ElseBranch.denote_eq]
          exact Scope.lookup_push_eq scope ▸ ihElse scope.push
      have hs : (Stmt.conditional guard body otherwise info).evaluate scope =
          ((if b = true then denote scope.lookup body else otherwise.denote scope.lookup).map
            (List.map .declaration), scope) := by
        rw [Stmt.evaluate_conditional body otherwise hg]
        exact Prod.ext hbranch (Body.snd_inFrame_evaluate scope _)
      show _ = Except.map _ (Except.bind (if b = true then _ else _) _)
      cases hd : if b = true then denote scope.lookup body else otherwise.denote scope.lookup with
      | error e => exact fst_evaluate_of_error (hs.trans (by rw [hd]; rfl))
      | ok branch => exact fst_evaluate_of_ok (hs.trans (by rw [hd]; rfl)) (ihRest scope)

/-! ### Sheets -/

theorem Item.evaluateAll_eq (items : List Item) : ∀ scope : Scope Literal,
    Item.evaluateAll scope items = (Item.denoteAll scope.lookup items).map (List.map .rule) := by
  induction items with
  | nil => exact fun _ ↦ rfl
  | cons i rest ih =>
    intro scope
    cases i with
    | assignment a =>
      rw [evaluateAll, denoteAll, Assignment.evaluate, Expr.fold_eq_valueIn]
      cases a.value.valueIn scope.lookup with
      | error e => rfl
      | ok v =>
        have h := ih (scope.bind a.name v)
        rw [Scope.lookup_bind_eq] at h
        exact h
    | rule r =>
      have hr : r.evaluate scope = ((Body.denote scope.lookup r.body).map fun declarations ↦
          ⟨r.selectors, declarations.map .declaration, r.info.bare⟩, scope) := by
        refine Prod.ext ?_ (Body.snd_inFrame_evaluate scope r.body)
        show (Body.evaluate scope.push r.body).1.map _ = _
        rw [Body.fst_evaluate, Scope.lookup_push_eq]
        cases Body.denote scope.lookup r.body <;> rfl
      rw [evaluateAll, hr, denoteAll]
      cases Body.denote scope.lookup r.body with
      | error e => rfl
      | ok declarations =>
        show (evaluateAll scope rest).map _ = _
        rw [ih scope]
        cases denoteAll scope.lookup rest <;> rfl

/-- A sheet evaluates to the rules that its items come to. -/
theorem Sheet.evaluate_eq (s : Sheet) : s.evaluate =
    (Item.denoteAll .empty s.items).map fun rs ↦ ⟨rs.map .rule, s.info.bare⟩ := by
  rw [evaluate, Item.evaluateAll_eq, Scope.lookup_empty_eq]
  cases Item.denoteAll Env.empty s.items <;> rfl

/-- A sheet evaluates to another one exactly if this consists of the rules that its items come
to. -/
theorem Sheet.evaluate_eq_ok_iff {s t : Sheet} : s.evaluate = .ok t ↔
    ∃ rs, Item.denoteAll .empty s.items = .ok rs ∧ ⟨rs.map .rule, s.info.bare⟩ = t := by
  rw [evaluate_eq]
  cases Item.denoteAll Env.empty s.items with
  | error e => exact iff_of_false nofun nofun
  | ok rs => exact ⟨fun h ↦ ⟨rs, rfl, Except.ok.inj h⟩, fun ⟨_, h, ht⟩ ↦ by cases h; rw [← ht]; rfl⟩

/-- The rules of a sheet that consists of rules. -/
theorem Sheet.rules_map_rule (rs : List Rule) (info : Info) :
    Sheet.rules ⟨rs.map .rule, info⟩ = rs := by
  rw [rules, List.filterMap_map]
  exact List.filterMap_some

/-- Evaluating a sheet gives its meaning, and the error that there is none for. -/
theorem Sheet.evaluate_eq_denote (s : Sheet) : s.evaluate = s.denote := by
  rw [evaluate_eq, denote]
  cases Item.denoteAll Env.empty s.items <;> rfl

end TypedCss

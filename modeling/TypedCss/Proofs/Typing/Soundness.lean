import TypedCss.Proofs.Evaluation.Clash
import TypedCss.Proofs.Typing.Annotation

/-!
# Type soundness

A sheet that passes the checker evaluates without a failure that types rule out. What remains is
arithmetic that the types allow and the values lack: sums of colors and of truth values, and their
products with a scalar.

The invariant between the two passes is `Agrees`: a name is bound for the checker where it is bound
for the evaluator, to the type of its value. Both passes restore the scope after a frame of their
own, so it does not matter that they visit the parts of a conditional in different orders, nor that
the evaluator visits one branch only.
-/

namespace TypedCss

/-! ### Scopes that agree -/

/-- A name has a type where it has a value, and the type is that of the value. -/
def Scope.Agrees (types : Scope (Option ValueType)) (values : Scope Literal) : Prop :=
  ∀ name, types.lookup name = (values.lookup name).map fun v ↦ some v.type

namespace Scope.Agrees

variable {types : Scope (Option ValueType)} {values : Scope Literal}

theorem empty : Agrees .empty .empty := fun _ ↦ rfl

theorem push (h : Agrees types values) : Agrees types.push values.push := by
  intro name
  rw [lookup_push, lookup_push]
  exact h name

theorem bind (h : Agrees types values) (name : String) (v : Literal) :
    Agrees (types.bind name (some v.type)) (values.bind name v) := by
  intro other
  rw [lookup_bind, lookup_bind, h other]
  split <;> rfl

end Scope.Agrees

/-! ### Operations -/

namespace Operator

/-- The operations that have a type but no value: sums and differences of two colors or of two truth
values, and products of one of these with a scalar. -/
def IsUnsupported : Operator → ValueType → ValueType → Prop
  | .multiply, left, right =>
    (left = .scalar ∧ (right = .color ∨ right = .bool)) ∨
      ((left = .color ∨ left = .bool) ∧ right = .scalar)
  | _, left, right => left = right ∧ (left = .color ∨ left = .bool)

/-- An operation that has a type has a value of that type, or is not supported. -/
theorem fold?_of_resultType? {op : Operator} {a b : Literal} {type : ValueType}
    (h : op.resultType? a.type b.type = some type) :
    (∃ v, op.fold? a b = some v ∧ v.type = type) ∨
      op.fold? a b = none ∧ op.IsUnsupported a.type b.type := by
  cases op <;> cases a <;> cases b <;>
    simp_all [resultType?, fold?, Literal.type, IsUnsupported]

end Operator

/-- The operation of a clash is one that has a type but no value. -/
def Clash.IsUnsupported (c : Clash) : Prop := c.operator.IsUnsupported c.left.type c.right.type

/-! ### Expressions -/

namespace Expr

variable {types : Scope (Option ValueType)} {values : Scope Literal}

/-- An expression of some type folds to a value of that type, or stops where arithmetic is
missing. -/
theorem fold_of_type_check (h : types.Agrees values) {e : Expr} {type : ValueType}
    (he : (e.check types).type = some type) :
    (∃ v, e.fold values = .ok v ∧ v.type = type) ∨
      ∃ c : Clash, e.StopsAt values c ∧ c.IsUnsupported := by
  induction e using Expr.pairInduction generalizing type with
  | literal v info => exact .inl ⟨v, rfl, Option.some.inj he⟩
  | reference name info =>
    rw [check_reference, h name] at he
    cases hv : values.lookup name with
    | none => simp [hv] at he
    | some v =>
      rw [hv] at he
      exact .inl ⟨v, by rw [fold, hv], Option.some.inj he⟩
  | pair op left right info ihl ihr =>
    rw [check_pair] at he
    -- An operation has a type only if both of its operands have one.
    obtain ⟨s, t, hs, ht, hop⟩ : ∃ s t, (left.check types).type = some s ∧
        (right.check types).type = some t ∧ op.resultType? s t = some type := by
      revert he
      cases (left.check types).type <;> cases (right.check types).type <;>
        simp [Operator.typeOf?]
    rcases ihl hs with ⟨a, ha, rfl⟩ | ⟨c, hc, hu⟩
    · rcases ihr ht with ⟨b, hb, rfl⟩ | ⟨c, hc, hu⟩
      · rcases Operator.fold?_of_resultType? hop with ⟨v, hv, hvt⟩ | ⟨hn, hu⟩
        · refine .inl ⟨v, ?_, hvt⟩
          rw [fold, ha, hb]
          dsimp only
          rw [Operator.fold, hv]
          rfl
        · exact .inr ⟨⟨op, a, b, info⟩, .here ha hb hn, hu⟩
      · exact .inr ⟨c, .right ha hc, hu⟩
    · exact .inr ⟨c, .left hc, hu⟩
  | unpaired op operands info hn => simp [check_unpaired types hn] at he

/-- An expression that has no errors after it was checked has a type. -/
theorem exists_type_of_hasErrors_check (h : types.Agrees values) {e : Expr}
    (he : (e.check types).expr.hasErrors = false) :
    ∃ type, (e.check types).type = some type := by
  induction e using Expr.pairInduction with
  | literal v info => exact ⟨v.type, rfl⟩
  | reference name info =>
    rw [check_reference] at he ⊢
    simp only [hasErrors, Bool.not_eq_false'] at he
    have hn := Info.eq_none_of_isClean_note he
    rw [h name] at hn ⊢
    cases hv : values.lookup name with
    | none => simp [hv, referenceCause?] at hn
    | some v => exact ⟨v.type, rfl⟩
  | pair op left right info ihl ihr =>
    rw [check_pair] at he ⊢
    simp only [hasErrors, anyHasErrors, Bool.or_eq_false_iff, Bool.not_eq_false', and_true] at he
    obtain ⟨hi, hl, hr⟩ := he
    obtain ⟨s, hs⟩ := ihl hl
    obtain ⟨t, ht⟩ := ihr hr
    have hn := Info.eq_none_of_isClean_note hi
    rw [hs, ht] at hn
    simp only [hs, ht]
    exact Operator.exists_typeOf?_of_cause?_eq_none hn
  | unpaired op operands info hn =>
    simp [check_unpaired types hn, hasErrors, Info.isClean_report] at he

/-- An expression that has no errors after it was checked folds to a value of its type, or stops
where arithmetic is missing. -/
theorem fold_sound (h : types.Agrees values) {e : Expr}
    (he : (e.check types).expr.hasErrors = false) :
    (∃ v, e.fold values = .ok v ∧ (e.check types).type = some v.type) ∨
      ∃ c : Clash, e.StopsAt values c ∧ c.IsUnsupported := by
  obtain ⟨type, ht⟩ := exists_type_of_hasErrors_check h he
  rcases fold_of_type_check h ht with ⟨v, hv, rfl⟩ | hc
  · exact .inl ⟨v, hv, ht⟩
  · exact .inr hc

end Expr

/-! ### Statements -/

/-- A known property is given a value, not an expression yet to be folded, of a type that it
accepts. -/
def Declaration.IsAccepted (d : Declaration) : Prop :=
  ∃ kind v info, PropertyKind.ofName? d.property = some kind ∧ d.value = .literal v info ∧
    kind.accepts v.type = true

namespace Stmt

variable {c : Checker} {values : Scope Literal}

/-- What a statement or a body comes to when it is evaluated: accepted declarations and a scope that
agrees with that of the checker, or a clash without arithmetic. -/
structure Sound (types : Scope (Option ValueType)) (out : List Stmt) (values : Scope Literal) :
    Prop where
  /-- The scopes agree afterwards. -/
  agrees : types.Agrees values
  /-- All that is left are accepted declarations. -/
  accepted : ∀ d ∈ Body.allDeclarations out, d.IsAccepted

theorem declaration_sound (h : c.scope.Agrees values) {d : Declaration}
    (hd : (d.check c).1.hasErrors = false) :
    (∃ out, (declaration d).evaluate values = (.ok out, values) ∧ Sound c.scope out values) ∨
      ∃ clash : Clash, d.value.StopsAt values clash ∧ clash.IsUnsupported := by
  rw [Declaration.check_eq] at hd
  simp only [Declaration.hasErrors, Bool.or_eq_false_iff, Bool.not_eq_false'] at hd
  rcases Expr.fold_sound h hd.2 with ⟨v, hv, ht⟩ | hc
  · have hn := Info.eq_none_of_isClean_note hd.1
    rw [ht] at hn
    obtain ⟨kind, hk, ha⟩ := Declaration.exists_kind_of_cause?_eq_none hn
    refine .inl ⟨[.declaration ⟨d.property, .literal v d.value.info.bare, d.info.bare⟩], ?_, h, ?_⟩
    · rw [Stmt.evaluate, Declaration.evaluate, Expr.evaluate, hv]
      rfl
    · intro d' hd'
      obtain rfl := List.mem_singleton.1 hd'
      exact ⟨kind, v, d.value.info.bare, hk, rfl, ha⟩
  · exact .inr hc

theorem assignment_sound (h : c.scope.Agrees values) {a : Assignment}
    (ha : (a.check c).1.hasErrors = false) :
    (∃ v, a.evaluate values = .ok (values.bind a.name v) ∧
        (a.check c).2.scope.Agrees (values.bind a.name v)) ∨
      ∃ clash : Clash, a.value.StopsAt values clash ∧ clash.IsUnsupported := by
  simp only [Assignment.check, Assignment.hasErrors, Bool.or_eq_false_iff] at ha
  rcases Expr.fold_sound h ha.2 with ⟨v, hv, ht⟩ | hc
  · refine .inl ⟨v, by rw [Assignment.evaluate, hv]; rfl, ?_⟩
    rw [Assignment.scope_check, ht]
    exact h.bind a.name v
  · exact .inr hc

/-- A guard without errors has a truth value. -/
theorem guard_sound (h : c.scope.Agrees values) {guard : Expr} {info : Info}
    (hi : (info.note (guardCause? (guard.check c.scope).type)).isClean = true)
    (hg : (guard.check c.scope).expr.hasErrors = false) :
    (∃ b, guardValue values guard info = .ok b) ∨
      ∃ clash : Clash, guard.StopsAt values clash ∧ clash.IsUnsupported := by
  rcases Expr.fold_sound h hg with ⟨v, hv, ht⟩ | hc
  · have hn := Info.eq_none_of_isClean_note hi
    rw [ht] at hn
    cases v with
    | bool b => exact .inl ⟨b, by rw [guardValue, hv]⟩
    | color _ => simp [guardCause?, Literal.type] at hn
    | pixel _ => simp [guardCause?, Literal.type] at hn
    | percentage _ => simp [guardCause?, Literal.type] at hn
    | scalar _ => simp [guardCause?, Literal.type] at hn
  · exact .inr hc

end Stmt

/-- The parts of a conditional that has no errors after it was checked have none. The guard is
checked in the scope around it, and so are both branches, each in a frame of its own. -/
theorem Stmt.hasErrors_check_conditional {c : Checker} {guard : Expr} {body : List Stmt}
    {otherwise : ElseBranch} {info : Info}
    (h : ((Stmt.conditional guard body otherwise info).check c).1.hasErrors = false) :
    (info.note (guardCause? (guard.check c.scope).type)).isClean = true ∧
      (guard.check c.scope).expr.hasErrors = false ∧
      ∀ b, ∃ c' : Checker, c'.scope = c.scope.push ∧
        Body.hasErrors (Body.check c' (bif b then body else otherwise.body)).1 = false := by
  simp only [Stmt.check_conditional, Stmt.hasErrors, Bool.or_eq_false_iff, Bool.not_eq_false',
    Body.scope_inFrame_check] at h
  obtain ⟨⟨⟨hi, hg⟩, hb⟩, he⟩ := h
  refine ⟨hi, hg, fun b ↦ ?_⟩
  cases b with
  | true => exact ⟨c.enter, rfl, hb⟩
  | false =>
    cases otherwise with
    | absent => exact ⟨c.enter, rfl, rfl⟩
    | present branch i =>
      -- The else branch is checked after the body and the guard, which have left the scope as it was.
      refine ⟨_, ?_, (Bool.or_eq_false_iff.1 he).2⟩
      exact congrArg Scope.push (Body.scope_inFrame_check c body)

/-- The first statement of a body has a result that is sound, and so has the rest after it. -/
theorem Body.sound_cons {types types' : Scope (Option ValueType)} {values values' : Scope Literal}
    {s : Stmt} {rest out : List Stmt} (hs : s.evaluate values = (.ok out, values'))
    (ho : Stmt.Sound types out values')
    (hr : (∃ out scope, Body.evaluate values' rest = (.ok out, scope) ∧
        Stmt.Sound types' out scope) ∨
      ∃ clash : Clash, Body.StopsAt clash values' rest ∧ clash.IsUnsupported) :
    (∃ out scope, Body.evaluate values (s :: rest) = (.ok out, scope) ∧
        Stmt.Sound types' out scope) ∨
      ∃ clash : Clash, Body.StopsAt clash values (s :: rest) ∧ clash.IsUnsupported := by
  rcases hr with ⟨later, scope, hl, hsound⟩ | ⟨clash, hc, hu⟩
  · refine .inl ⟨out ++ later, scope, ?_, hsound.agrees, ?_⟩
    · rw [evaluate_cons_ok rest hs, hl]
      rfl
    · intro d hd
      rw [allDeclarations_append] at hd
      rcases List.mem_append.1 hd with hd | hd
      · exact ho.accepted d hd
      · exact hsound.accepted d hd
  · exact .inr ⟨clash, .later hs hc, hu⟩

/-- A body that has no errors after it was checked evaluates to accepted declarations, or stops
where arithmetic is missing. -/
theorem Body.evaluate_sound (body : List Stmt) :
    ∀ {c : Checker} {values : Scope Literal}, c.scope.Agrees values →
      Body.hasErrors (Body.check c body).1 = false →
      (∃ out scope, Body.evaluate values body = (.ok out, scope) ∧
          Stmt.Sound (Body.check c body).2.scope out scope) ∨
        ∃ clash : Clash, Body.StopsAt clash values body ∧ clash.IsUnsupported := by
  induction body using Body.induction with
  | nil => exact fun {_ values} h _ ↦ .inl ⟨[], values, rfl, h, fun d hd ↦ by cases hd⟩
  | declaration d rest ih =>
    intro c values h hb
    rw [check_cons, hasErrors, Bool.or_eq_false_iff] at hb
    rcases Stmt.declaration_sound h hb.1 with ⟨out, hs, ho⟩ | ⟨clash, hc, hu⟩
    · refine sound_cons hs ho (ih ?_ hb.2)
      exact (d.scope_check c).symm ▸ h
    · exact .inr ⟨clash, .declaration hc, hu⟩
  | assignment a rest ih =>
    intro c values h hb
    rw [check_cons, hasErrors, Bool.or_eq_false_iff] at hb
    rcases Stmt.assignment_sound h hb.1 with ⟨v, hv, ha⟩ | ⟨clash, hc, hu⟩
    · have hs : (Stmt.assignment a).evaluate values = (.ok [], values.bind a.name v) := by
        rw [Stmt.evaluate, hv]
      exact sound_cons hs ⟨ha, fun d hd ↦ by cases hd⟩ (ih ha hb.2)
    · exact .inr ⟨clash, .assignment hc, hu⟩
  | conditional guard body otherwise info rest ihBody ihElse ihRest =>
    intro c values h hb
    rw [check_cons, hasErrors, Bool.or_eq_false_iff] at hb
    obtain ⟨hi, hg, hbranch⟩ := Stmt.hasErrors_check_conditional hb.1
    rcases Stmt.guard_sound h hi hg with ⟨b, hv⟩ | ⟨clash, hc, hu⟩
    · -- The branch that is taken is sound in a frame of its own, which is closed after it.
      obtain ⟨c', hc', he⟩ := hbranch b
      have hpush : c'.scope.Agrees values.push := hc' ▸ h.push
      have hsound : (∃ out scope,
          Body.evaluate values.push (bif b then body else otherwise.body) = (.ok out, scope) ∧
            Stmt.Sound (Body.check c' (bif b then body else otherwise.body)).2.scope out scope) ∨
          ∃ clash : Clash, Body.StopsAt clash values.push (bif b then body else otherwise.body) ∧
            clash.IsUnsupported := by
        cases b with
        | true => exact ihBody hpush he
        | false => exact ihElse hpush he
      rcases hsound with ⟨out, scope, ho, hout⟩ | ⟨clash, hc, hu⟩
      · have hs : (Stmt.conditional guard body otherwise info).evaluate values =
            (.ok out, values) := by
          rw [Stmt.evaluate_conditional body otherwise hv]
          refine Prod.ext ?_ (Body.snd_inFrame_evaluate values _)
          rw [Scope.fst_inFrame, ho]
        refine sound_cons hs ⟨h, hout.accepted⟩ (ihRest ?_ hb.2)
        exact (Stmt.scope_check_conditional c guard body otherwise info).symm ▸ h
      · exact .inr ⟨clash, .branch hv hc, hu⟩
    · exact .inr ⟨clash, .guard hc, hu⟩

/-! ### Sheets -/

/-- What a rule evaluates to is accepted, unless it stops where arithmetic is missing. -/
theorem Rule.evaluate_sound {c : Checker} {values : Scope Literal} (h : c.scope.Agrees values)
    {r : Rule} (hr : (r.check c).1.hasErrors = false) :
    (∃ r', r.evaluate values = (.ok r', values) ∧
        ∀ d ∈ Body.allDeclarations r'.body, d.IsAccepted) ∨
      ∃ clash : Clash, Body.StopsAt clash values.push r.body ∧ clash.IsUnsupported := by
  have hb : Body.hasErrors (Body.check c.enter r.body).1 = false := (Bool.or_eq_false_iff.1 hr).2
  rcases Body.evaluate_sound r.body (c := c.enter) h.push hb with ⟨out, scope, ho, hout⟩ | hc
  · refine .inl ⟨⟨r.selectors, out, r.info.bare⟩, ?_, hout.accepted⟩
    refine Prod.ext ?_ (Body.snd_inFrame_evaluate values r.body)
    show (Body.evaluate values.push r.body).1.map _ = _
    rw [ho]
    rfl
  · exact .inr hc

theorem Item.evaluateAll_sound (items : List Item) :
    ∀ {c : Checker} {values : Scope Literal}, c.scope.Agrees values →
      (Item.checkAll c items).1.any Item.hasErrors = false →
      (∃ out, Item.evaluateAll values items = .ok out ∧
          ∀ d ∈ out.flatMap Item.allDeclarations, d.IsAccepted) ∨
        ∃ clash : Clash, Item.StopsAt clash values items ∧ clash.IsUnsupported := by
  induction items with
  | nil => exact fun _ _ ↦ .inl ⟨[], rfl, fun d hd ↦ by cases hd⟩
  | cons i rest ih =>
    intro c values h hi
    rw [checkAll_cons, List.any_cons, Bool.or_eq_false_iff] at hi
    cases i with
    | assignment a =>
      rcases Stmt.assignment_sound h hi.1 with ⟨v, hv, ha⟩ | ⟨clash, hc, hu⟩
      · rcases ih ha hi.2 with ⟨out, ho, hout⟩ | ⟨clash, hc, hu⟩
        · exact .inl ⟨out, by rw [evaluateAll, hv]; exact ho, hout⟩
        · exact .inr ⟨clash, .afterAssignment hv hc, hu⟩
      · exact .inr ⟨clash, .assignment hc, hu⟩
    | rule r =>
      rcases Rule.evaluate_sound h hi.1 with ⟨r', hr, hacc⟩ | ⟨clash, hc, hu⟩
      · rcases ih ((r.scope_check c).symm ▸ h) hi.2 with ⟨out, ho, hout⟩ | ⟨clash, hc, hu⟩
        · refine .inl ⟨.rule r' :: out, ?_, ?_⟩
          · rw [evaluateAll, hr]
            show (evaluateAll values rest).map _ = _
            rw [ho]
            rfl
          · intro d hd
            rcases List.mem_append.1 hd with hd | hd
            · exact hacc d hd
            · exact hout d hd
        · exact .inr ⟨clash, .afterRule hr hc, hu⟩
      · exact .inr ⟨clash, .rule hc, hu⟩

/-- **Type soundness.** A sheet that has no errors after it was checked evaluates to declarations
that their properties accept, or stops at an operation on two colors, on two truth values, or on a
scalar and one of these. No variable is unbound, no guard is other than a truth value, and no
operation lacks an operand. -/
theorem Sheet.evaluate_check_sound (s : Sheet) (h : s.check.1.hasErrors = false) :
    (∃ t, s.check.1.evaluate = .ok t ∧ ∀ d ∈ t.allDeclarations, d.IsAccepted) ∨
      ∃ clash : Clash, s.check.1.StopsAt clash ∧ s.check.1.evaluate = .error clash.error ∧
        clash.IsUnsupported := by
  have hs : (Item.checkAll .start s.items).1.any Item.hasErrors = false :=
    (Bool.or_eq_false_iff.1 h).2
  rw [check_eq_self h]
  rcases Item.evaluateAll_sound s.items (c := .start) .empty hs with
    ⟨out, ho, hout⟩ | ⟨clash, hc, hu⟩
  · refine .inl ⟨⟨out, s.info.bare⟩, ?_, hout⟩
    rw [evaluate, ho]
    rfl
  · exact .inr ⟨clash, hc, evaluate_of_stopsAt hc, hu⟩

/-- A sheet whose rule binds a name of the sheet again, to another type, in the branch that is not
taken and after the conditional. -/
def Sheet.shadowing : Sheet :=
  let bare : Info := ⟨.null, []⟩
  ⟨[.assignment ⟨"--x", .literal (.color "#abc") bare, bare⟩,
    .rule ⟨[.tag "p"],
      [.conditional (.literal (.bool false) bare)
          [.assignment ⟨"--x", .literal (.bool true) bare, bare⟩,
            .declaration ⟨"width", .reference "--x" bare, bare⟩]
          (.present [.declaration ⟨"color", .reference "--x" bare, bare⟩] bare) bare,
        .assignment ⟨"--x", .literal (.scalar 2) bare, bare⟩,
        .declaration ⟨"height",
          .operation .multiply [.reference "--x" bare, .literal (.pixel 3) bare] bare, bare⟩],
      bare⟩],
    bare⟩

theorem Sheet.evaluate_check_sound_shadowing :
    Sheet.shadowing.check.1.hasErrors = false ∧
      ((∃ t, Sheet.shadowing.check.1.evaluate = .ok t ∧ ∀ d ∈ t.allDeclarations, d.IsAccepted) ∨
        ∃ clash : Clash, Sheet.shadowing.check.1.StopsAt clash ∧
          Sheet.shadowing.check.1.evaluate = .error clash.error ∧ clash.IsUnsupported) :=
  have h : Sheet.shadowing.check.1.hasErrors = false := by decide
  ⟨h, Sheet.evaluate_check_sound Sheet.shadowing h⟩

end TypedCss

import TypedCss.Proofs.Evaluation.Denotation
import TypedCss.Proofs.Typing.Rules
import TypedCss.Proofs.Typing.Soundness

/-!
# Where checking and folding agree

The arithmetic of types and that of values are two tables, and the two passes over an expression
differ in what they do with a mistake: one reports it and goes on, the other stops at it. In scopes
that agree they still come to the same verdict. What folds has the type of its value and is not
reported on (`Expr.check_of_fold`). What has a type is not reported on either and folds to a value
of the type, unless it comes to an operation that only types have (`Expr.fold_of_type_check`). What
has no type was reported on (`Expr.type_check_eq_none_iff`), so it does not fold.
-/

namespace TypedCss

/-! ### Operations -/

/-- The types whose values are no numbers. -/
def ValueType.LacksArithmetic (t : ValueType) : Prop := t = .color ∨ t = .bool

/-- An operation that has a value has the type of it. -/
theorem Operator.resultType?_of_fold? {op : Operator} {a b v : Literal}
    (h : op.fold? a b = some v) : op.resultType? a.type b.type = some v.type := by
  cases op <;> cases a <;> cases b <;> cases h <;> rfl

/-- An operation that has a type but no value has an operand that is no number. -/
theorem Operator.IsUnsupported.lacksArithmetic {op : Operator} {s t : ValueType}
    (h : op.IsUnsupported s t) : s.LacksArithmetic ∨ t.LacksArithmetic := by
  cases op with
  | add | subtract => exact .inl h.2
  | multiply =>
    rcases h with ⟨-, ht⟩ | ⟨hs, -⟩
    · exact .inr ht
    · exact .inl hs

/-! ### Expressions -/

namespace Expr

variable {types : Scope (Option ValueType)} {values : Scope Literal}

/-- Nothing is reported on an expression that has a type. -/
theorem check_of_type {e : Expr} {type : ValueType} (h : (e.check types).type = some type) :
    e.check types = ⟨e, some type, 0⟩ := by
  induction e using Expr.pairInduction generalizing type with
  | literal v info => exact congrArg (Typed.mk (literal v info) · 0) h
  | reference name info =>
    rw [check_reference] at h ⊢
    rw [Option.join_eq_some_iff.1 h]
    rfl
  | pair op left right info ihl ihr =>
    rw [check_pair] at h ⊢
    obtain ⟨s, t, hs, ht, hop⟩ := Operator.typeOf?_eq_some_iff.1 h
    rw [ihl hs, ihr ht]
    simp [Operator.typeOf?, Operator.cause?, hop]
  | unpaired op operands info hn =>
    rw [check_unpaired types hn] at h
    cases h

/-- An expression that folds has the type of its value, and nothing is reported on it. -/
theorem check_of_fold (h : types.Agrees values) {e : Expr} {v : Literal}
    (he : e.fold values = .ok v) : e.check types = ⟨e, some v.type, 0⟩ := by
  refine check_of_type ?_
  rw [fold_eq_valueIn] at he
  induction e using Expr.pairInduction generalizing v with
  | literal w info =>
    obtain rfl := Except.ok.inj he
    rfl
  | reference name info =>
    rw [check_reference, h name, valueIn_reference_eq_ok_iff.1 he]
    rfl
  | pair op left right info ihl ihr =>
    obtain ⟨l, r, hl, hr, hop⟩ := valueIn_pair_eq_ok_iff.1 he
    rw [check_pair, ihl hl, ihr hr]
    exact Operator.resultType?_of_fold? hop
  | unpaired op operands info hn =>
    rw [valueIn_unpaired _ hn] at he
    cases he

/-- An expression has no type exactly if something is reported on it. -/
theorem type_check_eq_none_iff (h : types.Agrees values) {e : Expr} :
    (e.check types).type = none ↔ 0 < (e.check types).reports := by
  constructor
  · intro he
    induction e using Expr.pairInduction with
    | literal v info => cases he
    | reference name info =>
      rw [check_reference, h name] at he ⊢
      cases hv : values.lookup name with
      | none => exact Nat.one_pos
      | some v =>
        rw [hv] at he
        cases he
    | pair op left right info ihl ihr =>
      rw [check_pair] at he ⊢
      dsimp only at he ⊢
      cases hl : (left.check types).type with
      | none =>
        have := ihl hl
        omega
      | some s =>
        cases hr : (right.check types).type with
        | none =>
          have := ihr hr
          omega
        | some t =>
          -- Both operands have a type, so it is the operation that is reported.
          rw [hl, hr] at he
          have hop : op.resultType? s t = none := he
          simp [Operator.cause?, hop]
    | unpaired op operands info hn =>
      rw [check_unpaired types hn]
      exact Nat.one_pos
  · intro hr
    cases ht : (e.check types).type with
    | none => rfl
    | some type =>
      rw [check_of_type ht] at hr
      cases hr

/-- Checking and folding agree in scopes that agree. If folding gives a value, checking gives its
type and reports nothing. If checking gives a type, it reports nothing, and folding gives a value of
the type or comes to an operation on a color or on a truth value. What is reported does not fold,
and what has no type is reported. -/
theorem check_agrees_fold (h : types.Agrees values) (e : Expr) :
    (∀ v, e.fold values = .ok v → e.check types = ⟨e, some v.type, 0⟩) ∧
      (∀ type, (e.check types).type = some type → e.check types = ⟨e, some type, 0⟩ ∧
        ((∃ v, e.fold values = .ok v ∧ v.type = type) ∨
          ∃ c : Clash, e.StopsAt values c ∧ e.fold values = .error c.error ∧
            (c.left.type.LacksArithmetic ∨ c.right.type.LacksArithmetic))) ∧
      ((e.check types).type = none ↔ 0 < (e.check types).reports) ∧
      (0 < (e.check types).reports → ∃ error, e.fold values = .error error) := by
  refine ⟨fun v ↦ check_of_fold h, fun type ht ↦ ⟨check_of_type ht, ?_⟩,
    type_check_eq_none_iff h, fun hr ↦ ?_⟩
  · rcases fold_of_type_check h ht with hv | ⟨c, hc, hu⟩
    · exact .inl hv
    · exact .inr ⟨c, hc, fold_of_stopsAt hc, hu.lacksArithmetic⟩
  · cases he : e.fold values with
    | error error => exact ⟨error, rfl⟩
    | ok v =>
      rw [check_of_fold h he] at hr
      cases hr

/-- A product with a sum of two colors, where an inner frame hides a number of the same name. -/
def tinted : Expr :=
  let bare : Info := ⟨.null, []⟩
  .operation .multiply [.reference "--k" bare,
    .operation .add [.reference "--a" bare, .literal (.color "#000") bare] bare] bare

theorem check_agrees_fold_tinted :
    let values : Scope Literal :=
      ((Scope.empty.bind "--a" (.scalar 1)).bind "--k" (.scalar 2)).push.bind "--a" (.color "#fff")
    let types : Scope (Option ValueType) :=
      ((Scope.empty.bind "--a" (some .scalar)).bind "--k" (some .scalar)).push.bind "--a"
        (some .color)
    types.Agrees values ∧ (tinted.check types).type = some .color ∧
      tinted.check types = ⟨tinted, some .color, 0⟩ ∧
      ((∃ v, tinted.fold values = .ok v ∧ v.type = .color) ∨
        ∃ c : Clash, tinted.StopsAt values c ∧ tinted.fold values = .error c.error ∧
          (c.left.type.LacksArithmetic ∨ c.right.type.LacksArithmetic)) := by
  intro values types
  have h : types.Agrees values :=
    ((Scope.Agrees.empty.bind "--a" (.scalar 1)).bind "--k" (.scalar 2)).push.bind "--a"
      (.color "#fff")
  have ht : (tinted.check types).type = some .color := rfl
  obtain ⟨hcheck, hfold⟩ := (check_agrees_fold h tinted).2.1 .color ht
  exact ⟨h, ht, hcheck, hfold⟩

end Expr

end TypedCss

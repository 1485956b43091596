import TypedCss.Proofs.Grammar.Soundness.Expr

/-!
# Rounds of the loop

The reader of expressions reads an operand and then goes round a loop: it stops where no operator
follows that is tighter than its power, and otherwise takes the operator with what is read with the
power of the operator, and goes on (`operators_eq_andThen`).
-/

namespace TypedCss.Grammar

/-! ### One reader after another -/

namespace Outcome

variable {α β γ : Type} {b c : TokenCursor}

/-- Goes on after a success; seen from an earlier cursor. -/
def andThen (o : Outcome α c) (h : b.Reaches c)
    (f : α → (d : TokenCursor) → c.Before d → Outcome β b) : Outcome β b :=
  match o with
  | ok x d k => f x d k
  | error e d k => error e d (h.trans k)

/-- Going on with the value itself changes nothing. -/
theorem andThen_ok_self (o : Outcome α c) : o.andThen .refl (fun x d k ↦ ok x d k) = o := by
  cases o <;> rfl

/-- What goes on may be taken together first. -/
theorem andThen_assoc (o : Outcome α c) (h : b.Reaches c)
    (f : α → (d : TokenCursor) → c.Before d → Outcome β b)
    (g : β → (d : TokenCursor) → b.Before d → Outcome γ b) :
    (o.andThen h f).andThen .refl g =
      o.andThen h fun x d k ↦ (f x d k).andThen .refl g := by
  cases o <;> rfl

/-- What goes on matters only for the success there is. -/
theorem andThen_congr {o : Outcome α c} {h : b.Reaches c}
    {f g : α → (d : TokenCursor) → c.Before d → Outcome β b}
    (hfg : ∀ x d k, o = ok x d k → f x d k = g x d k) : o.andThen h f = o.andThen h g := by
  cases o with
  | ok x d k => exact hfg x d k rfl
  | error e d k => rfl

end Outcome

variable {power next : BindingPower} {start c : TokenCursor} {left : Expr} {op : Operator}

/-! ### Before the loop -/

/-- An expression may begin with an operand of one token. -/
theorem expr_eq_primary (hn : Dispatch.standard.operand c.kind = some .primary) :
    expr .standard power c =
      (primary c).andThen .refl fun left d h ↦ operators .standard power c left d h := by
  rw [expr]
  simp only [hn]
  cases primary c <;> rfl

/-- A parenthesis is closed after the expression in it. -/
theorem grouping_eq_andThen (c : TokenCursor) :
    grouping .standard c =
      (expr .standard .default c.advance).andThen c.reaches_advance fun inner d k ↦
        if d.kind = .closeParen then .ok inner d.advance (c.reaches_advance.trans_before k).advance
        else .error d.mismatch d (c.reaches_advance.trans k.reaches) := by
  rw [grouping]
  cases expr .standard .default c.advance <;> rfl

theorem expr_eq_grouping (hk : c.kind = .openParen) :
    expr .standard power c =
      (grouping .standard c).andThen .refl fun left d h ↦ operators .standard power c left d h := by
  have hn : Dispatch.standard.operand c.kind = some .grouping := by rw [hk]; rfl
  have hc : c.ahead ≠ [] := TokenCursor.ahead_ne_nil_of_kind_ne (by simp [hk])
  rw [expr]
  simp only [hn, hc, ↓reduceDIte]
  cases grouping .standard c <;> rfl

/-! ### Where the loop stops -/

/-- The loop stops at a token that is no operator. -/
theorem operators_of_eq_none (h : start.Before c) (hk : operatorOf? c.kind = none) :
    operators .standard power start left c h = .ok left c h := by
  rw [operators]
  simp only [operator_standard_eq_none.2 hk]

theorem kind_of_operator_multiplicative {k : TokenKind}
    (h : Dispatch.standard.operator k = some .multiplicative) : k = .star := by
  cases k <;> first | rfl | cases h

/-- A product stops where no star follows. -/
theorem operators_additive_of_ne_star (h : start.Before c) (hk : c.kind ≠ .star) :
    operators .standard .additive start left c h = .ok left c h := by
  rw [operators]
  cases hn : Dispatch.standard.operator c.kind with
  | none => rfl
  | some next =>
    rcases operator_standard_cases hn with ⟨rfl, -⟩ | ⟨rfl, -⟩
    · rfl
    · exact absurd (kind_of_operator_multiplicative hn) hk

/-- No operator is tighter than a star. -/
theorem operators_of_multiplicative_le (hpower : BindingPower.multiplicative.rank ≤ power.rank)
    (h : start.Before c) : operators .standard power start left c h = .ok left c h := by
  rw [operators]
  cases hn : Dispatch.standard.operator c.kind with
  | none => rfl
  | some next =>
    have hle : next.rank ≤ power.rank := by
      rcases operator_standard_cases hn with ⟨rfl, -⟩ | ⟨rfl, -⟩
      · exact Nat.le_trans (by decide) hpower
      · exact hpower
    simp only [hle, ↓reduceIte]

/-! ### Where it goes on -/

/-- A tighter operator takes what is read with its own power, and the loop goes on. -/
theorem operators_eq_andThen (h : start.Before c)
    (hn : Dispatch.standard.operator c.kind = some next) (hlt : power.rank < next.rank)
    (hop : operatorOf? c.kind = some op) :
    operators .standard power start left c h =
      (expr .standard next c.advance).andThen (h.reaches.trans c.reaches_advance) fun right d k ↦
        operators .standard power start (operation op left right) d
          (h.trans (c.reaches_advance.trans_before k)) := by
  rw [operators]
  simp only [hn, Nat.not_le.2 hlt, ↓reduceIte]
  rw [binary]
  simp only [hop]
  cases expr .standard next c.advance <;> rfl

end TypedCss.Grammar

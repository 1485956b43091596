import TypedCss.Proofs.Grammar.Derivation
import TypedCss.Proofs.Token.Passes

/-!
# What readers of expressions read

A reader that gives a value has passed tokens that the grammar derives, and the value is the
meaning of the derivation; a reader that gives an error stopped at a token that it could not take,
and the error is about that token. `Outcome.Meets` says both at once, and each reader has one lemma
of this form, here up to `expr_meets`.

What an expression is depends on the power that it is read with: with the loosest it is a whole
expression, with that of a sign it is a product, and with that of a star it is an operand
(`Reads`). Each stops where the next token does not go on.
-/

namespace TypedCss

open TypedCss.Derivation

/-- `t.Refusal e` says that `e` is the error of a reader that cannot take the token `t`. -/
inductive Token.Refusal (t : Token) : Error → Prop where
  /-- Another token was needed. -/
  | mismatch : Refusal t ⟨.unexpectedToken t.value, t.span.start⟩
  /-- Something else was needed. -/
  | unexpected (message : String) :
    Refusal t ⟨.unexpectedTokenDetailed t.value message, t.span.start⟩
  /-- The token is a hash but not a color. -/
  | color (h : t.kind = .hash) (hc : ¬IsColor t.value) :
    Refusal t ⟨.invalidColor t.value, t.span.start⟩
  /-- The token is a number that cannot be read. -/
  | number (h : t.kind = .number ∨ t.kind = .pixel ∨ t.kind = .percentage)
    (hn : Decimal.read? t.value = none) :
    Refusal t ⟨.numberParseError t.value, t.span.start⟩

/-- A token is refused where it starts. -/
theorem Token.Refusal.position_eq {t : Token} {e : Error} (h : t.Refusal e) :
    e.position = t.span.start := by
  cases h <;> rfl

/-- The kind of a token that is not the last one says which terminal it is. -/
theorem TokenCursor.exists_passes_terminal {c : TokenCursor} {kind : TokenKind} (h : c.kind = kind)
    (hk : kind ≠ .eof) :
    ∃ t : Terminal kind, t.token = c.current ∧ c.Passes [t.token] c.advance := by
  obtain ⟨t, ht⟩ := Terminal.exists_token_eq h
  refine ⟨t, ht, ?_⟩
  rw [ht]
  exact passes_advance (ahead_ne_nil_of_kind_ne (h ▸ hk))

namespace Grammar

namespace Outcome

variable {α β : Type} {b c : TokenCursor}

/-- What a reader gives is as `Q` says, or it is an error about the token where it stopped. -/
def Meets (Q : α → TokenCursor → Prop) : Outcome α c → Prop
  | ok a d _ => Q a d
  | error e d _ => d.current.Refusal e

@[simp] theorem meets_ok {Q : α → TokenCursor → Prop} {a : α} {d : TokenCursor}
    {h : c.Before d} : (ok a d h).Meets Q ↔ Q a d := Iff.rfl

@[simp] theorem meets_error {Q : α → TokenCursor → Prop} {e : Error} {d : TokenCursor}
    {h : c.Reaches d} : (error e d h : Outcome α c).Meets Q ↔ d.current.Refusal e := Iff.rfl

@[simp] theorem meets_since {Q : α → TokenCursor → Prop} {h : b.Reaches c} {o : Outcome α c} :
    (o.since h).Meets Q ↔ o.Meets Q := by
  cases o <;> rfl

@[simp] theorem meets_map {Q : β → TokenCursor → Prop} {f : α → β} {o : Outcome α c} :
    (o.map f).Meets Q ↔ o.Meets fun a d ↦ Q (f a) d := by
  cases o <;> rfl

theorem Meets.mono {Q R : α → TokenCursor → Prop} {o : Outcome α c} (h : o.Meets Q)
    (hqr : ∀ a d, Q a d → R a d) : o.Meets R := by
  cases o with
  | ok a d _ => exact hqr a d h
  | error _ _ _ => exact h

/-- What is given is as `Q` says. -/
theorem Meets.of_eq_ok {Q : α → TokenCursor → Prop} {o : Outcome α c} {a : α} {d : TokenCursor}
    {k : c.Before d} (h : o.Meets Q) (ho : o = .ok a d k) : Q a d := by
  subst ho
  exact h

end Outcome

/-! ### Operands of one token -/

/-- The number of a numeric token, or why there is none. -/
theorem number_cases (t : Token) :
    (∃ x, Decimal.read? t.value = some x ∧ number t = .ok x) ∨
      Decimal.read? t.value = none ∧
        number t = .error ⟨.numberParseError t.value, t.span.start⟩ := by
  rw [number]
  cases Decimal.read? t.value with
  | none => exact .inr ⟨rfl, rfl⟩
  | some x => exact .inl ⟨x, rfl, rfl⟩

/-- The color of a hash token, or why there is none. -/
theorem color_cases (t : Token) :
    IsColor t.value ∧ color t = .ok t.value ∨
      ¬IsColor t.value ∧ color t = .error ⟨.invalidColor t.value, t.span.start⟩ := by
  rw [color]
  split
  · rename_i h
    exact .inl ⟨(isColor_iff _).1 h, rfl⟩
  · rename_i h
    exact .inr ⟨fun hc ↦ h ((isColor_iff _).2 hc), rfl⟩

/-- A token that may be an operand is one, or it is refused. -/
theorem operandOf?_cases {t : Token} {r : Except Error Expr} (h : operandOf? t = some r) :
    (∃ p : Primary, p.token = t ∧ r = .ok p.tree) ∨ ∃ e, t.Refusal e ∧ r = .error e := by
  obtain ⟨kind, value, span⟩ := t
  have hnumber := number_cases ⟨kind, value, span⟩
  have hcolor := color_cases ⟨kind, value, span⟩
  cases kind <;> simp only [operandOf?, Option.some.injEq, reduceCtorEq] at h <;> subst h
  case number =>
    rcases hnumber with ⟨x, hx, he⟩ | ⟨hx, he⟩ <;> rw [he]
    · exact .inl ⟨.number ⟨value, span⟩ x hx, rfl, rfl⟩
    · exact .inr ⟨_, .number (.inl rfl) hx, rfl⟩
  case pixel =>
    rcases hnumber with ⟨x, hx, he⟩ | ⟨hx, he⟩ <;> rw [he]
    · exact .inl ⟨.pixel ⟨value, span⟩ x hx, rfl, rfl⟩
    · exact .inr ⟨_, .number (.inr (.inl rfl)) hx, rfl⟩
  case percentage =>
    rcases hnumber with ⟨x, hx, he⟩ | ⟨hx, he⟩ <;> rw [he]
    · exact .inl ⟨.percentage ⟨value, span⟩ x hx, rfl, rfl⟩
    · exact .inr ⟨_, .number (.inr (.inr rfl)) hx, rfl⟩
  case hash =>
    rcases hcolor with ⟨hc, he⟩ | ⟨hc, he⟩ <;> rw [he]
    · exact .inl ⟨.color ⟨value, span⟩ hc, rfl, rfl⟩
    · exact .inr ⟨_, .color rfl hc, rfl⟩
  case trueWord => exact .inl ⟨.yes ⟨value, span⟩, rfl, rfl⟩
  case falseWord => exact .inl ⟨.no ⟨value, span⟩, rfl, rfl⟩
  case variableName => exact .inl ⟨.variableName ⟨value, span⟩, rfl, rfl⟩
  case identifier => exact .inl ⟨.identifier ⟨value, span⟩, rfl, rfl⟩

theorem primary_meets (c : TokenCursor) :
    (primary c).Meets fun e d ↦ ∃ p : Primary, c.Passes [p.token] d ∧ p.tree = e := by
  rw [primary]
  split
  · exact .unexpected _
  · rename_i e h
    obtain ⟨p, -, hp⟩ | ⟨e', he, hp⟩ := operandOf?_cases h
    · cases hp
    · cases hp
      exact he
  · rename_i e h
    obtain ⟨p, ht, hp⟩ | ⟨e', -, hp⟩ := operandOf?_cases h
    · cases hp
      refine ⟨p, ?_, rfl⟩
      rw [ht]
      exact TokenCursor.passes_advance
        (TokenCursor.ahead_ne_nil_of_kind_ne (kind_ne_eof_of_operandOf? h))
    · cases hp

/-! ### Expressions -/

/-- What is read with each power, from `c` to `d`. -/
def Reads (c : TokenCursor) (e : Expr) (d : TokenCursor) : BindingPower → Prop
  | .default => ∃ x : Expression, c.Passes x.tokens d ∧ x.tree = e ∧ operatorOf? d.kind = none
  | .additive => ∃ x : Product, c.Passes x.tokens d ∧ x.tree = e ∧ d.kind ≠ .star
  | .multiplicative | .primary => ∃ x : Operand, c.Passes x.tokens d ∧ x.tree = e

/-- What is read with each power after `left`, from `c` to `d`. -/
def GoesOn (left : Expr) (c : TokenCursor) (e : Expr) (d : TokenCursor) : BindingPower → Prop
  | .default => ∃ (fs : Factors) (ts : Terms), c.Passes (fs.tokens ++ ts.tokens) d ∧
      ts.join (fs.join left) = e ∧ operatorOf? d.kind = none
  | .additive => ∃ fs : Factors, c.Passes fs.tokens d ∧ fs.join left = e ∧ d.kind ≠ .star
  | .multiplicative | .primary => d = c ∧ left = e

/-- What goes on after an operand makes up what is read. -/
theorem GoesOn.reads {power : BindingPower} {b c d : TokenCursor} {x : Operand} {e : Expr}
    (hx : b.Passes x.tokens c) (h : GoesOn x.tree c e d power) : Reads b e d power := by
  cases power with
  | default =>
    obtain ⟨fs, ts, hp, he, hk⟩ := h
    refine ⟨.mk (.mk x fs) ts, ?_, he, hk⟩
    simpa only [Expression.tokens, Product.tokens, List.append_assoc] using hx.append hp
  | additive =>
    obtain ⟨fs, hp, he, hk⟩ := h
    exact ⟨.mk x fs, hx.append hp, he, hk⟩
  | multiplicative | primary =>
    all_goals
      obtain ⟨rfl, he⟩ := h
      exact ⟨x, hx, he⟩

/-- A kind that binds as an operator is a sign or a star. -/
theorem operator_standard_cases {c : TokenCursor} {power : BindingPower}
    (h : Dispatch.standard.operator c.kind = some power) :
    (power = .additive ∧ ∃ sign : Sign, operatorOf? c.kind = some sign.operator ∧
        c.Passes [sign.token] c.advance) ∨
      (power = .multiplicative ∧ ∃ star : Terminal .star, operatorOf? c.kind = some .multiply ∧
        c.Passes [star.token] c.advance) := by
  cases hk : c.kind <;> rw [hk] at h <;> cases h
  case plus =>
    obtain ⟨t, -, ht⟩ := c.exists_passes_terminal hk (by decide)
    exact .inl ⟨rfl, .plus t, rfl, ht⟩
  case dash =>
    obtain ⟨t, -, ht⟩ := c.exists_passes_terminal hk (by decide)
    exact .inl ⟨rfl, .minus t, rfl, ht⟩
  case star =>
    obtain ⟨t, -, ht⟩ := c.exists_passes_terminal hk (by decide)
    exact .inr ⟨rfl, t, rfl, ht⟩

theorem operator_standard_eq_none {k : TokenKind} :
    Dispatch.standard.operator k = none ↔ operatorOf? k = none := by
  cases k <;> decide

/-- A sign with a product goes on where no star follows the product. -/
theorem GoesOn.cons_sign {left e : Expr} {b c d : TokenCursor} {sign : Sign} {x : Product}
    (hx : b.Passes (sign.token :: x.tokens) c) (hk : c.kind ≠ .star)
    (h : GoesOn (operation sign.operator left x.tree) c e d .default) :
    GoesOn left b e d .default := by
  obtain ⟨fs, ts, hp, he, hd⟩ := h
  cases fs with
  | nil =>
    refine ⟨.nil, .cons sign x ts, ?_, he, hd⟩
    simpa only [Factors.tokens, Terms.tokens, List.nil_append, List.cons_append] using hx.append hp
  | cons star o fs => exact absurd hp.kind_eq hk

/-- A star with an operand goes on with every power that is looser than that of a star. -/
theorem GoesOn.cons_star {power : BindingPower} {left e : Expr} {b c d : TokenCursor}
    {star : Terminal .star} {x : Operand} (hx : b.Passes (star.token :: x.tokens) c)
    (hpower : power.rank < BindingPower.multiplicative.rank)
    (h : GoesOn (operation .multiply left x.tree) c e d power) : GoesOn left b e d power := by
  cases power with
  | default =>
    obtain ⟨fs, ts, hp, he, hd⟩ := h
    refine ⟨.cons star x fs, ts, ?_, he, hd⟩
    simpa only [Factors.tokens, List.cons_append, List.append_assoc] using hx.append hp
  | additive =>
    obtain ⟨fs, hp, he, hd⟩ := h
    exact ⟨.cons star x fs, hx.append hp, he, hd⟩
  | multiplicative | primary => exact absurd hpower (by decide)

/-- Reading stops where the next token is no operator. -/
theorem GoesOn.stop_of_eq_none {power : BindingPower} {left : Expr} {c : TokenCursor}
    (h : operatorOf? c.kind = none) : GoesOn left c left c power := by
  have hk : c.kind ≠ .star := by
    intro hk
    rw [hk] at h
    cases h
  cases power with
  | default => exact ⟨.nil, .nil, .nil c, rfl, h⟩
  | additive => exact ⟨.nil, .nil c, rfl, hk⟩
  | multiplicative | primary => exact ⟨rfl, rfl⟩

/-- Reading stops where the next operator binds no more tightly than the power. -/
theorem GoesOn.stop_of_rank_le {power next : BindingPower} {left : Expr} {c : TokenCursor}
    (h : Dispatch.standard.operator c.kind = some next) (hle : next.rank ≤ power.rank) :
    GoesOn left c left c power := by
  cases power with
  | default =>
    cases hk : c.kind <;> rw [hk] at h <;> cases h <;> exact absurd hle (by decide)
  | additive =>
    refine ⟨.nil, .nil c, rfl, fun hk ↦ ?_⟩
    rw [hk] at h
    cases h
    exact absurd hle (by decide)
  | multiplicative | primary => exact ⟨rfl, rfl⟩

theorem exists_operatorOf? {c : TokenCursor} {power : BindingPower}
    (h : Dispatch.standard.operator c.kind = some power) : ∃ op, operatorOf? c.kind = some op := by
  rcases operator_standard_cases h with ⟨-, sign, hop, -⟩ | ⟨-, star, hop, -⟩
  · exact ⟨_, hop⟩
  · exact ⟨_, hop⟩

theorem kind_of_operand_grouping {k : TokenKind}
    (h : Dispatch.standard.operand k = some .grouping) : k = .openParen := by
  cases k <;> first | rfl | cases h

/-- What each power reads. -/
theorem expr_meets_all :
    (∀ power c, (expr .standard power c).Meets fun e d ↦ Reads c e d power) ∧
      (∀ c, c.kind = .openParen → (grouping .standard c).Meets fun e d ↦
        ∃ x : Operand, c.Passes x.tokens d ∧ x.tree = e) ∧
      (∀ power start left c h, (operators .standard power start left c h).Meets fun e d ↦
        GoesOn left c e d power) ∧
      ∀ left power c, ∀ op, operatorOf? c.kind = some op →
        (binary .standard left power c).Meets fun e d ↦
          ∃ right, Reads c.advance right d power ∧ operation op left right = e := by
  apply expr.mutual_induct .standard
  -- An expression is an operand and what the loop goes on with.
  case case1 =>
    intro power c h
    rw [expr]
    simp only [h]
    exact .unexpected _
  case case2 =>
    intro power c h e d k hp
    have hm := primary_meets c
    rw [hp] at hm
    rw [expr]
    simp only [h, hp]
    exact hm
  case case3 =>
    intro power c h left d k hp ih
    have hm := primary_meets c
    rw [hp] at hm
    obtain ⟨p, hpass, rfl⟩ := hm
    rw [expr]
    simp only [h, hp]
    exact ih.mono fun e f hg ↦ hg.reads (x := .primary p) hpass
  case case4 =>
    intro power c h hc
    rw [expr]
    simp only [h, hc]
    exact .unexpected _
  case case5 =>
    intro power c h hc e d k hg ih
    rw [hg] at ih
    rw [expr]
    simp only [h, hc, hg, ↓reduceDIte]
    exact ih (kind_of_operand_grouping h)
  case case6 =>
    intro power c h hc left d k hg ih1 ih2
    rw [hg] at ih1
    obtain ⟨x, hpass, rfl⟩ := ih1 (kind_of_operand_grouping h)
    rw [expr]
    simp only [h, hc, hg, ↓reduceDIte]
    exact ih2.mono fun e f hg ↦ hg.reads hpass
  -- Between parentheses stands a whole expression.
  case case7 =>
    intro c e d k he ih hk
    rw [← Outcome.meets_since (h := c.reaches_advance), he] at ih
    rw [grouping]
    simp only [he]
    exact ih
  case case8 =>
    intro c inner d k he hd ih hk
    rw [← Outcome.meets_since (h := c.reaches_advance), he] at ih
    obtain ⟨x, hx, rfl, -⟩ := ih
    obtain ⟨opening, -, ho⟩ := c.exists_passes_terminal hk (by decide)
    obtain ⟨closing, -, hc⟩ := d.exists_passes_terminal hd (by decide)
    rw [grouping]
    simp only [he, hd, ↓reduceIte]
    exact ⟨.group opening x closing, ho.append (hx.append hc), rfl⟩
  case case9 =>
    intro c inner d k he hd ih hk
    rw [grouping]
    simp only [he, hd, ↓reduceIte]
    exact .mismatch
  -- The loop stops before an operator that is not tighter than the power.
  case case10 =>
    intro power start left c h hn
    rw [operators]
    simp only [hn]
    exact .stop_of_eq_none (operator_standard_eq_none.1 hn)
  case case11 =>
    intro power start left c h next hn hle
    rw [operators]
    simp only [hn, hle, ↓reduceIte]
    exact .stop_of_rank_le hn hle
  case case12 =>
    intro power start left c h next hn hle e d k hb ih
    obtain ⟨op, hop⟩ := exists_operatorOf? hn
    have hm := ih op hop
    rw [hb] at hm
    rw [operators]
    simp only [hn, hle, hb, ↓reduceIte]
    exact hm
  case case13 =>
    intro power start left c h next hn hle whole d k hb ih1 ih2
    rw [operators]
    simp only [hn, hle, hb, ↓reduceIte]
    -- A sign is tighter than the loosest power only; its right operand is a product, and that of a
    -- star is an operand.
    rcases operator_standard_cases hn with ⟨rfl, sign, hop, hs⟩ | ⟨rfl, star, hop, hs⟩
    · obtain rfl : power = .default := by
        cases power <;> first | rfl | exact absurd (by decide) hle
      have hm := ih1 _ hop
      rw [hb] at hm
      obtain ⟨right, ⟨x, hx, rfl, hk⟩, rfl⟩ := hm
      exact ih2.mono fun e f hg ↦ hg.cons_sign (hs.append hx) hk
    · have hm := ih1 _ hop
      rw [hb] at hm
      obtain ⟨right, ⟨x, hx, rfl⟩, rfl⟩ := hm
      exact ih2.mono fun e f hg ↦ hg.cons_star (hs.append hx) (Nat.lt_of_not_le hle)
  -- An operator takes what is read with its own power.
  case case14 =>
    intro left power c hn op hop
    rw [hn] at hop
    cases hop
  case case15 =>
    intro left power c op hop ih op' hop'
    cases hop.symm.trans hop'
    rw [binary]
    simp only [hop, Outcome.meets_map, Outcome.meets_since]
    exact ih.mono fun e d he ↦ ⟨e, he, rfl⟩

/-- With each power, a reader of expressions gives what the power reads. -/
theorem expr_meets (power : BindingPower) (c : TokenCursor) :
    (expr .standard power c).Meets fun e d ↦ Reads c e d power :=
  expr_meets_all.1 power c

end Grammar

end TypedCss

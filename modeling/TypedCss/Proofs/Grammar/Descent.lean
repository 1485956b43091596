import TypedCss.Proofs.Grammar.Rounds

/-!
# Reading expressions by descent

An expression can also be read without comparing binding powers, by one reader for each level: a
factor is a value, a variable or a sum between parentheses; a product is a factor, followed by stars
with a factor each; a sum is a product, followed by signs with a product each. `expr` reads what the
reader of the level reads that its power stands for, and fails as it fails (`expr_eq_descent`).
-/

namespace TypedCss.Grammar

/-! ### The readers -/

namespace Descent

/-- The operator between two products that a kind of token stands for. -/
def sign? : TokenKind → Option Operator
  | .plus => some .add
  | .dash => some .subtract
  | _ => none

/-- Takes a token for a value, or fails with the cause for which it is none. -/
def literal (c : TokenCursor) (hk : c.kind ≠ .eof) : Except Cause Literal → Outcome Expr c
  | .ok v =>
    .ok (.literal v ⟨c.current.span, []⟩) c.advance (TokenCursor.before_advance_of_kind_ne hk)
  | .error cause => .error ⟨cause, c.current.span.start⟩ c .refl

/-- The number with a unit that a text is. -/
def numeral (unit : Float → Literal) (text : String) : Except Cause Literal :=
  match Decimal.read? text with
  | some x => .ok (unit x)
  | none => .error (.numberParseError text)

/-- The color that a text is. -/
def hex (text : String) : Except Cause Literal :=
  if isColor text then .ok (.color text) else .error (.invalidColor text)

/-- Takes a token for a variable. -/
def reference (c : TokenCursor) (hk : c.kind ≠ .eof) : Outcome Expr c :=
  .ok (.reference c.current.value ⟨c.current.span, []⟩) c.advance
    (TokenCursor.before_advance_of_kind_ne hk)

/-- Reads a value or a variable. -/
def atom (c : TokenCursor) : Outcome Expr c :=
  match hk : c.kind with
  | .number => literal c (by simp [hk]) (numeral .scalar c.current.value)
  | .pixel => literal c (by simp [hk]) (numeral .pixel c.current.value)
  | .percentage => literal c (by simp [hk]) (numeral .percentage c.current.value)
  | .hash => literal c (by simp [hk]) (hex c.current.value)
  | .trueWord => literal c (by simp [hk]) (.ok (.bool true))
  | .falseWord => literal c (by simp [hk]) (.ok (.bool false))
  | .variableName => reference c (by simp [hk])
  | .identifier => reference c (by simp [hk])
  | _ => .error (c.unexpected "expected an expression") c .refl

mutual

/-- Reads a value, a variable, or a sum between parentheses. -/
def factor (c : TokenCursor) : Outcome Expr c :=
  if _hk : c.kind = .openParen then
    (sum c.advance).andThen c.reaches_advance fun inner d k ↦
      if d.kind = .closeParen then .ok inner d.advance (c.reaches_advance.trans_before k).advance
      else .error d.mismatch d (c.reaches_advance.trans k.reaches)
  else atom c
termination_by 4 * c.ahead.length
decreasing_by
  have := (TokenCursor.before_advance_of_kind_ne (c := c) (by simp [_hk])).shorter
  omega

/-- Reads a factor and the factors after it. -/
def product (c : TokenCursor) : Outcome Expr c :=
  (factor c).andThen .refl fun left d h ↦ moreFactors c left d h
termination_by 4 * c.ahead.length + 1
decreasing_by
  · omega
  · have := h.shorter; omega

/-- Reads a product and the products after it. -/
def sum (c : TokenCursor) : Outcome Expr c :=
  (product c).andThen .refl fun left d h ↦ moreTerms c left d h
termination_by 4 * c.ahead.length + 2
decreasing_by
  · omega
  · have := h.shorter; omega

/-- Goes on after `left`, which was read from `start`, while a star follows. -/
def moreFactors (start : TokenCursor) (left : Expr) (c : TokenCursor) (h : start.Before c) :
    Outcome Expr start :=
  if c.kind = .star then
    (factor c.advance).andThen (h.reaches.trans c.reaches_advance) fun right d k ↦
      moreFactors start (operation .multiply left right) d
        (h.trans (c.reaches_advance.trans_before k))
  else .ok left c h
termination_by 4 * c.ahead.length + 3
decreasing_by
  · have := c.length_advance_le; omega
  · have := (c.reaches_advance.trans_before k).shorter; omega

/-- Goes on after `left`, which was read from `start`, while a sign follows. -/
def moreTerms (start : TokenCursor) (left : Expr) (c : TokenCursor) (h : start.Before c) :
    Outcome Expr start :=
  match sign? c.kind with
  | some op =>
    (product c.advance).andThen (h.reaches.trans c.reaches_advance) fun right d k ↦
      moreTerms start (operation op left right) d (h.trans (c.reaches_advance.trans_before k))
  | none => .ok left c h
termination_by 4 * c.ahead.length + 3
decreasing_by
  · have := c.length_advance_le; omega
  · have := (c.reaches_advance.trans_before k).shorter; omega

end

/-- The reader of the level that a power stands for. -/
def read : BindingPower → (c : TokenCursor) → Outcome Expr c
  | .default => sum
  | .additive => product
  | .multiplicative | .primary => factor

/-! ### Where the readers stop -/

/-- Going on with factors ends where no star follows. -/
theorem kind_ne_star_of_moreFactors {start c d : TokenCursor} {left x : Expr} {h : start.Before c}
    {k : start.Before d} (hx : moreFactors start left c h = .ok x d k) : d.kind ≠ .star := by
  rw [moreFactors] at hx
  split at hx
  · cases hf : factor c.advance with
    | error e b m =>
      rw [hf] at hx
      cases hx
    | ok right b m =>
      rw [hf] at hx
      exact kind_ne_star_of_moreFactors hx
  · rename_i hk
    cases hx
    exact hk
termination_by c.ahead.length
decreasing_by exact (c.reaches_advance.trans_before m).shorter

/-- A product takes all its stars. -/
theorem kind_ne_star_of_product {c d : TokenCursor} {x : Expr} {k : c.Before d}
    (hx : product c = .ok x d k) : d.kind ≠ .star := by
  rw [product] at hx
  cases hf : factor c with
  | error e b m =>
    rw [hf] at hx
    cases hx
  | ok left b m =>
    rw [hf] at hx
    exact kind_ne_star_of_moreFactors hx

end Descent

/-! ### The kinds of tokens -/

variable {k : TokenKind} {op : Operator}

/-- A sign is an operator of the additive power. -/
theorem operator_of_sign? (h : Descent.sign? k = some op) :
    Dispatch.standard.operator k = some .additive ∧ operatorOf? k = some op := by
  cases k <;> cases h <;> exact ⟨rfl, rfl⟩

/-- There are no operators but the signs and the star. -/
theorem operatorOf?_eq_none_of_sign? (h : Descent.sign? k = none) (hk : k ≠ .star) :
    operatorOf? k = none := by
  cases k <;> first | rfl | cases hk rfl | cases h

/-! ### Agreement -/

variable {power : BindingPower} {c : TokenCursor}

open Descent

/-- The reader of operands takes a token for the value that it is, or fails at it. -/
theorem primary_eq_literal (hk : c.kind ≠ .eof) {v : Except Cause Literal}
    (h : operandOf? c.current = some ((v.mapError (⟨·, c.current.span.start⟩)).map
      (Expr.literal · ⟨c.current.span, []⟩))) : primary c = literal c hk v := by
  rw [primary]
  split
  all_goals
    rename_i hp
    rw [h] at hp
    cases v <;> cases hp
  all_goals rfl

/-- The reader of operands takes a token for a variable. -/
theorem primary_eq_reference (hk : c.kind ≠ .eof)
    (h : operandOf? c.current = some (.ok (.reference c.current.value ⟨c.current.span, []⟩))) :
    primary c = reference c hk := by
  rw [primary]
  split
  all_goals
    rename_i hp
    rw [h] at hp
    cases hp
  rfl

/-- A numeral is refused where its token starts. -/
theorem map_number (unit : Float → Literal) (t : Token) :
    ((number t).map unit).map (Expr.literal · ⟨t.span, []⟩) =
      ((numeral unit t.value).mapError (⟨·, t.span.start⟩)).map (Expr.literal · ⟨t.span, []⟩) := by
  rw [number, numeral]
  cases Decimal.read? t.value <;> rfl

/-- So is a hash that is no color. -/
theorem map_color (t : Token) :
    ((color t).map Literal.color).map (Expr.literal · ⟨t.span, []⟩) =
      ((hex t.value).mapError (⟨·, t.span.start⟩)).map (Expr.literal · ⟨t.span, []⟩) := by
  rw [color, hex]
  cases isColor t.value <;> rfl

/-- An operand of one token is read in the same way. -/
theorem atom_eq_primary (h : Dispatch.standard.operand c.kind = some .primary) :
    atom c = primary c := by
  have hkind : c.current.kind = c.kind := rfl
  rw [atom]
  split
  case h_1 hk | h_2 hk | h_3 hk =>
    refine (primary_eq_literal (by simp [hk]) ?_).symm
    rw [operandOf?, hkind, hk]
    exact congrArg some (map_number _ _)
  case h_4 hk =>
    refine (primary_eq_literal (by simp [hk]) ?_).symm
    rw [operandOf?, hkind, hk]
    exact congrArg some (map_color _)
  case h_5 hk | h_6 hk =>
    refine (primary_eq_literal (by simp [hk]) ?_).symm
    rw [operandOf?, hkind, hk]
    rfl
  case h_7 hk | h_8 hk =>
    refine (primary_eq_reference (by simp [hk]) ?_).symm
    rw [operandOf?, hkind, hk]
  case h_9 =>
    -- No other kind begins an operand of one token.
    cases hk : c.kind <;> rw [hk] at h <;> contradiction

/-- A kind that begins no operand begins no expression. -/
theorem atom_of_operand_eq_none (h : Dispatch.standard.operand c.kind = none) :
    atom c = .error (c.unexpected "expected an expression") c .refl := by
  rw [atom]
  split
  case h_9 => rfl
  all_goals
    rename_i hk
    rw [hk] at h
    cases h

/-- An expression that begins with no parenthesis begins with a value or a variable. -/
theorem expr_eq_atom (power : BindingPower) (hk : c.kind ≠ .openParen) :
    expr .standard power c =
      (atom c).andThen .refl fun left d h ↦ operators .standard power c left d h := by
  cases hp : Dispatch.standard.operand c.kind with
  | none =>
    rw [atom_of_operand_eq_none hp, expr]
    simp only [hp]
    rfl
  | some form =>
    cases form with
    | primary => rw [atom_eq_primary hp, expr_eq_primary hp]
    | grouping => exact absurd (kind_of_operand_grouping hp) hk

/-- No operator is taken after a factor by a power that is as tight as that of a star. -/
theorem factor_operators (hpower : BindingPower.multiplicative.rank ≤ power.rank)
    (c : TokenCursor) :
    ((factor c).andThen .refl fun left d h ↦ operators .standard power c left d h) = factor c :=
  (Outcome.andThen_congr fun _ _ h _ ↦ operators_of_multiplicative_le hpower h).trans
    (Outcome.andThen_ok_self _)

/-- No star is left after a product. -/
theorem product_operators_additive (c : TokenCursor) :
    ((product c).andThen .refl fun left d h ↦ operators .standard .additive c left d h) =
      product c :=
  (Outcome.andThen_congr fun _ _ h hp ↦
    operators_additive_of_ne_star h (kind_ne_star_of_product hp)).trans
      (Outcome.andThen_ok_self _)

mutual

/-- Every power begins with a factor. -/
theorem expr_eq_factor (power : BindingPower) (c : TokenCursor) :
    expr .standard power c =
      (factor c).andThen .refl fun left d h ↦ operators .standard power c left d h := by
  rw [factor]
  by_cases hk : c.kind = .openParen
  · rw [expr_eq_grouping hk, grouping_eq_andThen, expr_default_eq_sum c.advance, dif_pos hk]
  · rw [expr_eq_atom power hk, dif_neg hk]
termination_by 4 * c.ahead.length
decreasing_by
  have := (TokenCursor.before_advance_of_kind_ne (c := c) (by simp [hk])).shorter
  omega

/-- A power looser than that of a star begins with a product. -/
theorem expr_eq_product (power : BindingPower)
    (hpower : power.rank < BindingPower.multiplicative.rank) (c : TokenCursor) :
    expr .standard power c =
      (product c).andThen .refl fun left d h ↦ operators .standard power c left d h := by
  rw [expr_eq_factor power c, product, Outcome.andThen_assoc]
  exact Outcome.andThen_congr fun left d h _ ↦ operators_eq_moreFactors power hpower c left d h
termination_by 4 * c.ahead.length + 1
decreasing_by
  · omega
  · have := h.shorter; omega

theorem expr_default_eq_sum (c : TokenCursor) : expr .standard .default c = sum c := by
  rw [expr_eq_product .default (by decide) c, sum]
  exact Outcome.andThen_congr fun left d h hp ↦
    operators_eq_moreTerms c left d h (kind_ne_star_of_product hp)
termination_by 4 * c.ahead.length + 2
decreasing_by
  · omega
  · have := h.shorter; omega

theorem operators_eq_moreFactors (power : BindingPower)
    (hpower : power.rank < BindingPower.multiplicative.rank) (start : TokenCursor) (left : Expr)
    (c : TokenCursor) (h : start.Before c) :
    operators .standard power start left c h =
      (moreFactors start left c h).andThen .refl fun x d k ↦
        operators .standard power start x d k := by
  rw [moreFactors]
  split
  · rename_i hk
    have hr : expr .standard .multiplicative c.advance = factor c.advance := by
      rw [expr_eq_factor .multiplicative c.advance, factor_operators (Nat.le_refl _)]
    rw [operators_eq_andThen h (by rw [hk]; rfl) hpower (by rw [hk]; rfl), hr,
      Outcome.andThen_assoc]
    exact Outcome.andThen_congr fun right d k _ ↦
      operators_eq_moreFactors power hpower start _ d (h.trans (c.reaches_advance.trans_before k))
  · rfl
termination_by 4 * c.ahead.length + 3
decreasing_by
  · have := c.length_advance_le; omega
  · have := (c.reaches_advance.trans_before k).shorter; omega

theorem operators_eq_moreTerms (start : TokenCursor) (left : Expr) (c : TokenCursor)
    (h : start.Before c) (hstar : c.kind ≠ .star) :
    operators .standard .default start left c h = moreTerms start left c h := by
  rw [moreTerms]
  split
  · rename_i op hop
    obtain ⟨hn, hop⟩ := operator_of_sign? hop
    have hr : expr .standard .additive c.advance = product c.advance := by
      rw [expr_eq_product .additive (by decide) c.advance, product_operators_additive]
    rw [operators_eq_andThen h hn (by decide) hop, hr]
    exact Outcome.andThen_congr fun right d k hp ↦
      operators_eq_moreTerms start _ d (h.trans (c.reaches_advance.trans_before k))
        (kind_ne_star_of_product hp)
  · rename_i hn
    exact operators_of_eq_none h (operatorOf?_eq_none_of_sign? hn hstar)
termination_by 4 * c.ahead.length + 3
decreasing_by
  · have := c.length_advance_le; omega
  · have := (c.reaches_advance.trans_before k).shorter; omega

end

/-- With every power, an expression is read as by descent: the same tree, up to the same token, or
the same error at the same token. -/
theorem expr_eq_descent (power : BindingPower) (c : TokenCursor) :
    expr .standard power c = Descent.read power c := by
  cases power with
  | default => exact expr_default_eq_sum c
  | additive => exact (expr_eq_product .additive (by decide) c).trans (product_operators_additive c)
  | multiplicative | primary => exact (expr_eq_factor _ c).trans (factor_operators (by decide) c)

end TypedCss.Grammar

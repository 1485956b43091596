import TypedCss.Proofs.Grammar.Derivation

/-!
# A list of tokens has one derivation

Two derivations of one category that derive the same tokens are the same. The tokens of a part end
somewhere in those of the whole, so this is proved for parts with something after them: if
`x.tokens ++ rest = y.tokens ++ rest'`, then `x = y` and `rest = rest'`. For a category that could
go on, neither `rest` may begin with what it goes on with (`Follows`).
-/

namespace TypedCss.Derivation

open Grammar (operatorOf?)

/-- `Follows P ts` says that `ts` is empty, or begins with a token whose kind satisfies `P`. -/
def Follows (P : TokenKind → Prop) (ts : List Token) : Prop := ∀ t ∈ ts.head?, P t.kind

theorem follows_cons {P : TokenKind → Prop} {t : Token} {ts : List Token} :
    Follows P (t :: ts) ↔ P t.kind := by
  simp [Follows]

theorem Follows.mono {P Q : TokenKind → Prop} {ts : List Token} (h : Follows P ts)
    (hpq : ∀ k, P k → Q k) : Follows Q ts :=
  fun t ht ↦ hpq t.kind (h t ht)

/-! ### Expressions -/

theorem Primary.token_inj {p q : Primary} (h : p.token = q.token) : p = q := by
  have hk := congrArg Token.kind h
  cases p <;> cases q <;> cases hk <;> obtain rfl := Terminal.token_inj.1 h
  case number.number t x hx y hy =>
    obtain rfl := Option.some.inj (hx.symm.trans hy)
    rfl
  case pixel.pixel t x hx y hy =>
    obtain rfl := Option.some.inj (hx.symm.trans hy)
    rfl
  case percentage.percentage t x hx y hy =>
    obtain rfl := Option.some.inj (hx.symm.trans hy)
    rfl
  all_goals rfl

theorem Primary.kind_token_ne_openParen (p : Primary) : p.token.kind ≠ .openParen := by
  cases p <;> simp [Primary.token]

theorem Sign.token_inj {p q : Sign} (h : p.token = q.token) : p = q := by
  have hk := congrArg Token.kind h
  cases p <;> cases q <;> cases hk <;> obtain rfl := Terminal.token_inj.1 h
  all_goals rfl

theorem Sign.kind_token_ne_star (s : Sign) : s.token.kind ≠ .star := by
  cases s <;> simp [Sign.token]

theorem Sign.operatorOf?_token (s : Sign) : operatorOf? s.token.kind = some s.operator := by
  cases s <;> rfl

/-- After a product of a sum there is no star. -/
theorem Terms.follows_tokens (ts : Terms) {rest : List Token}
    (h : Follows (operatorOf? · = none) rest) : Follows (· ≠ .star) (ts.tokens ++ rest) := by
  cases ts with
  | nil =>
    refine h.mono fun k hk hs ↦ ?_
    rw [hs] at hk
    cases hk
  | cons sign x others => exact follows_cons.2 sign.kind_token_ne_star

mutual

/-- The tokens of an operand show where it ends. -/
theorem operand_unique (x y : Operand) {rest rest' : List Token}
    (h : x.tokens ++ rest = y.tokens ++ rest') : x = y ∧ rest = rest' := by
  match x, y with
  | .primary p, .primary q =>
    obtain ⟨ht, hrest⟩ := List.cons.inj h
    obtain rfl := Primary.token_inj ht
    exact ⟨rfl, hrest⟩
  | .primary p, .group opening inner closing =>
    have ht := (List.cons.inj h).1
    exact absurd (congrArg Token.kind ht) p.kind_token_ne_openParen
  | .group opening inner closing, .primary p =>
    have ht := (List.cons.inj h).1
    exact absurd (congrArg Token.kind ht.symm) p.kind_token_ne_openParen
  | .group opening inner closing, .group opening' inner' closing' =>
    obtain ⟨ho, h₁⟩ := List.cons.inj h
    simp only [List.append_eq, List.append_assoc] at h₁
    obtain ⟨rfl, h₂⟩ := expression_unique inner inner' (follows_cons.2 rfl)
      (follows_cons.2 rfl) h₁
    obtain ⟨hc, h₃⟩ := List.cons.inj h₂
    obtain rfl := Terminal.token_inj.1 ho
    obtain rfl := Terminal.token_inj.1 hc
    exact ⟨rfl, h₃⟩

/-- The operands of a product go on as long as there is a star. -/
theorem factors_unique (x y : Factors) {rest rest' : List Token} (hrest : Follows (· ≠ .star) rest)
    (hrest' : Follows (· ≠ .star) rest') (h : x.tokens ++ rest = y.tokens ++ rest') :
    x = y ∧ rest = rest' := by
  match x, y with
  | .nil, .nil => exact ⟨rfl, h⟩
  | .nil, .cons star o others =>
    -- One derivation ends here and the other one goes on, but a star cannot follow the first.
    rw [Factors.tokens, List.nil_append] at h
    rw [h] at hrest
    exact absurd rfl (follows_cons.1 hrest)
  | .cons star o others, .nil =>
    rw [Factors.tokens, Factors.tokens, List.nil_append] at h
    rw [← h] at hrest'
    exact absurd rfl (follows_cons.1 hrest')
  | .cons star o others, .cons star' o' others' =>
    obtain ⟨hs, h₁⟩ := List.cons.inj h
    simp only [List.append_eq, List.append_assoc] at h₁
    obtain rfl := Terminal.token_inj.1 hs
    obtain ⟨rfl, h₂⟩ := operand_unique o o' h₁
    obtain ⟨rfl, h₃⟩ := factors_unique others others' hrest hrest' h₂
    exact ⟨rfl, h₃⟩

theorem product_unique (x y : Product) {rest rest' : List Token} (hrest : Follows (· ≠ .star) rest)
    (hrest' : Follows (· ≠ .star) rest') (h : x.tokens ++ rest = y.tokens ++ rest') :
    x = y ∧ rest = rest' := by
  match x, y with
  | .mk first others, .mk first' others' =>
    simp only [Product.tokens, List.append_assoc] at h
    obtain ⟨rfl, h₁⟩ := operand_unique first first' h
    obtain ⟨rfl, h₂⟩ := factors_unique others others' hrest hrest' h₁
    exact ⟨rfl, h₂⟩

/-- The products of a sum go on as long as there is an operator. -/
theorem terms_unique (x y : Terms) {rest rest' : List Token}
    (hrest : Follows (operatorOf? · = none) rest) (hrest' : Follows (operatorOf? · = none) rest')
    (h : x.tokens ++ rest = y.tokens ++ rest') : x = y ∧ rest = rest' := by
  match x, y with
  | .nil, .nil => exact ⟨rfl, h⟩
  | .nil, .cons sign p others =>
    rw [Terms.tokens, List.nil_append] at h
    rw [h] at hrest
    cases (follows_cons.1 hrest).symm.trans sign.operatorOf?_token
  | .cons sign p others, .nil =>
    rw [Terms.tokens, Terms.tokens, List.nil_append] at h
    rw [← h] at hrest'
    cases (follows_cons.1 hrest').symm.trans sign.operatorOf?_token
  | .cons sign p others, .cons sign' p' others' =>
    obtain ⟨hs, h₁⟩ := List.cons.inj h
    simp only [List.append_eq, List.append_assoc] at h₁
    obtain rfl := Sign.token_inj hs
    obtain ⟨rfl, h₂⟩ := product_unique p p' (others.follows_tokens hrest)
      (others'.follows_tokens hrest') h₁
    obtain ⟨rfl, h₃⟩ := terms_unique others others' hrest hrest' h₂
    exact ⟨rfl, h₃⟩

theorem expression_unique (x y : Expression) {rest rest' : List Token}
    (hrest : Follows (operatorOf? · = none) rest) (hrest' : Follows (operatorOf? · = none) rest')
    (h : x.tokens ++ rest = y.tokens ++ rest') : x = y ∧ rest = rest' := by
  match x, y with
  | .mk first others, .mk first' others' =>
    simp only [Expression.tokens, List.append_assoc] at h
    obtain ⟨rfl, h₁⟩ := product_unique first first' (others.follows_tokens hrest)
      (others'.follows_tokens hrest') h
    obtain ⟨rfl, h₂⟩ := terms_unique others others' hrest hrest' h₁
    exact ⟨rfl, h₂⟩

end

/-! ### Statements -/

theorem AssignmentSign.token_inj {p q : AssignmentSign} (h : p.token = q.token) : p = q := by
  have hk := congrArg Token.kind h
  cases p <;> cases q <;> cases hk <;> obtain rfl := Terminal.token_inj.1 h
  all_goals rfl

/-- A value ends at its semicolon. -/
theorem value_unique (x y : Expression) {semicolon semicolon' : Terminal .semicolon}
    {rest rest' : List Token}
    (h : x.tokens ++ semicolon.token :: rest = y.tokens ++ semicolon'.token :: rest') :
    x = y ∧ semicolon = semicolon' ∧ rest = rest' := by
  obtain ⟨rfl, h₁⟩ := expression_unique x y (follows_cons.2 rfl) (follows_cons.2 rfl) h
  obtain ⟨hs, h₂⟩ := List.cons.inj h₁
  exact ⟨rfl, Terminal.token_inj.1 hs, h₂⟩

theorem assignment_unique (x y : Assignment) {rest rest' : List Token}
    (h : x.tokens ++ rest = y.tokens ++ rest') : x = y ∧ rest = rest' := by
  match x, y with
  | .ofVariableName name sign value semicolon, .ofVariableName name' sign' value' semicolon' =>
    obtain ⟨hn, h₁⟩ := List.cons.inj h
    obtain ⟨hs, h₂⟩ := List.cons.inj h₁
    simp only [List.append_eq, List.append_assoc] at h₂
    obtain ⟨rfl, rfl, h₃⟩ := value_unique value value' h₂
    obtain rfl := Terminal.token_inj.1 hn
    obtain rfl := AssignmentSign.token_inj hs
    exact ⟨rfl, h₃⟩
  | .ofIdentifier name sign value semicolon, .ofIdentifier name' sign' value' semicolon' =>
    obtain ⟨hn, h₁⟩ := List.cons.inj h
    obtain ⟨hs, h₂⟩ := List.cons.inj h₁
    simp only [List.append_eq, List.append_assoc] at h₂
    obtain ⟨rfl, rfl, h₃⟩ := value_unique value value' h₂
    obtain rfl := Terminal.token_inj.1 hn
    obtain rfl := Terminal.token_inj.1 hs
    exact ⟨rfl, h₃⟩
  | .ofVariableName .., .ofIdentifier .. => cases congrArg Token.kind (List.cons.inj h).1
  | .ofIdentifier .., .ofVariableName .. => cases congrArg Token.kind (List.cons.inj h).1

theorem declaration_unique (x y : Declaration) {rest rest' : List Token}
    (h : x.tokens ++ rest = y.tokens ++ rest') : x = y ∧ rest = rest' := by
  obtain ⟨property, colon, value, semicolon⟩ := x
  obtain ⟨property', colon', value', semicolon'⟩ := y
  obtain ⟨hp, h₁⟩ := List.cons.inj h
  obtain ⟨hc, h₂⟩ := List.cons.inj h₁
  simp only [List.append_eq, List.append_assoc] at h₂
  obtain ⟨rfl, rfl, h₃⟩ := value_unique value value' h₂
  obtain rfl := Terminal.token_inj.1 hp
  obtain rfl := Terminal.token_inj.1 hc
  exact ⟨rfl, h₃⟩

/-- An expression does not begin with a bracket. -/
theorem Expression.exists_tokens_eq (x : Expression) :
    ∃ t ts, x.tokens = t :: ts ∧ t.kind ≠ .openBracket := by
  obtain ⟨⟨first, fs⟩, ts⟩ := x
  cases first with
  | primary p => exact ⟨p.token, _, rfl, by cases p <;> simp [Primary.token]⟩
  | group opening inner closing => exact ⟨opening.token, _, rfl, by simp⟩

theorem guard_unique (x y : Guard) {rest rest' : List Token}
    (hrest : Follows (operatorOf? · = none) rest) (hrest' : Follows (operatorOf? · = none) rest')
    (h : x.tokens ++ rest = y.tokens ++ rest') : x = y ∧ rest = rest' := by
  match x, y with
  | .bracketed opening value closing, .bracketed opening' value' closing' =>
    obtain ⟨ho, h₁⟩ := List.cons.inj h
    simp only [List.append_eq, List.append_assoc] at h₁
    obtain ⟨rfl, h₂⟩ := expression_unique value value' (follows_cons.2 rfl) (follows_cons.2 rfl) h₁
    obtain ⟨hc, h₃⟩ := List.cons.inj h₂
    obtain rfl := Terminal.token_inj.1 ho
    obtain rfl := Terminal.token_inj.1 hc
    exact ⟨rfl, h₃⟩
  | .plain value, .plain value' =>
    obtain ⟨rfl, h₁⟩ := expression_unique value value' hrest hrest' h
    exact ⟨rfl, h₁⟩
  | .bracketed opening value closing, .plain value' =>
    obtain ⟨t, ts, ht, hk⟩ := value'.exists_tokens_eq
    rw [Guard.tokens, Guard.tokens, ht] at h
    exact absurd (congrArg Token.kind (List.cons.inj h).1).symm hk
  | .plain value, .bracketed opening value' closing =>
    obtain ⟨t, ts, ht, hk⟩ := value.exists_tokens_eq
    rw [Guard.tokens, Guard.tokens, ht] at h
    exact absurd (congrArg Token.kind (List.cons.inj h).1) hk

/-- A statement does not begin like what can follow one in a block. -/
theorem Stmt.exists_tokens_eq (x : Stmt) :
    ∃ t ts, x.tokens = t :: ts ∧ t.kind ≠ .closeCurly ∧ t.kind ≠ .elseWord := by
  match x with
  | .declaration x => exact ⟨x.property.token, _, rfl, by simp, by simp⟩
  | .assignment (.ofVariableName name ..) => exact ⟨name.token, _, rfl, by simp, by simp⟩
  | .assignment (.ofIdentifier name ..) => exact ⟨name.token, _, rfl, by simp, by simp⟩
  | .conditional word .. => exact ⟨word.token, _, rfl, by simp, by simp⟩

/-- What stands in a block after a statement is no `else`. -/
theorem Stmts.follows_tokens (x : Stmts) (closing : Terminal .closeCurly) (rest : List Token) :
    Follows (· ≠ .elseWord) (x.tokens ++ closing.token :: rest) := by
  cases x with
  | nil => exact follows_cons.2 (by simp)
  | cons first others =>
    obtain ⟨t, ts, ht, -, hk⟩ := first.exists_tokens_eq
    rw [Stmts.tokens, ht]
    exact follows_cons.2 hk

/-- A declaration does not begin like an assignment. -/
theorem Declaration.tokens_ne (x : Declaration) (y : Assignment) (rest rest' : List Token) :
    x.tokens ++ rest ≠ y.tokens ++ rest' := by
  intro h
  cases y with
  | ofVariableName name sign value semicolon =>
    cases congrArg Token.kind (List.cons.inj h).1
  | ofIdentifier name sign value semicolon =>
    cases congrArg Token.kind (List.cons.inj (List.cons.inj h).2).1

/-- A block begins with a brace, so no operator stands before it. -/
theorem Block.follows_tokens (x : Block) (rest : List Token) :
    Follows (operatorOf? · = none) (x.tokens ++ rest) := by
  cases x
  exact follows_cons.2 rfl

/-- An assignment begins with a name. -/
theorem Assignment.exists_tokens_eq (x : Assignment) :
    ∃ t ts, x.tokens = t :: ts ∧ (t.kind = .variableName ∨ t.kind = .identifier) := by
  match x with
  | .ofVariableName name .. => exact ⟨name.token, _, rfl, .inl rfl⟩
  | .ofIdentifier name .. => exact ⟨name.token, _, rfl, .inr rfl⟩

mutual

/-- The tokens of a statement show where it ends, if no `else` follows. -/
theorem stmt_unique (x y : Stmt) {rest rest' : List Token} (hrest : Follows (· ≠ .elseWord) rest)
    (hrest' : Follows (· ≠ .elseWord) rest') (h : x.tokens ++ rest = y.tokens ++ rest') :
    x = y ∧ rest = rest' := by
  match x, y with
  | .declaration x, .declaration y =>
    obtain ⟨rfl, h₁⟩ := declaration_unique x y h
    exact ⟨rfl, h₁⟩
  | .assignment x, .assignment y =>
    obtain ⟨rfl, h₁⟩ := assignment_unique x y h
    exact ⟨rfl, h₁⟩
  | .conditional word guard body otherwise, .conditional word' guard' body' otherwise' =>
    obtain ⟨hw, h₁⟩ := List.cons.inj h
    simp only [List.append_eq, List.append_assoc] at h₁
    -- A plain guard ends before the brace of the body.
    obtain ⟨rfl, h₂⟩ := guard_unique guard guard' (body.follows_tokens _)
      (body'.follows_tokens _) h₁
    obtain ⟨rfl, h₃⟩ := block_unique body body' h₂
    obtain ⟨rfl, h₄⟩ := otherwise_unique otherwise otherwise' hrest hrest' h₃
    obtain rfl := Terminal.token_inj.1 hw
    exact ⟨rfl, h₄⟩
  | .declaration x, .assignment y => exact absurd h (x.tokens_ne y rest rest')
  | .assignment x, .declaration y => exact absurd h.symm (y.tokens_ne x rest' rest)
  | .declaration x, .conditional .. => cases congrArg Token.kind (List.cons.inj h).1
  | .conditional .., .declaration y => cases congrArg Token.kind (List.cons.inj h).1
  | .assignment x, .conditional word .. =>
    obtain ⟨t, ts, ht, hk⟩ := x.exists_tokens_eq
    rw [Stmt.tokens, Stmt.tokens, ht] at h
    rw [congrArg Token.kind (List.cons.inj h).1] at hk
    simp at hk
  | .conditional word .., .assignment y =>
    obtain ⟨t, ts, ht, hk⟩ := y.exists_tokens_eq
    rw [Stmt.tokens, Stmt.tokens, ht] at h
    rw [← congrArg Token.kind (List.cons.inj h).1] at hk
    simp at hk

/-- The tokens of a block show where it ends. -/
theorem block_unique (x y : Block) {rest rest' : List Token}
    (h : x.tokens ++ rest = y.tokens ++ rest') : x = y ∧ rest = rest' := by
  match x, y with
  | .mk opening body closing, .mk opening' body' closing' =>
    obtain ⟨ho, h₁⟩ := List.cons.inj h
    simp only [List.append_eq, List.append_assoc] at h₁
    obtain ⟨rfl, rfl, h₂⟩ := stmts_unique body body' h₁
    obtain rfl := Terminal.token_inj.1 ho
    exact ⟨rfl, h₂⟩

/-- The statements of a block go on up to the brace that closes it. -/
theorem stmts_unique (x y : Stmts) {closing closing' : Terminal .closeCurly}
    {rest rest' : List Token}
    (h : x.tokens ++ closing.token :: rest = y.tokens ++ closing'.token :: rest') :
    x = y ∧ closing = closing' ∧ rest = rest' := by
  match x, y with
  | .nil, .nil =>
    obtain ⟨hc, h₁⟩ := List.cons.inj h
    exact ⟨rfl, Terminal.token_inj.1 hc, h₁⟩
  | .nil, .cons first others =>
    obtain ⟨t, ts, ht, hk, -⟩ := first.exists_tokens_eq
    rw [Stmts.tokens, Stmts.tokens, ht] at h
    exact absurd (congrArg Token.kind (List.cons.inj h).1).symm hk
  | .cons first others, .nil =>
    obtain ⟨t, ts, ht, hk, -⟩ := first.exists_tokens_eq
    rw [Stmts.tokens, Stmts.tokens, ht] at h
    exact absurd (congrArg Token.kind (List.cons.inj h).1) hk
  | .cons first others, .cons first' others' =>
    simp only [Stmts.tokens, List.append_assoc] at h
    obtain ⟨rfl, h₁⟩ := stmt_unique first first' (others.follows_tokens _ _)
      (others'.follows_tokens _ _) h
    obtain ⟨rfl, rfl, h₂⟩ := stmts_unique others others' h₁
    exact ⟨rfl, rfl, h₂⟩

theorem otherwise_unique (x y : Otherwise) {rest rest' : List Token}
    (hrest : Follows (· ≠ .elseWord) rest) (hrest' : Follows (· ≠ .elseWord) rest')
    (h : x.tokens ++ rest = y.tokens ++ rest') : x = y ∧ rest = rest' := by
  match x, y with
  | .absent, .absent => exact ⟨rfl, h⟩
  | .absent, .present word body =>
    rw [Otherwise.tokens, List.nil_append] at h
    rw [h] at hrest
    exact absurd rfl (follows_cons.1 hrest)
  | .present word body, .absent =>
    rw [Otherwise.tokens, Otherwise.tokens, List.nil_append] at h
    rw [← h] at hrest'
    exact absurd rfl (follows_cons.1 hrest')
  | .present word body, .present word' body' =>
    obtain ⟨hw, h₁⟩ := List.cons.inj h
    obtain ⟨rfl, h₂⟩ := block_unique body body' h₁
    obtain rfl := Terminal.token_inj.1 hw
    exact ⟨rfl, h₂⟩

end

/-! ### Rules and sheets -/

theorem selector_unique (x y : Selector) {rest rest' : List Token}
    (h : x.tokens ++ rest = y.tokens ++ rest') : x = y ∧ rest = rest' := by
  match x, y with
  | .tag name, .tag name' =>
    obtain ⟨hn, h₁⟩ := List.cons.inj h
    obtain rfl := Terminal.token_inj.1 hn
    exact ⟨rfl, h₁⟩
  | .class dot name, .class dot' name' =>
    obtain ⟨hd, h₁⟩ := List.cons.inj h
    obtain ⟨hn, h₂⟩ := List.cons.inj h₁
    obtain rfl := Terminal.token_inj.1 hd
    obtain rfl := Terminal.token_inj.1 hn
    exact ⟨rfl, h₂⟩
  | .id hash, .id hash' =>
    obtain ⟨hn, h₁⟩ := List.cons.inj h
    obtain rfl := Terminal.token_inj.1 hn
    exact ⟨rfl, h₁⟩
  | .tag .., .class .. | .tag .., .id .. | .class .., .tag .. | .class .., .id .. | .id .., .tag ..
  | .id .., .class .. => cases congrArg Token.kind (List.cons.inj h).1

/-- The selectors of a rule go on up to its block. -/
theorem selectors_unique (xs ys : List (Terminal .comma × Selector)) {x y : Block}
    {rest rest' : List Token}
    (h : selectorsTokens xs ++ (x.tokens ++ rest) = selectorsTokens ys ++ (y.tokens ++ rest')) :
    xs = ys ∧ x.tokens ++ rest = y.tokens ++ rest' := by
  induction xs generalizing ys with
  | nil =>
    cases ys with
    | nil => exact ⟨rfl, h⟩
    | cons s ys =>
      cases x
      cases congrArg Token.kind (List.cons.inj h).1
  | cons s xs ih =>
    cases ys with
    | nil =>
      cases y
      cases congrArg Token.kind (List.cons.inj h).1
    | cons s' ys =>
      obtain ⟨comma, s⟩ := s
      obtain ⟨comma', s'⟩ := s'
      obtain ⟨hc, h₁⟩ := List.cons.inj h
      simp only [List.append_eq, List.append_assoc] at h₁
      obtain ⟨rfl, h₂⟩ := selector_unique s s' h₁
      obtain ⟨rfl, h₃⟩ := ih ys h₂
      obtain rfl := Terminal.token_inj.1 hc
      exact ⟨rfl, h₃⟩

theorem rule_unique (x y : Rule) {rest rest' : List Token}
    (h : x.tokens ++ rest = y.tokens ++ rest') : x = y ∧ rest = rest' := by
  obtain ⟨first, others, body⟩ := x
  obtain ⟨first', others', body'⟩ := y
  simp only [Rule.tokens, List.append_assoc] at h
  obtain ⟨rfl, h₁⟩ := selector_unique first first' h
  obtain ⟨rfl, h₂⟩ := selectors_unique others others' h₁
  obtain ⟨rfl, h₃⟩ := block_unique body body' h₂
  exact ⟨rfl, h₃⟩

/-- A rule does not begin like an assignment. -/
theorem Rule.tokens_ne (x : Rule) (y : Assignment) (rest rest' : List Token) :
    x.tokens ++ rest ≠ y.tokens ++ rest' := by
  intro h
  obtain ⟨first, others, body⟩ := x
  rw [Rule.tokens] at h
  match first, y with
  | .tag name, .ofVariableName .. => cases congrArg Token.kind (List.cons.inj h).1
  | .class .., .ofVariableName .. | .class .., .ofIdentifier .. | .id .., .ofVariableName ..
  | .id .., .ofIdentifier .. => cases congrArg Token.kind (List.cons.inj h).1
  | .tag name, .ofIdentifier name' sign value semicolon =>
    have h₁ := (List.cons.inj h).2
    match others, body with
    | [], .mk .. => cases congrArg Token.kind (List.cons.inj h₁).1
    | (comma, s) :: others, _ => cases congrArg Token.kind (List.cons.inj h₁).1

theorem item_unique (x y : Item) {rest rest' : List Token}
    (h : x.tokens ++ rest = y.tokens ++ rest') : x = y ∧ rest = rest' := by
  match x, y with
  | .assignment x, .assignment y =>
    obtain ⟨rfl, h₁⟩ := assignment_unique x y h
    exact ⟨rfl, h₁⟩
  | .rule x, .rule y =>
    obtain ⟨rfl, h₁⟩ := rule_unique x y h
    exact ⟨rfl, h₁⟩
  | .rule x, .assignment y => exact absurd h (x.tokens_ne y rest rest')
  | .assignment x, .rule y => exact absurd h.symm (y.tokens_ne x rest' rest)

theorem Item.tokens_ne_nil (x : Item) : x.tokens ≠ [] := by
  match x with
  | .assignment (.ofVariableName ..) | .assignment (.ofIdentifier ..) => exact List.cons_ne_nil _ _
  | .rule ⟨.tag .., _, _⟩ | .rule ⟨.class .., _, _⟩ | .rule ⟨.id .., _, _⟩ =>
    exact List.cons_ne_nil _ _

/-- A list of tokens has at most one derivation as a sheet. -/
theorem sheet_unique {x y : Sheet} (h : x.tokens = y.tokens) : x = y := by
  induction x generalizing y with
  | nil =>
    cases y with
    | nil => rfl
    | cons j y => exact absurd (List.append_eq_nil_iff.1 h.symm).1 j.tokens_ne_nil
  | cons i x ih =>
    cases y with
    | nil => exact absurd (List.append_eq_nil_iff.1 h).1 i.tokens_ne_nil
    | cons j y =>
      obtain ⟨rfl, h₁⟩ := item_unique i j h
      rw [ih h₁]

end TypedCss.Derivation

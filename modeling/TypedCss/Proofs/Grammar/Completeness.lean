import TypedCss.Proofs.Grammar.Rounds
import TypedCss.Proofs.Grammar.Soundness.Sheet

/-!
# What is derived is read

A reader that starts where the tokens of a derivation stand passes exactly them and gives the
meaning of the derivation, provided the next token does not go on: after an expression there must
be no operator, and after a conditional without an else branch no `else`. Such a token can only
stand there if it belongs to something larger, so for a whole sheet nothing has to be assumed
(`items_complete`).
-/

namespace TypedCss.Grammar

open TypedCss.Derivation

variable {c d : TokenCursor} {power : BindingPower}

/-! ### Operands -/

theorem operandOf?_token (p : Primary) : operandOf? p.token = some (.ok p.tree) := by
  cases p with
  | number t x h | pixel t x h | percentage t x h =>
    all_goals
      have hn : number t.token = .ok x := by simp [number, Terminal.token, h]
      simp only [Primary.token, operandOf?, Terminal.kind_token, hn]
      rfl
  | color t h =>
    have hc : color t.token = .ok t.value := if_pos ((isColor_iff _).2 h)
    simp only [Primary.token, operandOf?, Terminal.kind_token, hc]
    rfl
  | yes t | no t | variableName t | identifier t => all_goals rfl

theorem operand_standard_token (p : Primary) :
    Dispatch.standard.operand p.token.kind = some .primary := by
  cases p <;> rfl

theorem primary_complete {p : Primary} (h : c.Passes [p.token] d) :
    ∃ hd, primary c = .ok p.tree d hd := by
  obtain ⟨hc, ht, hd⟩ := TokenCursor.Passes.cons_iff.1 h
  obtain rfl := hd.eq_of_nil
  have hp := operandOf?_token p
  rw [← ht] at hp
  rw [primary]
  split
  · rename_i hn
    cases hn.symm.trans hp
  · rename_i e he
    cases he.symm.trans hp
  · rename_i e he
    cases he.symm.trans hp
    exact ⟨h.before (by simp), rfl⟩

/-! ### Expressions -/

/-- What follows the products of a sum is no star if what follows the sum is none. -/
theorem kind_ne_star_of_terms {ts : Terms} (h : c.Passes ts.tokens d) (hd : d.kind ≠ .star) :
    c.kind ≠ .star := by
  cases ts with
  | nil =>
    obtain rfl := h.eq_of_nil
    exact hd
  | cons sign x others =>
    rw [h.kind_eq]
    cases sign <;> simp [Sign.token]

/-- An operator with its right operand is read in one round. -/
theorem operators_cons (power : BindingPower) (left : Expr) {start e : TokenCursor} {right : Expr}
    {op : Operator} {next : BindingPower} (h : start.Before c)
    (hn : Dispatch.standard.operator c.kind = some next)
    (hlt : power.rank < next.rank) (hop : operatorOf? c.kind = some op)
    (hr : ∃ k, expr .standard next c.advance = .ok right e k) :
    ∃ k, operators .standard power start left c h =
      operators .standard power start (operation op left right) e k := by
  obtain ⟨k, hr⟩ := hr
  refine ⟨h.trans (c.reaches_advance.trans_before k), ?_⟩
  rw [operators_eq_andThen h hn hlt hop, hr]
  rfl

mutual

/-- An operand is read with every power, and then its operators. -/
theorem operand_complete (power : BindingPower) (x : Operand) {c d : TokenCursor}
    (h : c.Passes x.tokens d) :
    ∃ k, expr .standard power c = operators .standard power c x.tree d k := by
  match x with
  | .primary p =>
    obtain ⟨k, hp⟩ := primary_complete h
    have hk : Dispatch.standard.operand c.kind = some .primary := by
      rw [h.kind_eq]
      exact operand_standard_token p
    refine ⟨k, ?_⟩
    rw [expr_eq_primary hk, hp]
    rfl
  | .group opening inner closing =>
    obtain ⟨hc, ht, h⟩ := TokenCursor.Passes.cons_iff.1 h
    obtain ⟨e, hinner, hclosing⟩ := h.exists_split
    obtain ⟨-, hcl, hd⟩ := TokenCursor.Passes.cons_iff.1 hclosing
    obtain rfl := hd.eq_of_nil
    have hek : e.kind = .closeParen := congrArg Token.kind hcl
    have hck : c.kind = .openParen := congrArg Token.kind ht
    obtain ⟨k, hi⟩ := expression_complete inner hinner (by rw [hek]; rfl)
    refine ⟨(c.reaches_advance.trans_before k).advance, ?_⟩
    rw [expr_eq_grouping hck, grouping_eq_andThen, hi]
    simp only [Outcome.andThen, hek, ↓reduceIte]
    rfl

/-- The operands of a product are read with every power that is looser than that of a star. -/
theorem factors_complete {power : BindingPower}
    (hpower : power.rank < BindingPower.multiplicative.rank) (fs : Factors)
    {start c d : TokenCursor} (left : Expr) (h : start.Before c) (hfs : c.Passes fs.tokens d) :
    ∃ k, operators .standard power start left c h =
      operators .standard power start (fs.join left) d k := by
  match fs with
  | .nil =>
    obtain rfl := hfs.eq_of_nil
    exact ⟨h, rfl⟩
  | .cons star x others =>
    obtain ⟨hc, ht, hfs⟩ := TokenCursor.Passes.cons_iff.1 hfs
    obtain ⟨e, hx, hothers⟩ := hfs.exists_split
    have hk : c.kind = .star := congrArg Token.kind ht
    -- Read with the power of a star, the right operand takes no operator.
    obtain ⟨k, hr⟩ := operand_complete .multiplicative x hx
    obtain ⟨m, hstep⟩ := operators_cons power left h (by rw [hk]; rfl) hpower
      (by rw [hk]; rfl) ⟨k, hr.trans (operators_of_multiplicative_le (Nat.le_refl _) k)⟩
    obtain ⟨n, hrest⟩ := factors_complete hpower others (operation .multiply left x.tree) m hothers
    exact ⟨n, hstep.trans hrest⟩

/-- A product is read with every power that is looser than that of a star. -/
theorem product_complete (power : BindingPower)
    (hpower : power.rank < BindingPower.multiplicative.rank) (x : Product) {c d : TokenCursor}
    (h : c.Passes x.tokens d) :
    ∃ k, expr .standard power c = operators .standard power c x.tree d k := by
  match x with
  | .mk first others =>
    obtain ⟨e, hfirst, hothers⟩ := h.exists_split
    obtain ⟨k, ho⟩ := operand_complete power first hfirst
    obtain ⟨m, hf⟩ := factors_complete hpower others first.tree k hothers
    exact ⟨m, ho.trans hf⟩

/-- The products of a sum are read with the loosest power. -/
theorem terms_complete (ts : Terms) {start c d : TokenCursor} (left : Expr) (h : start.Before c)
    (hts : c.Passes ts.tokens d) (hd : d.kind ≠ .star) :
    ∃ k, operators .standard .default start left c h =
      operators .standard .default start (ts.join left) d k := by
  match ts with
  | .nil =>
    obtain rfl := hts.eq_of_nil
    exact ⟨h, rfl⟩
  | .cons sign x others =>
    obtain ⟨hc, ht, hts⟩ := TokenCursor.Passes.cons_iff.1 hts
    obtain ⟨e, hx, hothers⟩ := hts.exists_split
    have hn : Dispatch.standard.operator c.kind = some .additive := by
      rw [TokenCursor.kind, ht]
      cases sign <;> rfl
    have hop : operatorOf? c.kind = some sign.operator := by
      rw [TokenCursor.kind, ht]
      cases sign <;> rfl
    -- Read with the power of a sign, the right operand takes all its stars and no sign.
    obtain ⟨k, hr⟩ := product_complete .additive (by decide) x hx
    rw [operators_additive_of_ne_star k (kind_ne_star_of_terms hothers hd)] at hr
    obtain ⟨m, hstep⟩ := operators_cons .default left h hn (by decide) hop ⟨k, hr⟩
    obtain ⟨n, hrest⟩ := terms_complete others (operation sign.operator left x.tree) m hothers hd
    exact ⟨n, hstep.trans hrest⟩

/-- An expression is read where no operator follows. -/
theorem expression_complete (x : Expression) {c d : TokenCursor} (h : c.Passes x.tokens d)
    (hd : operatorOf? d.kind = none) : ∃ k, expr .standard .default c = .ok x.tree d k := by
  match x with
  | .mk first others =>
    obtain ⟨e, hfirst, hothers⟩ := h.exists_split
    have hstar : d.kind ≠ .star := by
      intro hk
      rw [hk] at hd
      cases hd
    obtain ⟨k, hp⟩ := product_complete .default (by decide) first hfirst
    obtain ⟨m, ht⟩ := terms_complete others first.tree k hothers hstar
    exact ⟨m, (hp.trans ht).trans (operators_of_eq_none m hd)⟩

end

/-! ### Assignments and declarations -/

theorem valueThen_complete {α : Type} {start c d : TokenCursor} (build : Expr → Info → α)
    (h : start.Reaches c) (x : Expression) (semicolon : Terminal .semicolon)
    (hx : c.Passes (x.tokens ++ [semicolon.token]) d) :
    ∃ k, valueThen .standard start build c h =
      .ok (build x.tree ⟨⟨start.position, semicolon.span.stop⟩, []⟩) d k := by
  have hlast := hx.lastPosition_eq
  obtain ⟨e, hvalue, hs⟩ := hx.exists_split
  obtain ⟨-, ht, hd⟩ := TokenCursor.Passes.cons_iff.1 hs
  obtain rfl := hd.eq_of_nil
  have hk : e.kind = .semicolon := congrArg Token.kind ht
  obtain ⟨k, he⟩ := expression_complete x hvalue (by rw [hk]; rfl)
  refine ⟨(h.trans_before k).advance, ?_⟩
  rw [valueThen]
  simp only [he, hk, ↓reduceIte, TokenCursor.spanFrom, hlast, Terminal.token]

/-- An assignment is read from a name, either sign and a value. -/
theorem assignment_of_sign {c d : TokenCursor}
    (hk : c.advance.kind = .colon ∨ c.advance.kind = .colonEquals) (x : Expression)
    (semicolon : Terminal .semicolon)
    (hx : c.advance.advance.Passes (x.tokens ++ [semicolon.token]) d) :
    ∃ k, assignment .standard c =
      .ok ⟨c.current.value, x.tree, ⟨⟨c.position, semicolon.span.stop⟩, []⟩⟩ d k := by
  obtain ⟨k, hv⟩ := valueThen_complete (Assignment.mk c.current.value)
    (c.reaches_advance.trans c.advance.reaches_advance) x semicolon hx
  refine ⟨k, ?_⟩
  rw [assignment]
  simp only [hk, ↓reduceIte]
  exact hv

theorem assignment_complete (x : Derivation.Assignment) {c d : TokenCursor}
    (h : c.Passes x.tokens d) : ∃ k, assignment .standard c = .ok x.tree d k := by
  cases x with
  | ofVariableName name sign value semicolon =>
    obtain ⟨hc, ht, h⟩ := TokenCursor.Passes.cons_iff.1 h
    have hk : c.advance.kind = .colon ∨ c.advance.kind = .colonEquals := by
      rw [h.kind_eq]
      cases sign <;> simp [AssignmentSign.token]
    obtain ⟨k, ha⟩ := assignment_of_sign hk value semicolon (TokenCursor.Passes.cons_iff.1 h).2.2
    refine ⟨k, ?_⟩
    rw [ha, TokenCursor.position, ht]
    rfl
  | ofIdentifier name sign value semicolon =>
    obtain ⟨hc, ht, h⟩ := TokenCursor.Passes.cons_iff.1 h
    have hk : c.advance.kind = .colon ∨ c.advance.kind = .colonEquals := .inr h.kind_eq
    obtain ⟨k, ha⟩ := assignment_of_sign hk value semicolon (TokenCursor.Passes.cons_iff.1 h).2.2
    refine ⟨k, ?_⟩
    rw [ha, TokenCursor.position, ht]
    rfl

theorem declaration_complete (x : Derivation.Declaration) {c d : TokenCursor}
    (h : c.Passes x.tokens d) : ∃ k, declaration .standard c = .ok x.tree d k := by
  obtain ⟨property, colon, value, semicolon⟩ := x
  obtain ⟨hc, ht, h⟩ := TokenCursor.Passes.cons_iff.1 h
  obtain ⟨-, ht', h⟩ := TokenCursor.Passes.cons_iff.1 h
  have hk : c.kind = .identifier := congrArg Token.kind ht
  have hk' : c.advance.kind = .colon := congrArg Token.kind ht'
  obtain ⟨k, hv⟩ := valueThen_complete (Declaration.mk c.current.value)
    (c.reaches_advance.trans c.advance.reaches_advance) value semicolon h
  refine ⟨k, ?_⟩
  rw [declaration]
  simp only [hk, hk', ↓reduceIte]
  rw [hv, TokenCursor.position, ht]
  rfl

/-! ### Statements -/

/-- An expression begins with a token that begins an operand. -/
theorem operand_ne_none_of_expr_eq_ok {e : Expr} {k : c.Before d}
    (h : expr .standard power c = .ok e d k) : Dispatch.standard.operand c.kind ≠ none := by
  intro hk
  rw [expr] at h
  simp only [hk] at h
  cases h

theorem guard_complete (x : Derivation.Guard) {c d : TokenCursor} (h : c.Passes x.tokens d)
    (hd : operatorOf? d.kind = none) : ∃ k, guard .standard c = .ok x.tree d k := by
  cases x with
  | bracketed opening value closing =>
    obtain ⟨hc, ht, h⟩ := TokenCursor.Passes.cons_iff.1 h
    obtain ⟨e, hx, hs⟩ := h.exists_split
    obtain ⟨-, ht', hd⟩ := TokenCursor.Passes.cons_iff.1 hs
    obtain rfl := hd.eq_of_nil
    have hck : c.kind = .openBracket := congrArg Token.kind ht
    have hek : e.kind = .closeBracket := congrArg Token.kind ht'
    obtain ⟨k, he⟩ := expression_complete value hx (by rw [hek]; rfl)
    refine ⟨(c.reaches_advance.trans_before k).advance, ?_⟩
    rw [guard]
    simp only [hck, he, Outcome.since, hek, ↓reduceIte]
    rfl
  | plain value =>
    obtain ⟨k, he⟩ := expression_complete value h hd
    refine ⟨k, ?_⟩
    rw [guard]
    -- No operand begins with a bracket, so the guard is not taken for a bracketed one.
    have hk : c.kind ≠ .openBracket := by
      intro hk
      have hoperand := operand_ne_none_of_expr_eq_ok he
      rw [hk] at hoperand
      exact hoperand rfl
    rw [if_neg hk, he]
    rfl

theorem declaration_begins {x : Derivation.Declaration} (h : c.Passes x.tokens d) :
    c.kind = .identifier ∧ c.peek 1 = .colon := by
  obtain ⟨hc, ht, h⟩ := TokenCursor.Passes.cons_iff.1 h
  obtain ⟨-, ht', -⟩ := TokenCursor.Passes.cons_iff.1 h
  rw [TokenCursor.peek_one hc, TokenCursor.kind, TokenCursor.kind, ht, ht']
  exact ⟨rfl, rfl⟩

theorem assignment_begins {x : Derivation.Assignment} (h : c.Passes x.tokens d) :
    c.kind = .variableName ∨ c.kind = .identifier ∧ c.peek 1 = .colonEquals := by
  cases x with
  | ofVariableName name sign value semicolon => exact .inl h.kind_eq
  | ofIdentifier name sign value semicolon =>
    obtain ⟨hc, ht, h⟩ := TokenCursor.Passes.cons_iff.1 h
    obtain ⟨-, ht', -⟩ := TokenCursor.Passes.cons_iff.1 h
    rw [TokenCursor.peek_one hc, TokenCursor.kind, TokenCursor.kind, ht, ht']
    exact .inr ⟨rfl, rfl⟩

theorem kind_of_block {x : Block} (h : c.Passes x.tokens d) : c.kind = .openCurly := by
  obtain ⟨opening, body, closing⟩ := x
  exact h.kind_eq

/-- What a statement begins with. -/
theorem kind_of_stmt {x : Derivation.Stmt} {ts : List Token} (h : c.Passes (x.tokens ++ ts) d) :
    c.kind = .identifier ∨ c.kind = .variableName ∨ c.kind = .ifWord := by
  cases x with
  | declaration x => exact .inl h.kind_eq
  | assignment x =>
    cases x with
    | ofVariableName name sign value semicolon => exact .inr (.inl h.kind_eq)
    | ofIdentifier name sign value semicolon => exact .inl h.kind_eq
  | conditional word guard body otherwise => exact .inr (.inr h.kind_eq)

/-- What follows a statement of a block is no `else`. -/
theorem kind_of_stmts {x : Stmts} {closing : Terminal .closeCurly}
    (h : c.Passes (x.tokens ++ [closing.token]) d) : c.kind ≠ .elseWord := by
  cases x with
  | nil =>
    rw [h.kind_eq]
    simp
  | cons first others =>
    rw [Stmts.tokens, List.append_assoc] at h
    rcases kind_of_stmt h with hk | hk | hk <;> simp [hk]

/-- The guard of a conditional is read up to its body. -/
theorem conditional_front {word : Terminal .ifWord} {x : Derivation.Guard} {body : Block}
    {ts : List Token} (h : c.Passes (word.token :: (x.tokens ++ (body.tokens ++ ts))) d) :
    Dispatch.standard.statement c.kind = some .conditional ∧
      ∃ e f k, guard .standard c.advance = .ok x.tree e k ∧ e.Passes body.tokens f ∧
        f.Passes ts d := by
  obtain ⟨hc, ht, h⟩ := TokenCursor.Passes.cons_iff.1 h
  obtain ⟨e, hguard, h⟩ := h.exists_split
  obtain ⟨f, hbody, hts⟩ := h.exists_split
  obtain ⟨k, hg⟩ := guard_complete x hguard (by rw [kind_of_block hbody]; rfl)
  refine ⟨?_, e, f, k, hg, hbody, hts⟩
  rw [TokenCursor.kind, ht]
  rfl

mutual

/-- A statement is read where no `else` follows. -/
theorem stmt_complete (x : Derivation.Stmt) {c d : TokenCursor} (h : c.Passes x.tokens d)
    (hd : d.kind ≠ .elseWord) : ∃ k, stmt .standard c = .ok x.tree d k := by
  match x with
  | .declaration x =>
    obtain ⟨k, hx⟩ := declaration_complete x h
    obtain ⟨hk, hp⟩ := declaration_begins h
    have hs : Dispatch.standard.statement c.kind = none := by rw [hk]; rfl
    refine ⟨k, ?_⟩
    rw [stmt]
    simp only [hs]
    simp only [hk, hp, hx, reduceCtorEq, ↓reduceIte]
    rfl
  | .assignment x =>
    obtain ⟨k, hx⟩ := assignment_complete x h
    refine ⟨k, ?_⟩
    rcases assignment_begins h with hk | ⟨hk, hp⟩
    · have hs : Dispatch.standard.statement c.kind = some .assignment := by rw [hk]; rfl
      rw [stmt]
      simp only [hs, hx]
      rfl
    · have hs : Dispatch.standard.statement c.kind = none := by rw [hk]; rfl
      rw [stmt]
      simp only [hs]
      simp only [hk, hp, hx, ↓reduceIte]
      rfl
  | .conditional word guard body .absent =>
    obtain ⟨hs, e, f, k, hg, hbody, hf⟩ := conditional_front h
    obtain rfl := hf.eq_of_nil
    obtain ⟨m, hb⟩ := block_complete body hbody
    refine ⟨(c.reaches_advance.trans_before k).trans m, ?_⟩
    rw [stmt]
    simp only [hs]
    rw [conditional]
    simp only [hg, hb, Outcome.since, hd, ↓reduceIte, TokenCursor.spanFrom,
      lastPosition_eq_stop hbody, TokenCursor.position, (TokenCursor.Passes.cons_iff.1 h).2.1]
    rfl
  | .conditional word guard body (.present elseWord elseBody) =>
    obtain ⟨hs, e, f, k, hg, hbody, hf⟩ := conditional_front h
    obtain ⟨-, ht, helse⟩ := TokenCursor.Passes.cons_iff.1 hf
    have hk : f.kind = .elseWord := congrArg Token.kind ht
    obtain ⟨m, hb⟩ := block_complete body hbody
    obtain ⟨n, he⟩ := block_complete elseBody helse
    refine ⟨((c.reaches_advance.trans_before k).trans m).trans_reaches
      (f.reaches_advance.trans n.reaches), ?_⟩
    rw [stmt]
    simp only [hs]
    rw [conditional]
    simp only [hg, hb, Outcome.since, hk, he, ↓reduceIte, TokenCursor.spanFrom,
      lastPosition_eq_stop helse, TokenCursor.position, (TokenCursor.Passes.cons_iff.1 h).2.1, ht]
    rfl

/-- A block is read whatever follows. -/
theorem block_complete (x : Block) {c d : TokenCursor} (h : c.Passes x.tokens d) :
    ∃ k, block .standard c = .ok x.tree d k := by
  match x with
  | .mk opening body closing =>
    obtain ⟨hc, ht, hbody⟩ := TokenCursor.Passes.cons_iff.1 h
    have hk : c.kind = .openCurly := congrArg Token.kind ht
    have hb : c.Before c.advance := TokenCursor.before_advance hc
    obtain ⟨k, hs⟩ := stmts_complete body hb hbody
    refine ⟨k, ?_⟩
    rw [block]
    simp only [hk, ↓reduceDIte, hs]
    rfl

/-- The statements of a block are read up to the brace that closes it. -/
theorem stmts_complete (x : Stmts) {closing : Terminal .closeCurly} {start c d : TokenCursor}
    (h : start.Before c) (hx : c.Passes (x.tokens ++ [closing.token]) d) :
    ∃ k, statements .standard start c h = .ok x.tree d k := by
  match x with
  | .nil =>
    obtain ⟨-, ht, hd⟩ := TokenCursor.Passes.cons_iff.1 hx
    obtain rfl := hd.eq_of_nil
    have hk : c.kind = .closeCurly := congrArg Token.kind ht
    refine ⟨h.advance, ?_⟩
    rw [statements]
    simp only [hk, ↓reduceIte]
    rfl
  | .cons first others =>
    rw [Stmts.tokens, List.append_assoc] at hx
    have hk := kind_of_stmt hx
    obtain ⟨e, hfirst, hothers⟩ := hx.exists_split
    -- A statement or the brace follows, so a conditional has all of its branches.
    obtain ⟨k, hs⟩ := stmt_complete first hfirst (kind_of_stmts hothers)
    obtain ⟨m, hrest⟩ := stmts_complete others (h.trans k) hothers
    refine ⟨m, ?_⟩
    have hcurly : c.kind ≠ .closeCurly := by rcases hk with hk | hk | hk <;> simp [hk]
    have heof : c.kind ≠ .eof := by rcases hk with hk | hk | hk <;> simp [hk]
    rw [statements]
    simp only [hcurly, heof, hs, hrest, ↓reduceIte]
    rfl

end

/-! ### Rules and items -/

theorem selector_complete (x : Derivation.Selector) {c d : TokenCursor} (h : c.Passes x.tokens d) :
    ∃ k, selector c = .ok x.tree d k := by
  have hb := h.before (by cases x <;> simp [Selector.tokens])
  cases x with
  | tag name =>
    obtain ⟨-, ht, hd⟩ := TokenCursor.Passes.cons_iff.1 h
    obtain rfl := hd.eq_of_nil
    refine ⟨hb, ?_⟩
    simp [selector, TokenCursor.kind, ht, Selector.tree, Terminal.token]
  | «class» dot name =>
    obtain ⟨-, ht, h⟩ := TokenCursor.Passes.cons_iff.1 h
    obtain ⟨-, ht', hd⟩ := TokenCursor.Passes.cons_iff.1 h
    obtain rfl := hd.eq_of_nil
    refine ⟨hb, ?_⟩
    simp [selector, TokenCursor.kind, ht, ht', Selector.tree, Terminal.token]
  | id hash =>
    obtain ⟨-, ht, hd⟩ := TokenCursor.Passes.cons_iff.1 h
    obtain rfl := hd.eq_of_nil
    refine ⟨hb, ?_⟩
    simp [selector, TokenCursor.kind, ht, Selector.tree, Terminal.token]

theorem moreSelectors_complete (xs : List (Terminal .comma × Derivation.Selector))
    {start c d : TokenCursor} (h : start.Before c) (hx : c.Passes (selectorsTokens xs) d)
    (hd : d.kind ≠ .comma) : ∃ k, moreSelectors start c h = .ok (xs.map (·.2.tree)) d k := by
  induction xs generalizing c with
  | nil =>
    obtain rfl := hx.eq_of_nil
    refine ⟨h, ?_⟩
    rw [moreSelectors, if_neg hd]
    rfl
  | cons x xs ih =>
    obtain ⟨comma, x⟩ := x
    obtain ⟨e, hfirst, hothers⟩ := hx.exists_split
    obtain ⟨-, ht, hx⟩ := TokenCursor.Passes.cons_iff.1 hfirst
    have hk : c.kind = .comma := congrArg Token.kind ht
    obtain ⟨k, hs⟩ := selector_complete x hx
    obtain ⟨m, hrest⟩ := ih (h.trans (c.reaches_advance.trans_before k)) hothers
    refine ⟨m, ?_⟩
    rw [moreSelectors]
    simp only [hk, hs, hrest, ↓reduceIte]
    rfl

theorem start_of_passes {x : Derivation.Selector} (h : c.Passes x.tokens d) :
    x.start = c.position := by
  cases x <;> rw [TokenCursor.position, (TokenCursor.Passes.cons_iff.1 h).2.1] <;> rfl

/-- A rule is read whatever follows. -/
theorem rule_complete (x : Derivation.Rule) {c d : TokenCursor} (h : c.Passes x.tokens d) :
    ∃ k, rule .standard c = .ok x.tree d k := by
  obtain ⟨first, others, body⟩ := x
  obtain ⟨e, hfirst, h⟩ := h.exists_split
  obtain ⟨f, hothers, hbody⟩ := h.exists_split
  obtain ⟨k, hs⟩ := selector_complete first hfirst
  obtain ⟨m, hm⟩ := moreSelectors_complete others k hothers (by simp [kind_of_block hbody])
  obtain ⟨n, hb⟩ := block_complete body hbody
  refine ⟨m.trans n, ?_⟩
  rw [rule]
  simp only [hs, hm, hb, Outcome.since, TokenCursor.spanFrom, lastPosition_eq_stop hbody,
    ← start_of_passes hfirst]
  rfl

/-- A rule does not begin like an assignment. -/
theorem rule_begins {x : Derivation.Rule} (h : c.Passes x.tokens d) :
    c.kind ≠ .eof ∧ beginsAssignment c = false := by
  obtain ⟨first, others, body⟩ := x
  obtain ⟨e, hfirst, h⟩ := h.exists_split
  cases first with
  | tag name =>
    obtain ⟨hc, ht, hd⟩ := TokenCursor.Passes.cons_iff.1 hfirst
    obtain rfl := hd.eq_of_nil
    have hk : c.kind = .identifier := congrArg Token.kind ht
    -- After the first tag stands a comma or a brace.
    have hp : c.peek 1 ≠ .colonEquals := by
      rw [TokenCursor.peek_one hc]
      cases others with
      | nil => simp [kind_of_block h]
      | cons x xs =>
        rw [h.kind_eq]
        simp
    simp [beginsAssignment, hk, hp]
  | «class» dot name =>
    have hk : c.kind = .dot := hfirst.kind_eq
    simp [beginsAssignment, hk]
  | id hash =>
    have hk : c.kind = .hash := hfirst.kind_eq
    simp [beginsAssignment, hk]

/-- An item is read whatever follows. -/
theorem item_complete (x : Derivation.Item) {c d : TokenCursor} (h : c.Passes x.tokens d) :
    c.kind ≠ .eof ∧ ∃ k, item .standard c = .ok x.tree d k := by
  cases x with
  | assignment x =>
    have hbegins := assignment_begins h
    obtain ⟨k, hx⟩ := assignment_complete x h
    refine ⟨?_, k, ?_⟩
    · rcases hbegins with hk | ⟨hk, -⟩ <;> simp [hk]
    · rw [item]
      rw [if_pos ((beginsAssignment_iff c).2 hbegins), hx]
      rfl
  | rule x =>
    obtain ⟨hk, hbegins⟩ := rule_begins h
    obtain ⟨k, hx⟩ := rule_complete x h
    refine ⟨hk, k, ?_⟩
    rw [item]
    rw [hbegins, hx]
    rfl

/-- Items are read one after the other, and then those that follow them. -/
theorem items_passes (xs : Derivation.Sheet) {c d : TokenCursor} (h : c.Passes xs.tokens d) :
    items .standard c =
      ((items .standard d).1.map (xs.map Item.tree ++ ·), (items .standard d).2) := by
  induction xs generalizing c with
  | nil =>
    obtain rfl := h.eq_of_nil
    generalize items .standard d = result
    obtain ⟨_ | is, stop⟩ := result <;> rfl
  | cons x xs ih =>
    obtain ⟨e, hx, hxs⟩ := h.exists_split
    obtain ⟨hk, k, hi⟩ := item_complete x hx
    rw [items, if_neg hk]
    simp only [hi, ih hxs]
    generalize items .standard d = result
    obtain ⟨_ | is, stop⟩ := result <;> rfl

/-- A sheet is read up to the end. -/
theorem items_complete (xs : Derivation.Sheet) {c d : TokenCursor} (h : c.Passes xs.tokens d)
    (hd : d.kind = .eof) : items .standard c = (.ok (xs.map Item.tree), d) := by
  have hend : items .standard d = (.ok [], d) := by rw [items, if_pos hd]
  rw [items_passes xs h, hend, Except.map, List.append_nil]

end TypedCss.Grammar

import TypedCss.Proofs.Grammar.Soundness.Expr

/-!
# What readers of statements and sheets read

Each reader of a statement, a selector or an item has one lemma that says what it reads, as the
readers of expressions have. A list of items then has two: what is read up to the end is derived by
the grammar (`exists_of_items_eq_ok`), and what stops the reading is a token that cannot be taken
(`refusal_of_items_eq_error`).
-/

namespace TypedCss.Grammar

open TypedCss.Derivation

/-! ### Assignments and declarations -/

/-- A value with its semicolon is read after the tokens `ts`, which begin a statement. -/
theorem valueThen_meets {α : Type} {start c : TokenCursor} (build : Expr → Info → α)
    (h : start.Reaches c) {ts : List Token} (hts : start.Passes ts c) :
    (valueThen .standard start build c h).Meets fun a d ↦
      ∃ (x : Expression) (semicolon : Terminal .semicolon),
        start.Passes (ts ++ (x.tokens ++ [semicolon.token])) d ∧
        a = build x.tree ⟨⟨start.position, semicolon.span.stop⟩, []⟩ := by
  have hm := expr_meets .default c
  rw [valueThen]
  split
  · rename_i e d k he
    rw [he] at hm
    exact hm
  · rename_i value d k he
    rw [he] at hm
    obtain ⟨x, hx, rfl, -⟩ := hm
    split
    · rename_i hd
      obtain ⟨semicolon, -, hs⟩ := d.exists_passes_terminal hd (by decide)
      have hp := hts.append (hx.append hs)
      refine ⟨x, semicolon, hp, ?_⟩
      rw [← List.append_assoc] at hp
      rw [TokenCursor.spanFrom, hp.lastPosition_eq]
      rfl
    · exact .mismatch

/-- What is read as an assignment is the meaning of one that was passed. -/
theorem assignment_meets {c : TokenCursor}
    (h : c.kind = .variableName ∨ c.kind = .identifier ∧ c.peek 1 = .colonEquals) :
    (assignment .standard c).Meets fun a d ↦
      ∃ x : Derivation.Assignment, c.Passes x.tokens d ∧ x.tree = a := by
  unfold assignment
  rcases h with h | ⟨h, hpeek⟩
  · obtain ⟨name, hn, hname⟩ := c.exists_passes_terminal h (by decide)
    dsimp only
    split
    · rename_i hd
      obtain ⟨sign, hs⟩ : ∃ sign : AssignmentSign,
          c.advance.Passes [sign.token] c.advance.advance := by
        rcases hd with hd | hd
        · obtain ⟨t, -, ht⟩ := c.advance.exists_passes_terminal hd (by decide)
          exact ⟨.colon t, ht⟩
        · obtain ⟨t, -, ht⟩ := c.advance.exists_passes_terminal hd (by decide)
          exact ⟨.colonEquals t, ht⟩
      refine (valueThen_meets _ _ (hname.append hs)).mono ?_
      rintro a d ⟨x, semicolon, hp, rfl⟩
      refine ⟨.ofVariableName name sign x semicolon, hp, ?_⟩
      rw [TokenCursor.position, ← hn]
      rfl
    · exact .unexpected _
  · obtain ⟨name, hn, hname⟩ := c.exists_passes_terminal h (by decide)
    have hd : c.advance.kind = .colonEquals := by
      rwa [← TokenCursor.peek_one (TokenCursor.ahead_ne_nil_of_kind_ne (by simp [h]))]
    obtain ⟨sign, -, hs⟩ := c.advance.exists_passes_terminal hd (by decide)
    simp only [hd, or_true, ↓reduceIte]
    refine (valueThen_meets _ _ (hname.append hs)).mono ?_
    rintro a d ⟨x, semicolon, hp, rfl⟩
    refine ⟨.ofIdentifier name sign x semicolon, hp, ?_⟩
    rw [TokenCursor.position, ← hn]
    rfl

theorem declaration_meets (c : TokenCursor) :
    (declaration .standard c).Meets fun a d ↦
      ∃ x : Derivation.Declaration, c.Passes x.tokens d ∧ x.tree = a := by
  rw [declaration]
  split
  · rename_i h
    obtain ⟨property, hn, hproperty⟩ := c.exists_passes_terminal h (by decide)
    dsimp only
    split
    · rename_i hd
      obtain ⟨colon, -, hc⟩ := c.advance.exists_passes_terminal hd (by decide)
      refine (valueThen_meets _ _ (hproperty.append hc)).mono ?_
      rintro a d ⟨x, semicolon, hp, rfl⟩
      refine ⟨⟨property, colon, x, semicolon⟩, hp, ?_⟩
      rw [TokenCursor.position, ← hn]
      rfl
    · exact .mismatch
  · exact .mismatch

/-! ### Statements -/

/-- A guard is read with its brackets, or without. -/
theorem guard_meets (c : TokenCursor) :
    (guard .standard c).Meets fun e d ↦
      ∃ x : Derivation.Guard, c.Passes x.tokens d ∧ x.tree = e := by
  rw [guard]
  split
  · rename_i h
    obtain ⟨opening, -, ho⟩ := c.exists_passes_terminal h (by decide)
    have hm := expr_meets .default c.advance
    rw [← Outcome.meets_since (h := c.reaches_advance)] at hm
    split
    · rename_i e d k he
      rw [he] at hm
      exact hm
    · rename_i value d k he
      rw [he] at hm
      obtain ⟨x, hx, rfl, -⟩ := hm
      split
      · rename_i hd
        obtain ⟨closing, -, hc⟩ := d.exists_passes_terminal hd (by decide)
        exact ⟨.bracketed opening x closing, ho.append (hx.append hc), rfl⟩
      · exact .mismatch
  · refine (expr_meets .default c).mono ?_
    rintro e d ⟨x, hx, rfl, -⟩
    exact ⟨.plain x, hx, rfl⟩

/-- Where a block ends that was passed last. -/
theorem lastPosition_eq_stop {c d : TokenCursor} {x : Block} (hx : c.Passes x.tokens d) :
    d.lastPosition = x.stop := by
  obtain ⟨opening, body, closing⟩ := x
  rw [Block.tokens, ← List.cons_append] at hx
  exact hx.lastPosition_eq

theorem kind_of_statement_conditional {k : TokenKind}
    (h : Dispatch.standard.statement k = some .conditional) : k = .ifWord := by
  cases k <;> first | rfl | cases h

theorem kind_of_statement_assignment {k : TokenKind}
    (h : Dispatch.standard.statement k = some .assignment) : k = .variableName := by
  cases k <;> first | rfl | cases h

/-- No kind begins a declaration by itself. -/
theorem statement_ne_declaration (k : TokenKind) :
    Dispatch.standard.statement k ≠ some .declaration := by
  cases k <;> decide

/-- What statements and blocks are. -/
theorem stmt_meets_all :
    (∀ c, (stmt .standard c).Meets fun s d ↦
        ∃ x : Derivation.Stmt, c.Passes x.tokens d ∧ x.tree = s) ∧
      (∀ c, c.kind = .ifWord → (conditional .standard c).Meets fun s d ↦
        ∃ x : Derivation.Stmt, c.Passes x.tokens d ∧ x.tree = s) ∧
      (∀ c, (block .standard c).Meets fun b d ↦
        ∃ x : Block, c.Passes x.tokens d ∧ x.tree = b) ∧
      ∀ start c h, (statements .standard start c h).Meets fun b d ↦
        ∃ (x : Stmts) (closing : Terminal .closeCurly),
          c.Passes (x.tokens ++ [closing.token]) d ∧ x.tree = b := by
  apply stmt.mutual_induct .standard
  -- The first token of a statement says what it is, and for an identifier the second one.
  case case1 =>
    intro c h ih
    rw [stmt]
    simp only [h]
    exact ih (kind_of_statement_conditional h)
  case case2 =>
    intro c h
    rw [stmt]
    simp only [h, Outcome.meets_map]
    refine (assignment_meets (.inl (kind_of_statement_assignment h))).mono ?_
    rintro a d ⟨x, hx, rfl⟩
    exact ⟨.assignment x, hx, rfl⟩
  case case3 =>
    intro c h
    exact absurd h (statement_ne_declaration _)
  case case4 =>
    intro c h hk hp
    rw [stmt]
    simp only [h]
    simp only [hk, hp, ↓reduceIte, Outcome.meets_map]
    refine (assignment_meets (.inr ⟨hk, hp⟩)).mono ?_
    rintro a d ⟨x, hx, rfl⟩
    exact ⟨.assignment x, hx, rfl⟩
  case case5 =>
    intro c h hk hp
    rw [stmt]
    simp only [h]
    simp only [hk, hp, ↓reduceIte, Outcome.meets_map]
    refine (declaration_meets c).mono ?_
    rintro a d ⟨x, hx, rfl⟩
    exact ⟨.declaration x, hx, rfl⟩
  case case6 =>
    intro c h hk
    rw [stmt]
    simp only [h, hk, ↓reduceIte]
    exact .unexpected _
  -- A conditional is refused in its guard, in its body or in its else branch.
  case case7 =>
    intro c e d k he hk
    have hm := guard_meets c.advance
    rw [← Outcome.meets_since (h := c.reaches_advance), he] at hm
    rw [conditional]
    simp only [he]
    exact hm
  case case8 =>
    intro c value d k he e g m hb ih hk
    rw [← Outcome.meets_since (h := k.reaches), hb] at ih
    rw [conditional]
    simp only [he, hb]
    exact ih
  case case9 =>
    intro c value d k he body f m hb hf e g n hb' ih ih' hk
    rw [← Outcome.meets_since (h := m.advance.reaches), hb'] at ih'
    rw [conditional]
    simp only [he, hb, hf, hb', ↓reduceIte]
    exact ih'
  -- A conditional is read with an else branch, or without one.
  case case10 =>
    intro c value d k he body f m hb hf elseBody g n hb' ih ih' hk
    have hm := guard_meets c.advance
    rw [← Outcome.meets_since (h := c.reaches_advance), he] at hm
    obtain ⟨x, hx, rfl⟩ := hm
    rw [← Outcome.meets_since (h := k.reaches), hb] at ih
    obtain ⟨y, hy, rfl⟩ := ih
    rw [← Outcome.meets_since (h := m.advance.reaches), hb'] at ih'
    obtain ⟨z, hz, rfl⟩ := ih'
    obtain ⟨word, hn, hw⟩ := c.exists_passes_terminal hk (by decide)
    obtain ⟨elseWord, hn', hw'⟩ := f.exists_passes_terminal hf (by decide)
    rw [conditional]
    simp only [he, hb, hf, hb', ↓reduceIte]
    refine ⟨.conditional word x y (.present elseWord z),
      hw.append (hx.append (hy.append (hw'.append hz))), ?_⟩
    simp only [TokenCursor.spanFrom, lastPosition_eq_stop hz, TokenCursor.position, ← hn, ← hn']
    rfl
  case case11 =>
    intro c value d k he body f m hb hf ih hk
    have hm := guard_meets c.advance
    rw [← Outcome.meets_since (h := c.reaches_advance), he] at hm
    obtain ⟨x, hx, rfl⟩ := hm
    rw [← Outcome.meets_since (h := k.reaches), hb] at ih
    obtain ⟨y, hy, rfl⟩ := ih
    obtain ⟨word, hn, hw⟩ := c.exists_passes_terminal hk (by decide)
    rw [conditional]
    simp only [he, hb, hf, ↓reduceIte]
    refine ⟨.conditional word x y .absent, ?_, ?_⟩
    · rw [Derivation.Stmt.tokens, Otherwise.tokens, List.append_nil]
      exact hw.append (hx.append hy)
    · simp only [TokenCursor.spanFrom, lastPosition_eq_stop hy, TokenCursor.position, ← hn]
      rfl
  -- A block is what stands between two braces.
  case case12 =>
    intro c h ih
    obtain ⟨opening, -, ho⟩ := c.exists_passes_terminal h (by decide)
    rw [block]
    simp only [h, ↓reduceDIte]
    refine ih.mono ?_
    rintro b d ⟨x, closing, hx, rfl⟩
    exact ⟨.mk opening x closing, ho.append hx, rfl⟩
  case case13 =>
    intro c h
    rw [block]
    simp only [h, ↓reduceDIte]
    exact .mismatch
  -- Statements go on up to the closing brace; the end of the source is refused.
  case case14 =>
    intro start c h hk
    obtain ⟨closing, -, hc⟩ := c.exists_passes_terminal hk (by decide)
    rw [statements]
    simp only [hk, ↓reduceIte]
    exact ⟨.nil, closing, hc, rfl⟩
  case case15 =>
    intro start c h hk he
    rw [statements]
    simp only [he, reduceCtorEq, ↓reduceIte]
    exact .unexpected _
  case case16 =>
    intro start c h hk he e d k hs ih
    rw [hs] at ih
    rw [statements]
    simp only [hk, he, hs, ↓reduceIte]
    exact ih
  case case17 =>
    intro start c h hk he s d k hs ih ih'
    rw [hs] at ih
    obtain ⟨x, hx, rfl⟩ := ih
    rw [statements]
    simp only [hk, he, hs, ↓reduceIte, Outcome.meets_map]
    refine ih'.mono ?_
    rintro b f ⟨xs, closing, hxs, rfl⟩
    refine ⟨.cons x xs, closing, ?_, rfl⟩
    rw [Stmts.tokens, List.append_assoc]
    exact hx.append hxs

/-- What is read as a block is the meaning of one that was passed. -/
theorem block_meets (c : TokenCursor) :
    (block .standard c).Meets fun b d ↦ ∃ x : Block, c.Passes x.tokens d ∧ x.tree = b :=
  stmt_meets_all.2.2.1 c

/-! ### Rules and items -/

/-- A selector starts with the token at which it was read. -/
theorem selector_meets (c : TokenCursor) :
    (selector c).Meets fun s d ↦
      ∃ x : Derivation.Selector, c.Passes x.tokens d ∧ x.tree = s ∧ x.start = c.position := by
  rw [selector]
  split
  · rename_i h
    obtain ⟨name, hn, hname⟩ := c.exists_passes_terminal h (by decide)
    refine ⟨.tag name, hname, ?_, ?_⟩
    · rw [← hn]
      rfl
    · rw [TokenCursor.position, ← hn]
      rfl
  · split
    · rename_i h
      obtain ⟨dot, hn, hdot⟩ := c.exists_passes_terminal h (by decide)
      dsimp only
      split
      · rename_i hd
        obtain ⟨name, hn', hname⟩ := c.advance.exists_passes_terminal hd (by decide)
        refine ⟨.class dot name, hdot.append hname, ?_, ?_⟩
        · rw [← hn']
          rfl
        · rw [TokenCursor.position, ← hn]
          rfl
      · exact .mismatch
    · split
      · rename_i h
        obtain ⟨hash, hn, hhash⟩ := c.exists_passes_terminal h (by decide)
        refine ⟨.id hash, hhash, ?_, ?_⟩
        · rw [← hn]
          rfl
        · rw [TokenCursor.position, ← hn]
          rfl
      · exact .unexpected _

/-- Each further selector has a comma before it. -/
theorem moreSelectors_meets (start c : TokenCursor) (h : start.Before c) :
    (moreSelectors start c h).Meets fun ss d ↦
      ∃ xs : List (Terminal .comma × Derivation.Selector), c.Passes (selectorsTokens xs) d ∧
        xs.map (·.2.tree) = ss := by
  induction c, h using moreSelectors.induct with
  | case1 c h hk e d k hs =>
    have hm := selector_meets c.advance
    rw [hs] at hm
    rw [moreSelectors]
    simp only [hk, hs, ↓reduceIte]
    exact hm
  | case2 c h hk s d k hs hd ih =>
    have hm := selector_meets c.advance
    rw [hs] at hm
    obtain ⟨x, hx, rfl, -⟩ := hm
    obtain ⟨comma, -, hc⟩ := c.exists_passes_terminal hk (by decide)
    rw [moreSelectors]
    simp only [hk, hs, ↓reduceIte, Outcome.meets_map]
    refine ih.mono ?_
    rintro ss f ⟨xs, hxs, rfl⟩
    exact ⟨(comma, x) :: xs, (hc.append hx).append hxs, rfl⟩
  | case3 c h hk =>
    rw [moreSelectors]
    simp only [hk, ↓reduceIte]
    exact ⟨[], .nil c, rfl⟩

theorem rule_meets (c : TokenCursor) :
    (rule .standard c).Meets fun r d ↦
      ∃ x : Derivation.Rule, c.Passes x.tokens d ∧ x.tree = r := by
  rw [rule]
  have hfirst := selector_meets c
  split
  · rename_i e d k hs
    rw [hs] at hfirst
    exact hfirst
  · rename_i first d k hs
    rw [hs] at hfirst
    obtain ⟨x, hx, rfl, hstart⟩ := hfirst
    have hothers := moreSelectors_meets c d k
    split
    · rename_i e f m hm
      rw [hm] at hothers
      exact hothers
    · rename_i others f m hm
      rw [hm] at hothers
      obtain ⟨xs, hxs, rfl⟩ := hothers
      have hbody := block_meets f
      rw [← Outcome.meets_since (h := m.reaches)] at hbody
      split
      · rename_i e g n hb
        rw [hb] at hbody
        exact hbody
      · rename_i body g n hb
        rw [hb] at hbody
        obtain ⟨y, hy, rfl⟩ := hbody
        refine ⟨⟨x, xs, y⟩, hx.append (hxs.append hy), ?_⟩
        rw [TokenCursor.spanFrom, lastPosition_eq_stop hy, ← hstart]
        rfl

/-- The name of a variable begins an assignment, and an identifier with a sign after it does. -/
theorem beginsAssignment_iff (c : TokenCursor) : beginsAssignment c = true ↔
    c.kind = .variableName ∨ c.kind = .identifier ∧ c.peek 1 = .colonEquals := by
  simp [beginsAssignment]

theorem item_meets (c : TokenCursor) :
    (item .standard c).Meets fun i d ↦
      ∃ x : Derivation.Item, c.Passes x.tokens d ∧ x.tree = i := by
  rw [item]
  split
  · rename_i h
    rw [Outcome.meets_map]
    refine (assignment_meets ((beginsAssignment_iff c).1 h)).mono ?_
    rintro a d ⟨x, hx, rfl⟩
    exact ⟨.assignment x, hx, rfl⟩
  · rw [Outcome.meets_map]
    refine (rule_meets c).mono ?_
    rintro r d ⟨x, hx, rfl⟩
    exact ⟨.rule x, hx, rfl⟩

/-! ### Sheets -/

/-- Items are read up to an end. -/
theorem exists_of_items_eq_ok {c d : TokenCursor} {is : List TypedCss.Item}
    (h : items .standard c = (.ok is, d)) :
    d.kind = .eof ∧ ∃ x : Derivation.Sheet, c.Passes x.tokens d ∧ x.map Item.tree = is := by
  induction c using items.induct .standard generalizing is d with
  | case1 c hk =>
    rw [items, if_pos hk] at h
    cases h
    exact ⟨hk, [], .nil c, rfl⟩
  | case2 c hk e f k hi =>
    rw [items, if_neg hk] at h
    simp only [hi] at h
    cases h
  | case3 c hk i f k hi e g hr ih =>
    rw [items, if_neg hk] at h
    simp only [hi, hr] at h
    cases h
  | case4 c hk i f k hi is' g hr ih =>
    rw [items, if_neg hk] at h
    simp only [hi, hr] at h
    cases h
    have hm := item_meets c
    rw [hi] at hm
    obtain ⟨x, hx, rfl⟩ := hm
    obtain ⟨hd, xs, hxs, rfl⟩ := ih hr
    exact ⟨hd, x :: xs, hx.append hxs, rfl⟩

/-- Where no items can be read, a token is refused. -/
theorem refusal_of_items_eq_error {c d : TokenCursor} {e : Error}
    (h : items .standard c = (.error e, d)) : c.Reaches d ∧ d.current.Refusal e := by
  induction c using items.induct .standard with
  | case1 c hk =>
    rw [items, if_pos hk] at h
    cases h
  | case2 c hk e' f k hi =>
    rw [items, if_neg hk] at h
    simp only [hi] at h
    cases h
    have hm := item_meets c
    rw [hi] at hm
    exact ⟨k, hm⟩
  | case3 c hk i f k hi e' g hr ih =>
    rw [items, if_neg hk] at h
    simp only [hi, hr] at h
    cases h
    obtain ⟨hf, he⟩ := ih hr
    exact ⟨k.reaches.trans hf, he⟩
  | case4 c hk i f k hi is g hr ih =>
    rw [items, if_neg hk] at h
    simp only [hi, hr] at h
    cases h

end TypedCss.Grammar

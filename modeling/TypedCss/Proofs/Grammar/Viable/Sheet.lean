import TypedCss.Proofs.Grammar.Soundness.Sheet
import TypedCss.Proofs.Grammar.Viable.Expr

/-!
# What was read of a sheet can be completed

Where a reader of a statement, a selector or an item gives an error, what it has passed begins what
it reads, as it does with expressions. So the tokens before an error begin a sheet
(`begins_of_items_eq_error`).

An assignment is only read where its first tokens say so, and nothing else could follow them; a
conditional is complete without an else branch, and a block may end before each statement.
-/

namespace TypedCss.Grammar

open TypedCss.Derivation
open Token (AllFit)

/-! ### Assignments and declarations -/

/-- The tokens of a value and the semicolon after it. -/
def valueTokens (value : Expression × Terminal .semicolon) : List Token :=
  value.1.tokens ++ [value.2.token]

/-- A value without its semicolon can be given one. -/
theorem valueThen_breaks {α : Type} {start c : TokenCursor} (build : Expr → Info → α)
    (h : start.Reaches c) :
    (valueThen .standard start build c h).Breaks c (Begins valueTokens) := by
  have hfits : AllFit [(terminal .semicolon ";").token] := List.forall_mem_singleton.2 rfl
  rw [valueThen]
  split
  · rename_i e d k he
    refine (expr_breaks .default c).fail he (.nil c) fun ts hts ↦ ?_
    exact Begins.wrap (fun x ↦ (x, terminal .semicolon ";")) [] _ hfits (fun x ↦ rfl) hts
  · rename_i value d k he
    obtain ⟨x, hx, -, -⟩ := (expr_meets .default c).of_eq_ok he
    dsimp only
    split
    · trivial
    · exact ⟨x.tokens, hx, (x, terminal .semicolon ";"), _, hfits, rfl⟩

/-- A name that begins an assignment has a sign and a value still to come, or the value and its
semicolon. -/
theorem assignment_breaks {c : TokenCursor}
    (h : c.kind = .variableName ∨ c.kind = .identifier ∧ c.peek 1 = .colonEquals) :
    (assignment .standard c).Breaks c (Begins Derivation.Assignment.tokens) := by
  rw [assignment]
  rcases h with h | ⟨h, hpeek⟩
  · obtain ⟨name, -, hname⟩ := c.exists_passes_terminal h (by decide)
    split
    · rename_i hd
      obtain ⟨sign, hs⟩ : ∃ sign : AssignmentSign,
          c.advance.Passes [sign.token] c.advance.advance := by
        rcases hd with hd | hd
        · obtain ⟨t, -, ht⟩ := c.advance.exists_passes_terminal hd (by decide)
          exact ⟨.colon t, ht⟩
        · obtain ⟨t, -, ht⟩ := c.advance.exists_passes_terminal hd (by decide)
          exact ⟨.colonEquals t, ht⟩
      refine (valueThen_breaks _ _).after (hname.append hs) fun ts hts ↦ ?_
      exact hts.wrap_last (fun v ↦ .ofVariableName name sign v.1 v.2) [name.token, sign.token]
        fun v ↦ rfl
    · have hfits : AllFit ((AssignmentSign.colon (terminal .colon ":")).token ::
          (someValue.tokens ++ [(terminal .semicolon ";").token])) :=
        List.forall_mem_cons.2 ⟨rfl, List.forall_mem_append.2
          ⟨allFit_someValue, List.forall_mem_singleton.2 rfl⟩⟩
      exact ⟨[name.token], hname,
        .ofVariableName name (.colon (terminal .colon ":")) someValue (terminal .semicolon ";"),
        _, hfits, rfl⟩
  · obtain ⟨name, -, hname⟩ := c.exists_passes_terminal h (by decide)
    have hd : c.advance.kind = .colonEquals := by
      rwa [← TokenCursor.peek_one (TokenCursor.ahead_ne_nil_of_kind_ne (by simp [h]))]
    obtain ⟨sign, -, hs⟩ := c.advance.exists_passes_terminal hd (by decide)
    simp only [hd, or_true, ↓reduceIte]
    refine (valueThen_breaks _ _).after (hname.append hs) fun ts hts ↦ ?_
    exact hts.wrap_last (fun v ↦ .ofIdentifier name sign v.1 v.2) [name.token, sign.token]
      fun v ↦ rfl

/-- A property has its colon, its value and its semicolon still to come. -/
theorem declaration_breaks {c : TokenCursor} (h : c.kind = .identifier) :
    (declaration .standard c).Breaks c (Begins Derivation.Declaration.tokens) := by
  obtain ⟨property, -, hproperty⟩ := c.exists_passes_terminal h (by decide)
  rw [declaration, if_pos h]
  dsimp only
  split
  · rename_i hd
    obtain ⟨colon, -, hc⟩ := c.advance.exists_passes_terminal hd (by decide)
    refine (valueThen_breaks _ _).after (hproperty.append hc) fun ts hts ↦ ?_
    exact hts.wrap_last (fun v ↦ ⟨property, colon, v.1, v.2⟩) [property.token, colon.token]
      fun v ↦ rfl
  · have hfits : AllFit ((terminal .colon ":").token ::
        (someValue.tokens ++ [(terminal .semicolon ";").token])) :=
      List.forall_mem_cons.2 ⟨rfl, List.forall_mem_append.2
        ⟨allFit_someValue, List.forall_mem_singleton.2 rfl⟩⟩
    exact ⟨[property.token], hproperty,
      ⟨property, terminal .colon ":", someValue, terminal .semicolon ";"⟩, _, hfits, rfl⟩

/-! ### Statements -/

/-- After an opening bracket, a value and the closing one can be put. -/
theorem guard_breaks (c : TokenCursor) :
    (guard .standard c).Breaks c (Begins Derivation.Guard.tokens) := by
  have hfits : AllFit [(terminal .closeBracket "]").token] := List.forall_mem_singleton.2 rfl
  rw [guard]
  split
  · rename_i h
    obtain ⟨opening, -, ho⟩ := c.exists_passes_terminal h (by decide)
    split
    · rename_i e d k he
      refine (Outcome.breaks_since.2 (expr_breaks .default c.advance)).fail he ho fun ts hts ↦ ?_
      exact Begins.wrap (Derivation.Guard.bracketed opening · (terminal .closeBracket "]"))
        [opening.token] _ hfits (fun x ↦ rfl) hts
    · rename_i value d k he
      obtain ⟨x, hx, -, -⟩ := (Outcome.meets_since.2 (expr_meets .default c.advance)).of_eq_ok he
      split
      · trivial
      · exact ⟨opening.token :: x.tokens, ho.append hx,
          .bracketed opening x (terminal .closeBracket "]"), _, hfits, rfl⟩
  · exact (expr_breaks .default c).mono fun ts hts ↦
      Begins.wrap_last Derivation.Guard.plain [] (fun x ↦ rfl) hts

/-- The tokens of the statements of a block and the brace after them. -/
def bodyTokens (body : Stmts × Terminal .closeCurly) : List Token :=
  body.1.tokens ++ [body.2.token]

/-- What the readers of statements and blocks have passed where they give an error. -/
theorem stmt_breaks_all :
    (∀ c, (stmt .standard c).Breaks c (Begins Derivation.Stmt.tokens)) ∧
      (∀ c, c.kind = .ifWord →
        (conditional .standard c).Breaks c (Begins Derivation.Stmt.tokens)) ∧
      (∀ c, (block .standard c).Breaks c (Begins Block.tokens)) ∧
      ∀ start c h, (statements .standard start c h).Breaks c (Begins bodyTokens) := by
  have hclosing : AllFit [(terminal .closeCurly "\x7d").token] := List.forall_mem_singleton.2 rfl
  have hassignment : ∀ c : TokenCursor,
      c.kind = .variableName ∨ c.kind = .identifier ∧ c.peek 1 = .colonEquals →
      (assignment .standard c).Breaks c (Begins Derivation.Stmt.tokens) :=
    fun c h ↦ (assignment_breaks h).mono fun ts hts ↦
      hts.wrap_last Derivation.Stmt.assignment [] fun x ↦ rfl
  apply stmt.mutual_induct .standard
  -- A statement is known by the tokens that decide what it is.
  case case1 =>
    intro c h ih
    rw [stmt]
    simp only [h]
    exact ih (kind_of_statement_conditional h)
  case case2 =>
    intro c h
    rw [stmt]
    simp only [h, Outcome.breaks_map]
    exact hassignment c (.inl (kind_of_statement_assignment h))
  case case3 =>
    intro c h
    exact absurd h (statement_ne_declaration _)
  case case4 =>
    intro c h hk hp
    rw [stmt]
    simp only [h]
    simp only [hk, hp, ↓reduceIte, Outcome.breaks_map]
    exact hassignment c (.inr ⟨hk, hp⟩)
  case case5 =>
    intro c h hk hp
    rw [stmt]
    simp only [h]
    simp only [hk, hp, ↓reduceIte, Outcome.breaks_map]
    exact (declaration_breaks hk).mono fun ts hts ↦
      hts.wrap_last Derivation.Stmt.declaration [] fun x ↦ rfl
  case case6 =>
    intro c h hk
    rw [stmt]
    simp only [h, hk, ↓reduceIte]
    refine ⟨[], .nil c, .nil (.conditional (terminal .ifWord "if") (.plain someValue) someBlock
      .absent) (List.forall_mem_cons.2 ⟨rfl, List.forall_mem_append.2 ⟨allFit_someValue, ?_⟩⟩)⟩
    exact List.forall_mem_append.2 ⟨allFit_someBlock, List.forall_mem_nil _⟩
  -- A conditional is completed by an empty block, and needs no else branch.
  case case7 =>
    intro c e d k he hk
    obtain ⟨word, -, hw⟩ := c.exists_passes_terminal hk (by decide)
    rw [conditional]
    simp only [he]
    refine (Outcome.breaks_since.2 (guard_breaks c.advance)).fail he hw fun ts hts ↦ ?_
    refine hts.wrap (Derivation.Stmt.conditional word · someBlock .absent) [word.token]
      someBlock.tokens allFit_someBlock fun x ↦ ?_
    simp [Derivation.Stmt.tokens, Otherwise.tokens]
  case case8 =>
    intro c value d k he e g m hb ih hk
    obtain ⟨word, -, hw⟩ := c.exists_passes_terminal hk (by decide)
    obtain ⟨x, hx, -⟩ := (Outcome.meets_since.2 (guard_meets c.advance)).of_eq_ok he
    rw [conditional]
    simp only [he, hb]
    refine (Outcome.breaks_since.2 ih).fail hb (hw.append hx) fun ts hts ↦ ?_
    refine hts.wrap_last (Derivation.Stmt.conditional word x · .absent) _ fun y ↦ ?_
    simp [Derivation.Stmt.tokens, Otherwise.tokens]
  case case9 =>
    intro c value d k he body f m hb hf e g n hb' ih ih' hk
    obtain ⟨word, -, hw⟩ := c.exists_passes_terminal hk (by decide)
    obtain ⟨elseWord, -, hw'⟩ := f.exists_passes_terminal hf (by decide)
    obtain ⟨x, hx, -⟩ := (Outcome.meets_since.2 (guard_meets c.advance)).of_eq_ok he
    obtain ⟨y, hy, -⟩ := (Outcome.meets_since.2 (block_meets d)).of_eq_ok hb
    have hpassed := (hw.append hx).append (hy.append hw')
    rw [conditional]
    simp only [he, hb, hf, hb', ↓reduceIte]
    refine (Outcome.breaks_since.2 ih').fail hb' hpassed fun ts hts ↦ ?_
    refine hts.wrap_last (fun z ↦ Derivation.Stmt.conditional word x y (.present elseWord z)) _
      fun z ↦ ?_
    simp [Derivation.Stmt.tokens, Otherwise.tokens]
  case case10 =>
    intro c value d k he body f m hb hf elseBody g n hb' ih ih' hk
    rw [conditional]
    simp only [he, hb, hf, hb', ↓reduceIte]
    trivial
  case case11 =>
    intro c value d k he body f m hb hf ih hk
    rw [conditional]
    simp only [he, hb, hf, ↓reduceIte]
    trivial
  -- A block is completed by its closing brace.
  case case12 =>
    intro c h ih
    obtain ⟨opening, -, ho⟩ := c.exists_passes_terminal h (by decide)
    rw [block]
    simp only [h, ↓reduceDIte]
    exact ih.after ho fun ts hts ↦
      hts.wrap_last (fun v : Stmts × Terminal .closeCurly ↦ Block.mk opening v.1 v.2)
        [opening.token] fun v ↦ rfl
  case case13 =>
    intro c h
    rw [block]
    simp only [h, ↓reduceDIte]
    exact ⟨[], .nil c, .nil someBlock allFit_someBlock⟩
  case case14 =>
    intro start c h hk
    rw [statements]
    simp only [hk, ↓reduceIte]
    trivial
  case case15 =>
    intro start c h hk he
    rw [statements]
    simp only [he, reduceCtorEq, ↓reduceIte]
    exact ⟨[], .nil c, .nil (.nil, terminal .closeCurly "\x7d") hclosing⟩
  case case16 =>
    intro start c h hk he e d k hs ih
    rw [statements]
    simp only [hk, he, hs, ↓reduceIte]
    refine ih.fail hs (.nil c) fun ts hts ↦ ?_
    refine hts.wrap (fun x ↦ (Stmts.cons x .nil, terminal .closeCurly "\x7d")) [] _ hclosing
      fun x ↦ ?_
    simp [bodyTokens, Stmts.tokens]
  case case17 =>
    intro start c h hk he s d k hs ih ih'
    obtain ⟨x, hx, -⟩ := (stmt_meets_all.1 c).of_eq_ok hs
    rw [statements]
    simp only [hk, he, hs, ↓reduceIte, Outcome.breaks_map]
    refine ih'.after hx fun ts hts ↦ ?_
    refine hts.wrap_last (fun v ↦ (Stmts.cons x v.1, v.2)) x.tokens fun v ↦ ?_
    simp [bodyTokens, Stmts.tokens]

theorem block_breaks (c : TokenCursor) : (block .standard c).Breaks c (Begins Block.tokens) :=
  stmt_breaks_all.2.2.1 c

/-! ### Rules and items -/

/-- Only a dot can be left without what belongs to it. -/
theorem selector_breaks (c : TokenCursor) :
    (selector c).Breaks c (Begins Derivation.Selector.tokens) := by
  rw [selector]
  split
  · trivial
  · split
    · rename_i h
      obtain ⟨dot, -, hdot⟩ := c.exists_passes_terminal h (by decide)
      dsimp only
      split
      · trivial
      · exact ⟨[dot.token], hdot, .class dot (terminal .identifier "a"), _,
          allFit_someSelector, rfl⟩
    · split
      · trivial
      · exact ⟨[], .nil c, .nil someSelector allFit_someSelector⟩

/-- A selector can be put after a comma, and the list ends there. -/
theorem moreSelectors_breaks (start c : TokenCursor) (h : start.Before c) :
    (moreSelectors start c h).Breaks c (Begins selectorsTokens) := by
  induction c, h using moreSelectors.induct with
  | case1 c h hk e d k hs =>
    obtain ⟨comma, -, hc⟩ := c.exists_passes_terminal hk (by decide)
    rw [moreSelectors]
    simp only [hk, hs, ↓reduceIte]
    refine (selector_breaks c.advance).fail hs hc fun ts hts ↦ ?_
    refine hts.wrap_last (fun x ↦ [(comma, x)]) [comma.token] fun x ↦ ?_
    simp [selectorsTokens]
  | case2 c h hk s d k hs hd ih =>
    obtain ⟨comma, -, hc⟩ := c.exists_passes_terminal hk (by decide)
    obtain ⟨x, hx, -, -⟩ := (selector_meets c.advance).of_eq_ok hs
    rw [moreSelectors]
    simp only [hk, hs, ↓reduceIte, Outcome.breaks_map]
    refine ih.after (hc.append hx) fun ts hts ↦ ?_
    refine hts.wrap_last ((comma, x) :: ·) _ fun xs ↦ ?_
    simp [selectorsTokens]
  | case3 c h hk =>
    rw [moreSelectors]
    simp only [hk, ↓reduceIte]
    trivial

/-- A list of selectors can be given an empty block. -/
theorem rule_breaks (c : TokenCursor) :
    (rule .standard c).Breaks c (Begins Derivation.Rule.tokens) := by
  rw [rule]
  split
  · rename_i e d k hs
    refine (selector_breaks c).fail hs (.nil c) fun ts hts ↦ ?_
    exact hts.wrap (fun x ↦ ⟨x, [], someBlock⟩) [] someBlock.tokens allFit_someBlock fun x ↦ rfl
  · rename_i first d k hs
    obtain ⟨x, hx, -, -⟩ := (selector_meets c).of_eq_ok hs
    split
    · rename_i e f m hss
      refine (moreSelectors_breaks c d k).fail hss hx fun ts hts ↦ ?_
      exact hts.wrap (fun xs ↦ ⟨x, xs, someBlock⟩) x.tokens someBlock.tokens allFit_someBlock
        fun xs ↦ rfl
    · rename_i others f m hss
      obtain ⟨xs, hxs, -⟩ := (moreSelectors_meets c d k).of_eq_ok hss
      split
      · rename_i e g n hb
        refine (Outcome.breaks_since.2 (block_breaks f)).fail hb (hx.append hxs) fun ts hts ↦ ?_
        refine hts.wrap_last (fun y ↦ ⟨x, xs, y⟩) _ fun y ↦ ?_
        simp [Derivation.Rule.tokens]
      · trivial

theorem item_breaks (c : TokenCursor) :
    (item .standard c).Breaks c (Begins Derivation.Item.tokens) := by
  rw [item]
  split
  · rename_i h
    rw [Outcome.breaks_map]
    exact (assignment_breaks ((beginsAssignment_iff c).1 h)).mono fun ts hts ↦
      hts.wrap_last Derivation.Item.assignment [] fun x ↦ rfl
  · rw [Outcome.breaks_map]
    exact (rule_breaks c).mono fun ts hts ↦ hts.wrap_last Derivation.Item.rule [] fun x ↦ rfl

/-- Where no further item can be read, the tokens that were passed begin a sheet. -/
theorem begins_of_items_eq_error {c d : TokenCursor} {e : Error}
    (h : items .standard c = (.error e, d)) :
    ∃ ts, c.Passes ts d ∧ Begins Derivation.Sheet.tokens ts := by
  induction c using items.induct .standard with
  | case1 c hk =>
    rw [items, if_pos hk] at h
    cases h
  | case2 c hk e' f k hi =>
    rw [items, if_neg hk] at h
    simp only [hi] at h
    cases h
    have hb := item_breaks c
    rw [hi] at hb
    obtain ⟨ts, hts, hbegins⟩ := hb
    refine ⟨ts, hts, hbegins.wrap_last (fun x ↦ [x]) [] fun x ↦ ?_⟩
    simp [Derivation.Sheet.tokens]
  | case3 c hk i f k hi e' g hr ih =>
    rw [items, if_neg hk] at h
    simp only [hi, hr] at h
    cases h
    obtain ⟨x, hx, -⟩ := (item_meets c).of_eq_ok hi
    obtain ⟨ts, hts, hbegins⟩ := ih hr
    exact ⟨x.tokens ++ ts, hx.append hts, hbegins.wrap_last (x :: ·) x.tokens fun xs ↦ rfl⟩
  | case4 c hk i f k hi is g hr ih =>
    rw [items, if_neg hk] at h
    simp only [hi, hr] at h
    cases h

end TypedCss.Grammar

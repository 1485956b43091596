import TypedCss.Grammar.Sheet
import TypedCss.Proofs.Grammar.Relocation.Expr

/-!
# Reading moved sheets

From moved tokens the same items are read, moved, or the same error, moved (`items_moved`); the
tokens after the one where reading stops do not count, nor do those before the one where it begins
(`items_movedUpTo`). A statement or an item may be told from its second token, but then reading does
not stop before this one (`assignment_reaches`, `declaration_reaches`, `rule_reaches`).

The only position that is not taken from a token is the start of the file, where a sheet starts.
Everything else that is read stands after a token that was passed (`Before.passed_ne_nil`).
-/

namespace TypedCss.Grammar

variable {r : Relocation} {n : Nat} {behind : List Token}

/-! ### Statements -/

theorem valueThen_reaches (t : Dispatch) {α : Type} {start c : TokenCursor}
    (build : Expr → Info → α) (h : start.Reaches c) :
    c.Reaches (valueThen t start build c h).stop := by
  rw [valueThen]
  split
  · rename_i e d k he
    exact k
  · rename_i value d k he
    dsimp only
    split
    · exact k.advance.reaches
    · exact k.reaches

/-- An assignment is not refused before its second token. -/
theorem assignment_reaches (t : Dispatch) (c : TokenCursor) :
    c.advance.Reaches (assignment t c).stop := by
  rw [assignment]
  split
  · exact c.advance.reaches_advance.trans (valueThen_reaches t _ _)
  · exact .refl

/-- A declaration that begins with a name is not refused before its second token. -/
theorem declaration_reaches (t : Dispatch) {c : TokenCursor} (h : c.kind = .identifier) :
    c.advance.Reaches (declaration t c).stop := by
  rw [declaration, if_pos h]
  dsimp only
  split
  · exact c.advance.reaches_advance.trans (valueThen_reaches t _ _)
  · exact .refl

/-- A node from a token to the token passed last is moved with them. -/
theorem spanFrom_moved {c c' start start' : TokenCursor} (h : c.MovedUpTo r n behind c')
    (hs : start.MovedUpTo r n behind start') (hn : start.index ≤ n) (hp : c.passed ≠ []) :
    (⟨c'.spanFrom start'.position, []⟩ : Info) =
      Info.move r ⟨c.spanFrom start.position, []⟩ := by
  rw [TokenCursor.spanFrom, h.lastPosition_eq hp, hs.position_eq hn]
  rfl

theorem valueThen_moved (t : Dispatch) {α : Type} {f : α → α} {build build' : Expr → Info → α}
    (hbuild : ∀ e i, build' (e.relabel (Info.move r)) (Info.move r i) = f (build e i))
    {start start' c c' : TokenCursor} (hs : start.MovedUpTo r n behind start')
    (h : c.MovedUpTo r n behind c') (k : start.Reaches c) (k' : start'.Reaches c') :
    (valueThen t start build c k).MovedUpTo r n behind f (valueThen t start' build' c' k') := by
  intro hn
  have hsn := Outcome.index_le hn
  rw [valueThen] at hn ⊢
  rw [valueThen]
  cases he : expr t .default c with
  | error e d m =>
    simp only [he] at hn ⊢
    obtain ⟨d', m', he', hd⟩ := (expr_moved t .default h).exists_eq_error he hn
    simp only [he']
    exact .error hd
  | ok value d m =>
    simp only [he] at hn ⊢
    have hdn : d.index ≤ n := by
      split at hn
      · exact Nat.le_trans d.reaches_advance.index_le hn
      · exact hn
    obtain ⟨d', m', he', hd⟩ := (expr_moved t .default h).exists_eq_ok he hdn
    simp only [he', hd.kind_eq hdn]
    split
    · rw [spanFrom_moved (hd.advance hdn) hs hsn (k.trans_before m).advance.passed_ne_nil, hbuild]
      exact .ok (hd.advance hdn)
    · rw [hd.mismatch_eq hdn]
      exact .error hd

theorem assignment_moved (t : Dispatch) {c c' : TokenCursor} (h : c.MovedUpTo r n behind c') :
    (assignment t c).MovedUpTo r n behind (Assignment.relabel (Info.move r)) (assignment t c') := by
  intro hn
  have hc := Outcome.index_le hn
  have hdn := Nat.le_trans (assignment_reaches t c).index_le hn
  have hd := h.advance hc
  rw [assignment] at hn ⊢
  rw [assignment, h.value_eq hc]
  simp only [hd.kind_eq hdn]
  split
  · rename_i hk
    rw [if_pos hk] at hn
    exact valueThen_moved t (fun _ _ ↦ rfl) h (hd.advance hdn) _ _ hn
  · rw [hd.unexpected_eq hdn]
    exact .error hd

theorem declaration_moved (t : Dispatch) {c c' : TokenCursor} (h : c.MovedUpTo r n behind c') :
    (declaration t c).MovedUpTo r n behind (Declaration.relabel (Info.move r))
      (declaration t c') := by
  intro hn
  have hc := Outcome.index_le hn
  by_cases hk : c.kind = .identifier
  · have hdn := Nat.le_trans (declaration_reaches t hk).index_le hn
    have hd := h.advance hc
    rw [declaration, if_pos hk] at hn ⊢
    rw [declaration, h.kind_eq hc, if_pos hk, h.value_eq hc]
    dsimp only at hn ⊢
    rw [hd.kind_eq hdn]
    split
    · rename_i hcolon
      rw [if_pos hcolon] at hn
      exact valueThen_moved t (fun _ _ ↦ rfl) h (hd.advance hdn) _ _ hn
    · rw [hd.mismatch_eq hdn]
      exact .error hd
  · rw [declaration, declaration, h.kind_eq hc, if_neg hk, if_neg hk, h.mismatch_eq hc]
    exact .error h

theorem guard_moved (t : Dispatch) {c c' : TokenCursor} (h : c.MovedUpTo r n behind c') :
    (guard t c).MovedUpTo r n behind (Expr.relabel (Info.move r)) (guard t c') := by
  intro hn
  have hc := Outcome.index_le hn
  by_cases hk : c.kind = .openBracket
  · have hm := (expr_moved t .default (h.advance hc)).since c.reaches_advance c'.reaches_advance
    rw [guard, if_pos hk] at hn ⊢
    rw [guard, h.kind_eq hc, if_pos hk]
    cases he : (expr t .default c.advance).since c.reaches_advance with
    | error e d m =>
      simp only [he] at hn ⊢
      obtain ⟨d', m', he', hd⟩ := hm.exists_eq_error he hn
      simp only [he']
      exact .error hd
    | ok value d m =>
      simp only [he] at hn ⊢
      have hdn : d.index ≤ n := by
        split at hn
        · exact Nat.le_trans d.reaches_advance.index_le hn
        · exact hn
      obtain ⟨d', m', he', hd⟩ := hm.exists_eq_ok he hdn
      simp only [he', hd.kind_eq hdn]
      split
      · exact .ok (hd.advance hdn)
      · rw [hd.mismatch_eq hdn]
        exact .error hd
  · rw [guard, if_neg hk] at hn ⊢
    rw [guard, h.kind_eq hc, if_neg hk]
    exact expr_moved t .default h hn

/-- The statements of a block are read from its beginning on. -/
theorem statements_reaches (t : Dispatch) (start c : TokenCursor) (h : start.Before c) :
    c.Reaches (statements t start c h).stop := by
  rw [statements]
  split
  · exact c.reaches_advance
  · split
    · exact .refl
    · split
      · rename_i e d k hs
        exact k
      · rename_i s d k hs
        rw [Outcome.stop_map]
        exact k.reaches.trans (statements_reaches t start d (h.trans k))
termination_by c.ahead.length
decreasing_by exact (‹c.Before _›).shorter

/-- What readers of statements and blocks read from moved tokens. -/
theorem stmt_moved_all (t : Dispatch) :
    (∀ c c', c.MovedUpTo r n behind c' →
        (stmt t c).MovedUpTo r n behind (Stmt.relabel (Info.move r)) (stmt t c')) ∧
      (∀ c c', c.MovedUpTo r n behind c' →
        (conditional t c).MovedUpTo r n behind (Stmt.relabel (Info.move r)) (conditional t c')) ∧
      (∀ c c', c.MovedUpTo r n behind c' →
        (block t c).MovedUpTo r n behind (Body.relabel (Info.move r)) (block t c')) ∧
      ∀ start c h start' c' (h' : start'.Before c'), c.MovedUpTo r n behind c' → c.index ≤ n →
        (statements t start c h).MovedUpTo r n behind (Body.relabel (Info.move r))
          (statements t start' c' h') := by
  apply stmt.mutual_induct t
  -- What a statement is depends on kinds only.
  case case1 =>
    intro c hs ih c' h hn
    have hc := Outcome.index_le hn
    rw [stmt.eq_def t c] at hn ⊢
    simp only [hs] at hn ⊢
    rw [stmt.eq_def t c', h.kind_eq hc]
    simp only [hs]
    exact ih c' h hn
  case case2 =>
    intro c hs c' h hn
    have hc := Outcome.index_le hn
    rw [stmt.eq_def t c] at hn ⊢
    simp only [hs] at hn ⊢
    rw [stmt.eq_def t c', h.kind_eq hc]
    simp only [hs]
    exact (assignment_moved t h).map (fun _ ↦ rfl) hn
  case case3 =>
    intro c hs c' h hn
    have hc := Outcome.index_le hn
    rw [stmt.eq_def t c] at hn ⊢
    simp only [hs] at hn ⊢
    rw [stmt.eq_def t c', h.kind_eq hc]
    simp only [hs]
    exact (declaration_moved t h).map (fun _ ↦ rfl) hn
  case case4 =>
    intro c hs hk hp c' h hn
    have hc := Outcome.index_le hn
    rw [stmt.eq_def t c] at hn ⊢
    simp only [hs] at hn ⊢
    simp only [hk, hp, ↓reduceIte] at hn ⊢
    -- The second token was looked at, and it is not further on than the one where reading stops.
    have hlt := (assignment_reaches t c).index_lt_of_advance (by simp [hk])
    have hpeek := h.peek_one_eq (Nat.le_trans hlt (by rwa [Outcome.stop_map] at hn))
    rw [stmt.eq_def t c', h.kind_eq hc, hpeek]
    simp only [hs]
    simp only [hk, hp, ↓reduceIte]
    exact (assignment_moved t h).map (fun _ ↦ rfl) hn
  case case5 =>
    intro c hs hk hp c' h hn
    have hc := Outcome.index_le hn
    rw [stmt.eq_def t c] at hn ⊢
    simp only [hs] at hn ⊢
    simp only [hk, hp, ↓reduceIte] at hn ⊢
    have hlt := (declaration_reaches t hk).index_lt_of_advance (by simp [hk])
    have hpeek := h.peek_one_eq (Nat.le_trans hlt (by rwa [Outcome.stop_map] at hn))
    rw [stmt.eq_def t c', h.kind_eq hc, hpeek]
    simp only [hs]
    simp only [hk, hp, ↓reduceIte]
    exact (declaration_moved t h).map (fun _ ↦ rfl) hn
  case case6 =>
    intro c hs hk c' h hn
    have hc := Outcome.index_le hn
    rw [stmt.eq_def t c, stmt.eq_def t c', h.kind_eq hc, h.unexpected_eq hc]
    simp only [hs, hk, ↓reduceIte]
    exact .error h
  -- A conditional.
  case case7 =>
    intro c e d k hg c' h hn
    have hc := Outcome.index_le hn
    rw [conditional.eq_def t c] at hn ⊢
    simp only [hg] at hn ⊢
    obtain ⟨d', k', hg', hd⟩ := ((guard_moved t (h.advance hc)).since c.reaches_advance
      c'.reaches_advance).exists_eq_error hg hn
    rw [conditional.eq_def t c']
    simp only [hg']
    exact .error hd
  case case8 =>
    intro c value d k hg e f m hb ih c' h hn
    have hc := Outcome.index_le hn
    rw [conditional.eq_def t c] at hn ⊢
    simp only [hg, hb] at hn ⊢
    have hdn := Nat.le_trans (Outcome.reaches_of_since_eq_error hb).index_le hn
    obtain ⟨d', k', hg', hd⟩ := ((guard_moved t (h.advance hc)).since c.reaches_advance
      c'.reaches_advance).exists_eq_ok hg hdn
    obtain ⟨f', m', hb', hf⟩ := ((ih d' hd).since k.reaches k'.reaches).exists_eq_error hb hn
    rw [conditional.eq_def t c']
    simp only [hg', hb']
    exact .error hf
  case case9 =>
    intro c value d k hg body f m hb hf e g o he ih ih' c' h hn
    have hc := Outcome.index_le hn
    rw [conditional.eq_def t c] at hn ⊢
    simp only [hg, hb, hf, he, ↓reduceIte] at hn ⊢
    have hfn := Nat.le_trans
      (f.reaches_advance.trans (Outcome.reaches_of_since_eq_error he)).index_le hn
    have hdn := Nat.le_trans (Outcome.reaches_of_since_eq_ok hb).index_le hfn
    obtain ⟨d', k', hg', hd⟩ := ((guard_moved t (h.advance hc)).since c.reaches_advance
      c'.reaches_advance).exists_eq_ok hg hdn
    obtain ⟨f', m', hb', hfm⟩ := ((ih d' hd).since k.reaches k'.reaches).exists_eq_ok hb hfn
    obtain ⟨g', o', he', hgm⟩ := ((ih' f'.advance (hfm.advance hfn)).since m.advance.reaches
      m'.advance.reaches).exists_eq_error he hn
    rw [conditional.eq_def t c']
    simp only [hg', hb', hfm.kind_eq hfn, hf, he', ↓reduceIte]
    exact .error hgm
  case case10 =>
    intro c value d k hg body f m hb hf elseBody g o he ih ih' c' h hn
    have hc := Outcome.index_le hn
    rw [conditional.eq_def t c] at hn ⊢
    simp only [hg, hb, hf, he, ↓reduceIte] at hn ⊢
    have hfn := Nat.le_trans
      (f.reaches_advance.trans (Outcome.reaches_of_since_eq_ok he)).index_le hn
    have hdn := Nat.le_trans (Outcome.reaches_of_since_eq_ok hb).index_le hfn
    obtain ⟨d', k', hg', hd⟩ := ((guard_moved t (h.advance hc)).since c.reaches_advance
      c'.reaches_advance).exists_eq_ok hg hdn
    obtain ⟨f', m', hb', hfm⟩ := ((ih d' hd).since k.reaches k'.reaches).exists_eq_ok hb hfn
    obtain ⟨g', o', he', hgm⟩ := ((ih' f'.advance (hfm.advance hfn)).since m.advance.reaches
      m'.advance.reaches).exists_eq_ok he hn
    rw [conditional.eq_def t c']
    simp only [hg', hb', hfm.kind_eq hfn, hf, he', ↓reduceIte]
    rw [spanFrom_moved hgm hfm hfn o.passed_ne_nil, spanFrom_moved hgm h hc o.passed_ne_nil]
    exact .ok hgm
  case case11 =>
    intro c value d k hg body f m hb hf ih c' h hn
    have hc := Outcome.index_le hn
    rw [conditional.eq_def t c] at hn ⊢
    simp only [hg, hb, hf, ↓reduceIte] at hn ⊢
    have hdn := Nat.le_trans (Outcome.reaches_of_since_eq_ok hb).index_le hn
    obtain ⟨d', k', hg', hd⟩ := ((guard_moved t (h.advance hc)).since c.reaches_advance
      c'.reaches_advance).exists_eq_ok hg hdn
    obtain ⟨f', m', hb', hfm⟩ := ((ih d' hd).since k.reaches k'.reaches).exists_eq_ok hb hn
    rw [conditional.eq_def t c']
    simp only [hg', hb', hfm.kind_eq hn, hf, ↓reduceIte]
    rw [spanFrom_moved hfm h hc m.passed_ne_nil]
    exact .ok hfm
  -- A block, and the statements in it.
  case case12 =>
    intro c hk ih c' h hn
    have hc := Outcome.index_le hn
    rw [block.eq_def t c] at hn ⊢
    simp only [hk, ↓reduceDIte] at hn ⊢
    rw [block.eq_def t c']
    simp only [h.kind_eq hc, hk, ↓reduceDIte]
    exact ih c' c'.advance _ (h.advance hc)
      (Nat.le_trans (statements_reaches t c c.advance _).index_le hn) hn
  case case13 =>
    intro c hk c' h hn
    have hc := Outcome.index_le hn
    rw [block.eq_def t c, block.eq_def t c', h.mismatch_eq hc]
    simp only [h.kind_eq hc, hk, ↓reduceDIte]
    exact .error h
  case case14 =>
    intro start c k hk start' c' k' h hc hn
    rw [statements.eq_def t start c, statements.eq_def t start' c', h.kind_eq hc]
    simp only [hk, ↓reduceIte]
    exact .ok (h.advance hc)
  case case15 =>
    intro start c k hk he start' c' k' h hc hn
    rw [statements.eq_def t start c, statements.eq_def t start' c', h.kind_eq hc,
      h.unexpected_eq hc]
    simp only [he, reduceCtorEq, ↓reduceIte]
    exact .error h
  case case16 =>
    intro start c k hk he e d m hs ih start' c' k' h hc hn
    rw [statements.eq_def t start c] at hn ⊢
    simp only [hk, he, hs, ↓reduceIte] at hn ⊢
    obtain ⟨d', m', hs', hd⟩ := (ih c' h).exists_eq_error hs hn
    rw [statements.eq_def t start' c', h.kind_eq hc]
    simp only [hk, he, hs', ↓reduceIte]
    exact .error hd
  case case17 =>
    intro start c k hk he s d m hs ih ih' start' c' k' h hc hn
    rw [statements.eq_def t start c] at hn ⊢
    simp only [hk, he, hs, ↓reduceIte] at hn ⊢
    have hdn : d.index ≤ n := by
      rw [Outcome.stop_map] at hn
      exact Nat.le_trans (statements_reaches t start d (k.trans m)).index_le hn
    obtain ⟨d', m', hs', hd⟩ := (ih c' h).exists_eq_ok hs hdn
    rw [statements.eq_def t start' c', h.kind_eq hc]
    simp only [hk, he, hs', ↓reduceIte]
    exact (ih' start' d' (k'.trans m') hd hdn).map (fun _ ↦ rfl) hn

theorem block_moved (t : Dispatch) {c c' : TokenCursor} (h : c.MovedUpTo r n behind c') :
    (block t c).MovedUpTo r n behind (Body.relabel (Info.move r)) (block t c') :=
  (stmt_moved_all t).2.2.1 c c' h

/-! ### Rules and sheets -/

theorem selector_moved {c c' : TokenCursor} (h : c.MovedUpTo r n behind c') :
    (selector c).MovedUpTo r n behind id (selector c') := by
  intro hn
  have hc := Outcome.index_le hn
  have hd := h.advance hc
  rw [selector] at hn ⊢
  rw [selector]
  simp only [h.kind_eq hc, h.value_eq hc]
  split
  · exact .ok hd
  · rename_i hk
    rw [dif_neg hk] at hn
    split
    · rename_i hk
      have hdn : c.advance.index ≤ n := by
        rw [dif_pos hk] at hn
        dsimp only at hn
        split at hn
        · exact Nat.le_trans c.advance.reaches_advance.index_le hn
        · exact hn
      simp only [hd.kind_eq hdn, hd.value_eq hdn]
      split
      · exact .ok (hd.advance hdn)
      · rw [hd.mismatch_eq hdn]
        exact .error hd
    · split
      · exact .ok hd
      · rw [h.unexpected_eq hc]
        exact .error h

/-- Further selectors are read from their beginning on. -/
theorem moreSelectors_reaches (start c : TokenCursor) (h : start.Before c) :
    c.Reaches (moreSelectors start c h).stop := by
  rw [moreSelectors]
  split
  · split
    · rename_i e d k hs
      exact c.reaches_advance.trans k
    · rename_i s d k hs
      rw [Outcome.stop_map]
      exact (c.reaches_advance.trans k.reaches).trans (moreSelectors_reaches start d _)
  · exact .refl
termination_by c.ahead.length
decreasing_by exact (c.reaches_advance.trans_before ‹c.advance.Before _›).shorter

theorem moreSelectors_moved {start c : TokenCursor} (k : start.Before c) :
    ∀ {start' c' : TokenCursor} (k' : start'.Before c'), c.MovedUpTo r n behind c' → c.index ≤ n →
      (moreSelectors start c k).MovedUpTo r n behind id (moreSelectors start' c' k') := by
  induction c, k using moreSelectors.induct with
  | case1 c k hk e d m hs =>
    intro start' c' k' h hc hn
    rw [moreSelectors.eq_def start c] at hn ⊢
    simp only [hk, hs, ↓reduceIte] at hn ⊢
    obtain ⟨d', m', hs', hd⟩ := (selector_moved (h.advance hc)).exists_eq_error hs hn
    rw [moreSelectors.eq_def start' c', h.kind_eq hc]
    simp only [hk, hs', ↓reduceIte]
    exact .error hd
  | case2 c k hk s d m hs hd' ih =>
    intro start' c' k' h hc hn
    rw [moreSelectors.eq_def start c] at hn ⊢
    simp only [hk, hs, ↓reduceIte] at hn ⊢
    have hdn : d.index ≤ n := by
      rw [Outcome.stop_map] at hn
      exact Nat.le_trans (moreSelectors_reaches start d _).index_le hn
    obtain ⟨d', m', hs', hd⟩ := (selector_moved (h.advance hc)).exists_eq_ok hs hdn
    rw [moreSelectors.eq_def start' c', h.kind_eq hc]
    simp only [hk, hs', ↓reduceIte]
    exact (ih _ hd hdn).map (fun _ ↦ rfl) hn
  | case3 c k hk =>
    intro start' c' k' h hc hn
    rw [moreSelectors.eq_def start c, moreSelectors.eq_def start' c', h.kind_eq hc]
    simp only [hk, ↓reduceIte]
    exact .ok h

theorem rule_moved (t : Dispatch) {c c' : TokenCursor} (h : c.MovedUpTo r n behind c') :
    (rule t c).MovedUpTo r n behind (Rule.relabel (Info.move r)) (rule t c') := by
  intro hn
  have hc := Outcome.index_le hn
  rw [rule] at hn ⊢
  rw [rule]
  cases hs : selector c with
  | error e d k =>
    simp only [hs] at hn ⊢
    obtain ⟨d', k', hs', hd⟩ := (selector_moved h).exists_eq_error hs hn
    simp only [hs']
    exact .error hd
  | ok first d k =>
    simp only [hs] at hn ⊢
    have hle := (moreSelectors_reaches c d k).index_le
    cases hss : moreSelectors c d k with
    | error e f m =>
      simp only [hss] at hn hle ⊢
      have hdn := Nat.le_trans hle hn
      obtain ⟨d', k', hs', hd⟩ := (selector_moved h).exists_eq_ok hs hdn
      obtain ⟨f', m', hss', hf⟩ := (moreSelectors_moved k k' hd hdn).exists_eq_error hss hn
      simp only [hs', hss']
      exact .error hf
    | ok others f m =>
      simp only [hss] at hn hle ⊢
      cases hb : (block t f).since m.reaches with
      | error e g o =>
        simp only [hb] at hn ⊢
        have hfn := Nat.le_trans (Outcome.reaches_of_since_eq_error hb).index_le hn
        have hdn := Nat.le_trans hle hfn
        obtain ⟨d', k', hs', hd⟩ := (selector_moved h).exists_eq_ok hs hdn
        obtain ⟨f', m', hss', hf⟩ := (moreSelectors_moved k k' hd hdn).exists_eq_ok hss hfn
        obtain ⟨g', o', hb', hg⟩ :=
          ((block_moved t hf).since m.reaches m'.reaches).exists_eq_error hb hn
        simp only [hs', hss', hb']
        exact .error hg
      | ok body g o =>
        simp only [hb] at hn ⊢
        have hfn := Nat.le_trans (Outcome.reaches_of_since_eq_ok hb).index_le hn
        have hdn := Nat.le_trans hle hfn
        obtain ⟨d', k', hs', hd⟩ := (selector_moved h).exists_eq_ok hs hdn
        obtain ⟨f', m', hss', hf⟩ := (moreSelectors_moved k k' hd hdn).exists_eq_ok hss hfn
        obtain ⟨g', o', hb', hg⟩ :=
          ((block_moved t hf).since m.reaches m'.reaches).exists_eq_ok hb hn
        simp only [hs', hss', hb', spanFrom_moved hg h hc o.passed_ne_nil]
        exact .ok hg

/-- A rule that begins with a name is not refused before its second token. -/
theorem rule_reaches (t : Dispatch) {c : TokenCursor} (h : c.kind = .identifier) :
    c.advance.Reaches (rule t c).stop := by
  rw [rule]
  split
  · rename_i e d k hs
    rw [selector, dif_pos h] at hs
    cases hs
  · rename_i first d k hs
    rw [selector, dif_pos h] at hs
    cases hs
    have hmore := moreSelectors_reaches c c.advance k
    split
    · rename_i e f m hss
      rw [hss] at hmore
      exact hmore
    · rename_i others f m hss
      rw [hss] at hmore
      split
      · rename_i e g o hb
        exact hmore.trans (Outcome.reaches_of_since_eq_error hb)
      · rename_i body g o hb
        exact hmore.trans (Outcome.reaches_of_since_eq_ok hb)

theorem item_moved (t : Dispatch) {c c' : TokenCursor} (h : c.MovedUpTo r n behind c') :
    (item t c).MovedUpTo r n behind (Item.relabel (Info.move r)) (item t c') := by
  intro hn
  have hc := Outcome.index_le hn
  have hbegins : beginsAssignment c' = beginsAssignment c := by
    rw [beginsAssignment, beginsAssignment, h.kind_eq hc]
    by_cases hk : c.kind = .identifier
    · -- Whichever of the two is read, it goes past the second token.
      have hlt : c.index < (item t c).stop.index := by
        rw [item]
        split
        · rw [Outcome.stop_map]
          exact (assignment_reaches t c).index_lt_of_advance (by simp [hk])
        · rw [Outcome.stop_map]
          exact (rule_reaches t hk).index_lt_of_advance (by simp [hk])
      rw [h.peek_one_eq (Nat.le_trans hlt hn)]
    · simp [hk]
  rw [item] at hn ⊢
  rw [item, hbegins]
  split
  · rename_i hb
    rw [if_pos hb] at hn
    exact (assignment_moved t h).map (fun _ ↦ rfl) hn
  · rename_i hb
    rw [if_neg hb] at hn
    exact (rule_moved t h).map (fun _ ↦ rfl) hn

/-- Items are read from their beginning on. -/
theorem items_reaches (t : Dispatch) (c : TokenCursor) : c.Reaches (items t c).2 := by
  induction c using items.induct t with
  | case1 c hk =>
    rw [items, if_pos hk]
    exact .refl
  | case2 c hk e d m hi =>
    rw [items, if_neg hk]
    simp only [hi]
    exact m
  | case3 c hk i d m hi e f hr ih | case4 c hk i d m hi is f hr ih =>
    all_goals
      rw [items, if_neg hk]
      simp only [hi, hr]
      rw [hr] at ih
      exact m.reaches.trans ih

/-- From tokens that are moved up to where reading stops, the same items are read, moved, or the
same error, moved. -/
theorem items_movedUpTo (t : Dispatch) {c : TokenCursor} : ∀ {c' : TokenCursor},
    c.MovedUpTo r n behind c' → (items t c).2.index ≤ n →
      (items t c').1 = ((items t c).1.map (List.map (Item.relabel (Info.move r)))).mapError
          (Error.move r.start) ∧
        (items t c).2.MovedUpTo r n behind (items t c').2 := by
  induction c using items.induct t with
  | case1 c hk =>
    intro c' h hn
    have hc := Nat.le_trans (items_reaches t c).index_le hn
    rw [items.eq_def t c, items.eq_def t c', h.kind_eq hc]
    simp only [hk, ↓reduceIte]
    exact ⟨rfl, h⟩
  | case2 c hk e d m hi =>
    intro c' h hn
    have hc := Nat.le_trans (items_reaches t c).index_le hn
    rw [items.eq_def t c] at hn ⊢
    simp only [hk, hi, ↓reduceIte] at hn ⊢
    obtain ⟨d', m', hi', hd⟩ := (item_moved t h).exists_eq_error hi hn
    rw [items.eq_def t c', h.kind_eq hc]
    simp only [hk, hi', ↓reduceIte]
    exact ⟨rfl, hd⟩
  | case3 c hk i d m hi e f hr ih | case4 c hk i d m hi is f hr ih =>
    all_goals
      intro c' h hn
      have hc := Nat.le_trans (items_reaches t c).index_le hn
      have hle := (items_reaches t d).index_le
      rw [items.eq_def t c] at hn ⊢
      simp only [hk, hi, hr, ↓reduceIte] at hn hle ih ⊢
      have hdn := Nat.le_trans hle hn
      obtain ⟨d', m', hi', hd⟩ := (item_moved t h).exists_eq_ok hi hdn
      obtain ⟨hresult, hf⟩ := ih hd hn
      rw [items.eq_def t c', h.kind_eq hc]
      simp only [hk, hi', ↓reduceIte]
      generalize items t d' = result at hresult hf ⊢
      obtain ⟨result, stop⟩ := result
      obtain rfl := hresult
      exact ⟨rfl, hf⟩

/-- From moved tokens the same items are read, moved, or the same error, moved. -/
theorem items_moved (t : Dispatch) {c c' : TokenCursor} (h : c.Moved r c') :
    (items t c').1 = ((items t c).1.map (List.map (Item.relabel (Info.move r)))).mapError
        (Error.move r.start) ∧
      (items t c).2.Moved r (items t c').2 :=
  ⟨(items_movedUpTo t (h.upTo _) (Nat.le_refl _)).1,
    .of_upTo fun n hn ↦ (items_movedUpTo t (h.upTo n) hn).2⟩

end TypedCss.Grammar

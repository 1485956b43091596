import TypedCss.Grammar.Expr
import TypedCss.Proofs.Relabeling
import TypedCss.Proofs.Token.Passes

/-!
# Reading moved expressions

Readers look at the kinds and the texts of tokens and only pass on where they stand. So from moved
tokens they read the same tree with its nodes moved, or give the same error moved, and stop at the
same token. Each reader has one lemma of this form, here up to `expr_moved`.

Nor do readers look further than the token where they stop, or back at what was passed before they
began. So this holds already if the tokens in between are moved, whatever stands before and after
them: `c.MovedUpTo r n behind c'` says that the tokens at `c'` are those at `c` moved, as far as the
index `n`, and that `behind` was passed before them. `Outcome.MovedUpTo` says that what is read is
the same, moved, if the reader stops at an index up to `n`.
-/

namespace TypedCss

variable {r : Relocation} {n : Nat} {behind : List Token}

/-! ### Cursors at moved tokens -/

namespace TokenCursor

/-- `c.Moved r c'` says that `c'` stands in a list of moved tokens where `c` stands in the list
itself. -/
structure Moved (r : Relocation) (c c' : TokenCursor) : Prop where
  /-- The tokens behind are moved. -/
  passed : c'.passed = c.passed.map (Token.move r)
  /-- The tokens ahead are moved. -/
  ahead : c'.ahead = c.ahead.map (Token.move r)
  /-- The last token is moved. -/
  last : c'.last.toToken = c.last.toToken.move r

/-- `c.MovedUpTo r n behind c'` says that `c'` stands in a list of tokens where `c` stands in
another list, behind the tokens `behind`, and that the tokens up to the index `n` are moved. -/
structure MovedUpTo (r : Relocation) (n : Nat) (behind : List Token) (c c' : TokenCursor) :
    Prop where
  /-- The tokens that were passed are moved, and others were passed before them; those passed later
  come first. -/
  passed : c'.passed = c.passed.map (Token.move r) ++ behind
  /-- The tokens ahead are moved as far as the index, and one list ends there if the other does. -/
  ahead : ∀ i, c.index + i ≤ n → c'.ahead[i]? = c.ahead[i]?.map (Token.move r)
  /-- The last token is moved if it has the index or stands before it. -/
  last : c.index + c.ahead.length ≤ n → c'.last.toToken = c.last.toToken.move r

theorem passed_ne_nil_of_reaches {c d : TokenCursor} (h : c.Reaches d) :
    d.passed ≠ [] ∨ d = c := by
  induction h with
  | refl => exact .inr rfl
  | @step d _ ih =>
    obtain ⟨file, passed, ahead, last⟩ := d
    cases ahead with
    | nil => exact ih
    | cons t ts => exact .inl (List.cons_ne_nil _ _)

/-- A later cursor has a token behind it. -/
theorem Before.passed_ne_nil {c d : TokenCursor} (h : c.Before d) : d.passed ≠ [] := by
  refine (passed_ne_nil_of_reaches h.reaches).resolve_right ?_
  rintro rfl
  exact absurd h.shorter (Nat.lt_irrefl _)

namespace Moved

variable {c c' : TokenCursor}

theorem upTo (h : c.Moved r c') (n : Nat) : c.MovedUpTo r n [] c' :=
  ⟨by rw [h.passed, List.append_nil], fun i _ ↦ by rw [h.ahead, List.getElem?_map], fun _ ↦ h.last⟩

/-- Tokens are moved if they are moved as far as any index. -/
theorem of_upTo (h : ∀ n, c.index ≤ n → c.MovedUpTo r n [] c') : c.Moved r c' := by
  refine ⟨(h _ (Nat.le_refl _)).passed.trans (List.append_nil _), List.ext_getElem? fun i ↦ ?_, ?_⟩
  · rw [(h _ (Nat.le_add_right _ _)).ahead i (Nat.le_refl _), List.getElem?_map]
  · exact (h _ (Nat.le_add_right _ _)).last (Nat.le_refl _)

end Moved

namespace MovedUpTo

variable {c c' : TokenCursor} (h : c.MovedUpTo r n behind c')
include h

theorem index_eq : c'.index = c.index + behind.length := by
  rw [index, h.passed, List.length_append, List.length_map, index]

/-- Where a token was passed last, the stop of its span is moved. -/
theorem lastPosition_eq (hp : c.passed ≠ []) : c'.lastPosition = r.stop c.lastPosition := by
  rw [lastPosition, lastPosition, h.passed]
  cases hc : c.passed with
  | nil => exact absurd hc hp
  | cons t ts => rfl

section

variable (hn : c.index ≤ n)
include hn

/-- Both cursors are at the end of their tokens, or neither is. -/
theorem ahead_eq_nil_iff : c'.ahead = [] ↔ c.ahead = [] := by
  have h0 := h.ahead 0 hn
  rw [← List.head?_eq_getElem?, ← List.head?_eq_getElem?] at h0
  rw [← List.head?_eq_none_iff, h0, Option.map_eq_none_iff, List.head?_eq_none_iff]

/-- Both look at the same token, moved. -/
theorem current_eq : c'.current = c.current.move r := by
  have h0 := h.ahead 0 hn
  have hnil := h.ahead_eq_nil_iff hn
  rw [current, current]
  cases hc : c.ahead with
  | nil =>
    rw [hnil.2 hc]
    refine h.last ?_
    rw [hc]
    exact hn
  | cons t ts =>
    cases hc' : c'.ahead with
    | nil =>
      rw [hnil.1 hc'] at hc
      cases hc
    | cons t' ts' =>
      rw [hc, hc'] at h0
      exact Option.some.inj h0

theorem value_eq : c'.current.value = c.current.value := by
  rw [h.current_eq hn, Token.value_move]

theorem kind_eq : c'.kind = c.kind := by
  rw [kind, kind, h.current_eq hn, Token.kind_move]

theorem position_eq : c'.position = r.start c.position :=
  congrArg (·.span.start) (h.current_eq hn)

/-- The same token is refused, at the place where it was moved to. -/
theorem mismatch_eq : c'.mismatch = c.mismatch.move r.start := by
  rw [mismatch, h.value_eq hn, h.position_eq hn]
  rfl

theorem unexpected_eq (message : String) :
    c'.unexpected message = (c.unexpected message).move r.start := by
  rw [unexpected, h.value_eq hn, h.position_eq hn]
  rfl

/-- Going on from both keeps them at the same token. -/
theorem advance : c.advance.MovedUpTo r n behind c'.advance := by
  have hcurrent := h.current_eq hn
  have hnil := h.ahead_eq_nil_iff hn
  obtain ⟨file, passed, ahead, last⟩ := c
  obtain ⟨file', passed', ahead', last'⟩ := c'
  obtain rfl : passed' = _ := h.passed
  cases ahead with
  | nil =>
    obtain rfl : ahead' = [] := hnil.2 rfl
    exact h
  | cons t ts =>
    cases ahead' with
    | nil => exact absurd (hnil.1 rfl) (List.cons_ne_nil t ts)
    | cons t' ts' =>
      obtain rfl : t' = _ := hcurrent
      -- What is ahead now was ahead before, one place further on.
      refine ⟨rfl, fun i hi ↦ ?_, fun hl ↦ ?_⟩
      · have hi' : (t :: passed).length + i ≤ n := hi
        refine h.ahead (i + 1) ?_
        rw [List.length_cons] at hi'
        show passed.length + (i + 1) ≤ n
        omega
      · have hl' : (t :: passed).length + ts.length ≤ n := hl
        refine h.last ?_
        rw [List.length_cons] at hl'
        show passed.length + (t :: ts).length ≤ n
        rw [List.length_cons]
        omega

end

/-- The next token is the same if it is among those that were moved. -/
theorem peek_one_eq (hn : c.index + 1 ≤ n) : c'.peek 1 = c.peek 1 := by
  rw [peek, peek, h.ahead 1 hn]
  cases c.ahead[1]? <;> rfl

end MovedUpTo

end TokenCursor

/-! ### Outcomes -/

namespace Grammar

open TokenCursor (MovedUpTo)

namespace Outcome

variable {α β : Type} {b b' c c' : TokenCursor}

/-- A reader stops no earlier than it starts. -/
theorem index_le {o : Outcome α c} (h : o.stop.index ≤ n) : c.index ≤ n :=
  Nat.le_trans o.reaches_stop.index_le h

/-- Where a reader stops is reached from where it starts, also when this is seen from earlier. -/
theorem reaches_of_since_eq_ok {hb : b.Reaches c} {o : Outcome α c} {a : α} {d : TokenCursor}
    {k : b.Before d} (h : o.since hb = .ok a d k) : c.Reaches d := by
  have hstop := o.reaches_stop
  rw [← o.stop_since hb, h] at hstop
  exact hstop

theorem reaches_of_since_eq_error {hb : b.Reaches c} {o : Outcome α c} {e : Error}
    {d : TokenCursor} {k : b.Reaches d} (h : o.since hb = .error e d k) : c.Reaches d := by
  have hstop := o.reaches_stop
  rw [← o.stop_since hb, h] at hstop
  exact hstop

/-- The outcome of a reader of moved tokens: a value that `f` makes of the one without moving, or
the error moved. -/
inductive Moved (r : Relocation) (n : Nat) (behind : List Token) (f : α → α) :
    Outcome α c → Outcome α c' → Prop where
  /-- A value was read. -/
  | ok {a : α} {d d' : TokenCursor} {h : c.Before d} {h' : c'.Before d'}
    (hd : d.MovedUpTo r n behind d') : Moved r n behind f (.ok a d h) (.ok (f a) d' h')
  /-- An error arose. -/
  | error {e : Error} {d d' : TokenCursor} {h : c.Reaches d} {h' : c'.Reaches d'}
    (hd : d.MovedUpTo r n behind d') :
    Moved r n behind f (.error e d h) (.error (e.move r.start) d' h')

/-- What is read is moved if the reader stops at an index up to `n`. -/
def MovedUpTo (r : Relocation) (n : Nat) (behind : List Token) (f : α → α) (o : Outcome α c)
    (o' : Outcome α c') : Prop :=
  o.stop.index ≤ n → o.Moved r n behind f o'

namespace MovedUpTo

variable {f : α → α} {o : Outcome α c} {o' : Outcome α c'}

/-- Where one reader succeeds within what was moved, the other does. -/
theorem exists_eq_ok {a : α} {d : TokenCursor} {k : c.Before d} (h : MovedUpTo r n behind f o o')
    (ho : o = .ok a d k) (hn : d.index ≤ n) :
    ∃ d' k', o' = .ok (f a) d' k' ∧ d.MovedUpTo r n behind d' := by
  subst ho
  cases h hn with
  | ok hd => exact ⟨_, _, rfl, hd⟩

/-- Where one reader fails within what was moved, the other does. -/
theorem exists_eq_error {e : Error} {d : TokenCursor} {k : c.Reaches d}
    (h : MovedUpTo r n behind f o o') (ho : o = .error e d k) (hn : d.index ≤ n) :
    ∃ d' k', o' = .error (e.move r.start) d' k' ∧ d.MovedUpTo r n behind d' := by
  subst ho
  cases h hn with
  | error hd => exact ⟨_, _, rfl, hd⟩

theorem since (h : MovedUpTo r n behind f o o') (hb : b.Reaches c) (hb' : b'.Reaches c') :
    MovedUpTo r n behind f (o.since hb) (o'.since hb') := by
  intro hn
  rw [stop_since] at hn
  cases h hn with
  | ok hd => exact .ok hd
  | error hd => exact .error hd

theorem map {g : β → β} {p p' : α → β} (h : MovedUpTo r n behind f o o')
    (hp : ∀ a, p' (f a) = g (p a)) : MovedUpTo r n behind g (o.map p) (o'.map p') := by
  intro hn
  rw [stop_map] at hn
  cases h hn with
  | ok hd =>
    rw [Outcome.map, Outcome.map, hp]
    exact .ok hd
  | error hd => exact .error hd

end MovedUpTo

end Outcome

/-! ### Expressions -/

/-- The error of a numeral is moved with it. -/
theorem number_move (t : Token) : number (t.move r) = (number t).mapError (Error.move r.start) := by
  rw [number, number, Token.value_move]
  cases Decimal.read? t.value <;> rfl

theorem color_move (t : Token) : color (t.move r) = (color t).mapError (Error.move r.start) := by
  rw [color, color, Token.value_move]
  split <;> rfl

/-- The operand that a moved token is. -/
theorem operandOf?_move (t : Token) :
    operandOf? (t.move r) = (operandOf? t).map fun result ↦
      (result.map (Expr.relabel (Info.move r))).mapError (Error.move r.start) := by
  obtain ⟨kind, value, span⟩ := t
  cases kind with
  | number | pixel | percentage =>
    all_goals
      simp only [operandOf?, Token.kind_move, number_move, Option.map_some]
      cases number ⟨_, value, span⟩ <;> rfl
  | hash =>
    simp only [operandOf?, Token.kind_move, color_move, Option.map_some]
    cases color ⟨.hash, value, span⟩ <;> rfl
  | _ => rfl

/-- An operand of one token is moved with the token. -/
theorem primary_moved {c c' : TokenCursor} (h : c.MovedUpTo r n behind c') :
    (primary c).MovedUpTo r n behind (Expr.relabel (Info.move r)) (primary c') := by
  intro hn
  have hc := Outcome.index_le hn
  have hoperand := operandOf?_move (r := r) c.current
  rw [← h.current_eq hc] at hoperand
  rw [primary.eq_def c, primary.eq_def c']
  split <;> rename_i ho <;> split <;> rename_i ho' <;> rw [ho, ho'] at hoperand <;> cases hoperand
  · rw [h.unexpected_eq hc]
    exact .error h
  · exact .error h
  · exact .ok (h.advance hc)

/-- An operation covers its operands wherever they are. -/
theorem relabel_operation (op : Operator) (left right : Expr) :
    (operation op left right).relabel (Info.move r) =
      operation op (left.relabel (Info.move r)) (right.relabel (Info.move r)) := by
  simp only [operation, Expr.relabel, Expr.listRelabel, Expr.span, Expr.info_relabel]
  rfl

/-- The loop stops no earlier than it starts. -/
theorem operators_reaches (t : Dispatch) (power : BindingPower) (start : TokenCursor) (left : Expr)
    (c : TokenCursor) (h : start.Before c) :
    c.Reaches (operators t power start left c h).stop := by
  rw [operators]
  split
  · exact .refl
  · split
    · exact .refl
    · split
      · rename_i e d k hb
        exact k
      · rename_i whole d k hb
        exact k.reaches.trans (operators_reaches t power start whole d (h.trans k))
termination_by c.ahead.length
decreasing_by exact (‹c.Before _›).shorter

/-- What readers of expressions read from moved tokens. -/
theorem expr_moved_all (t : Dispatch) :
    (∀ power c c', c.MovedUpTo r n behind c' →
        (expr t power c).MovedUpTo r n behind (Expr.relabel (Info.move r)) (expr t power c')) ∧
      (∀ c c', c.MovedUpTo r n behind c' →
        (grouping t c).MovedUpTo r n behind (Expr.relabel (Info.move r)) (grouping t c')) ∧
      (∀ power start left c h start' c' (h' : start'.Before c'), c.MovedUpTo r n behind c' →
        c.index ≤ n → (operators t power start left c h).MovedUpTo r n behind
          (Expr.relabel (Info.move r))
          (operators t power start' (left.relabel (Info.move r)) c' h')) ∧
      ∀ left power c c', c.MovedUpTo r n behind c' →
        (binary t left power c).MovedUpTo r n behind (Expr.relabel (Info.move r))
          (binary t (left.relabel (Info.move r)) power c') := by
  apply expr.mutual_induct t
  -- An operand is read, or it is refused.
  case case1 =>
    intro power c ho c' h hn
    have hc := Outcome.index_le hn
    rw [expr.eq_def t power c, expr.eq_def t power c', h.kind_eq hc, h.unexpected_eq hc]
    simp only [ho]
    exact .error h
  case case2 =>
    intro power c ho e d k hp c' h hn
    have hc := Outcome.index_le hn
    rw [expr.eq_def t power c] at hn ⊢
    simp only [ho, hp] at hn ⊢
    obtain ⟨d', k', hp', hd⟩ := (primary_moved h).exists_eq_error hp hn
    rw [expr.eq_def t power c', h.kind_eq hc]
    simp only [ho, hp']
    exact .error hd
  case case3 =>
    intro power c ho left d k hp ih c' h hn
    have hc := Outcome.index_le hn
    rw [expr.eq_def t power c] at hn ⊢
    simp only [ho, hp] at hn ⊢
    have hdn := Nat.le_trans (operators_reaches t power c left d k).index_le hn
    obtain ⟨d', k', hp', hd⟩ := (primary_moved h).exists_eq_ok hp hdn
    rw [expr.eq_def t power c', h.kind_eq hc]
    simp only [ho, hp']
    exact ih c' d' k' hd hdn hn
  case case4 =>
    intro power c ho hnil c' h hn
    have hc := Outcome.index_le hn
    rw [expr.eq_def t power c, expr.eq_def t power c', h.kind_eq hc, h.unexpected_eq hc]
    simp only [ho, hnil, (h.ahead_eq_nil_iff hc).2 hnil]
    exact .error h
  case case5 =>
    intro power c ho hnil e d k hg ih c' h hn
    have hc := Outcome.index_le hn
    rw [expr.eq_def t power c] at hn ⊢
    simp only [ho, hnil, hg, ↓reduceDIte] at hn ⊢
    obtain ⟨d', k', hg', hd⟩ := (ih c' h).exists_eq_error hg hn
    rw [expr.eq_def t power c', h.kind_eq hc]
    simp only [ho, mt (h.ahead_eq_nil_iff hc).1 hnil, hg', ↓reduceDIte]
    exact .error hd
  case case6 =>
    intro power c ho hnil left d k hg ih ih' c' h hn
    have hc := Outcome.index_le hn
    rw [expr.eq_def t power c] at hn ⊢
    simp only [ho, hnil, hg, ↓reduceDIte] at hn ⊢
    have hdn := Nat.le_trans (operators_reaches t power c left d k).index_le hn
    obtain ⟨d', k', hg', hd⟩ := (ih c' h).exists_eq_ok hg hdn
    rw [expr.eq_def t power c', h.kind_eq hc]
    simp only [ho, mt (h.ahead_eq_nil_iff hc).1 hnil, hg', ↓reduceDIte]
    exact ih' c' d' k' hd hdn hn
  -- Between parentheses stands an expression.
  case case7 =>
    intro c e d k he ih c' h hn
    have hc := Outcome.index_le hn
    rw [grouping.eq_def t c] at hn ⊢
    simp only [he] at hn ⊢
    obtain ⟨d', k', he', hd⟩ := ((ih c'.advance (h.advance hc)).since c.reaches_advance
      c'.reaches_advance).exists_eq_error he hn
    rw [grouping.eq_def t c']
    simp only [he']
    exact .error hd
  case case8 =>
    intro c inner d k he hk ih c' h hn
    have hc := Outcome.index_le hn
    rw [grouping.eq_def t c] at hn ⊢
    simp only [he, hk, ↓reduceIte] at hn ⊢
    have hdn := Nat.le_trans d.reaches_advance.index_le hn
    obtain ⟨d', k', he', hd⟩ := ((ih c'.advance (h.advance hc)).since c.reaches_advance
      c'.reaches_advance).exists_eq_ok he hdn
    rw [grouping.eq_def t c']
    simp only [he', hd.kind_eq hdn, hk, ↓reduceIte]
    exact .ok (hd.advance hdn)
  case case9 =>
    intro c inner d k he hk ih c' h hn
    have hc := Outcome.index_le hn
    rw [grouping.eq_def t c] at hn ⊢
    simp only [he, hk, ↓reduceIte] at hn ⊢
    obtain ⟨d', k', he', hd⟩ := ((ih c'.advance (h.advance hc)).since c.reaches_advance
      c'.reaches_advance).exists_eq_ok he hn
    rw [grouping.eq_def t c']
    simp only [he', hd.kind_eq hn, hk, hd.mismatch_eq hn, ↓reduceIte]
    exact .error hd
  -- The loop goes on as long as it does without moving.
  case case10 =>
    intro power start left c k ho start' c' k' h hc hn
    rw [operators.eq_def t power start left c, operators.eq_def t power start' _ c', h.kind_eq hc]
    simp only [ho]
    exact .ok h
  case case11 =>
    intro power start left c k next ho hle start' c' k' h hc hn
    rw [operators.eq_def t power start left c, operators.eq_def t power start' _ c', h.kind_eq hc]
    simp only [ho, hle, ↓reduceIte]
    exact .ok h
  case case12 =>
    intro power start left c k next ho hle e d m hb ih start' c' k' h hc hn
    rw [operators.eq_def t power start left c] at hn ⊢
    simp only [ho, hle, hb, ↓reduceIte] at hn ⊢
    obtain ⟨d', m', hb', hd⟩ := (ih c' h).exists_eq_error hb hn
    rw [operators.eq_def t power start' _ c', h.kind_eq hc]
    simp only [ho, hle, hb', ↓reduceIte]
    exact .error hd
  case case13 =>
    intro power start left c k next ho hle whole d m hb ih ih' start' c' k' h hc hn
    rw [operators.eq_def t power start left c] at hn ⊢
    simp only [ho, hle, hb, ↓reduceIte] at hn ⊢
    have hdn := Nat.le_trans (operators_reaches t power start whole d (k.trans m)).index_le hn
    obtain ⟨d', m', hb', hd⟩ := (ih c' h).exists_eq_ok hb hdn
    rw [operators.eq_def t power start' _ c', h.kind_eq hc]
    simp only [ho, hle, hb', ↓reduceIte]
    exact ih' start' d' (k'.trans m') hd hdn hn
  -- An operator joins its operands.
  case case14 =>
    intro left power c ho c' h hn
    have hc := Outcome.index_le hn
    rw [binary.eq_def t left power c, binary.eq_def t _ power c', h.kind_eq hc, h.mismatch_eq hc]
    simp only [ho]
    exact .error (h.advance hc)
  case case15 =>
    intro left power c op ho ih c' h hn
    have hc := Outcome.index_le hn
    have hm := (ih c'.advance (h.advance hc)).since c.reaches_advance c'.reaches_advance
    rw [binary.eq_def t left power c] at hn ⊢
    simp only [ho] at hn ⊢
    rw [binary.eq_def t _ power c', h.kind_eq hc]
    simp only [ho]
    exact hm.map (fun right ↦ (relabel_operation op left right).symm) hn

/-- From moved tokens, the same expression is read, moved. -/
theorem expr_moved (t : Dispatch) (power : BindingPower) {c c' : TokenCursor}
    (h : c.MovedUpTo r n behind c') :
    (expr t power c).MovedUpTo r n behind (Expr.relabel (Info.move r)) (expr t power c') :=
  (expr_moved_all t).1 power c c' h

end Grammar

end TypedCss

import TypedCss.Parse
import TypedCss.Proofs.Grammar.Exact
import TypedCss.Proofs.Printing.Expr
import TypedCss.Proofs.Tree

/-!
# No parentheses too many

Every source that is read as an expression has all the tokens that the expression is printed with,
in their order (`Parse.kinds_sublist`). Those of the operands and operators stand in each source of
the expression; of the parentheses the statement says that the printer puts none that a source could
do without. The proof goes along the derivation of the source: a category that has no place for a
loose expression has it in parentheses (`Operand.kinds_sublist`).
-/

namespace TypedCss

open TypedCss.Derivation (Terminal Primary Sign Operand Factors Product Terms Expression)

namespace Expr

variable {e : Expr} {m n : Nat}

theorem kinds_sublist_enclose (enclosed : Bool) (ks : List TokenKind) :
    ks.Sublist (enclose enclosed ks) := by
  rw [enclose]
  split
  · exact (List.sublist_append_left ks _).cons _
  · exact List.Sublist.refl ks

theorem kindsAt_sublist_enclosed (n : Nat) (e : Expr) :
    (e.kindsAt n).Sublist (.openParen :: (e.kinds ++ [.closeParen])) := by
  rw [kindsAt, enclose]
  split
  · exact List.Sublist.refl _
  · exact (List.sublist_append_left _ _).cons _

/-- Where fewer expressions may stand, more are in parentheses. -/
theorem kindsAt_sublist (h : m ≤ n) (e : Expr) : (e.kindsAt m).Sublist (e.kindsAt n) := by
  by_cases hm : e.level < m
  · rw [kindsAt_of_lt hm, kindsAt_of_lt (Nat.lt_of_lt_of_le hm h)]
  · rw [kindsAt_of_le (Nat.not_lt.1 hm)]
    exact kinds_sublist_enclose _ _

theorem level_shape (e : Expr) : e.shape.level = e.level := by
  cases e <;> rfl

/-- The kinds do not depend on spans and diagnostics. -/
theorem kinds_shape (e : Expr) : e.shape.kinds = e.kinds := by
  induction e using Expr.pairInduction with
  | literal v info => rfl
  | reference name info => rfl
  | pair op left right info ihl ihr =>
    show (operation op [left.shape, right.shape] .null).kinds = _
    simp only [kinds, level_shape, ihl, ihr]
  | unpaired op operands info h =>
    rcases operands with _ | ⟨_, _ | ⟨_, _ | ⟨_, _⟩⟩⟩
    · rfl
    · rfl
    · exact absurd rfl h
    · rfl

theorem kinds_eq_of_shape_eq {e' : Expr} (h : e.shape = e'.shape) : e.kinds = e'.kinds := by
  rw [← kinds_shape e, h, kinds_shape]

end Expr

/-! ### Along a derivation -/

namespace Derivation

open Grammar (operation)
open Token (AllFit)

/-- An operand of one token is written with a token of its kind. -/
theorem kinds_primary (p : Primary) (h : AllFit [p.token]) : p.tree.kinds = [p.token.kind] := by
  have hf := h p.token (List.mem_singleton_self _)
  cases p with
  | variableName t => exact congrArg (fun k ↦ [k]) (variableKind_of_variableName hf)
  | identifier t => exact congrArg (fun k ↦ [k]) (variableKind_of_identifier hf)
  | number | pixel | percentage | color | yes | no => rfl

/-- The kinds of an operation, from those of its operands. -/
theorem kindsAt_operation_sublist {op : Operator} {left right : Expr} {ks ks' : List TokenKind}
    (hl : (left.kindsAt op.level).Sublist ks) (hr : (right.kindsAt (op.level + 1)).Sublist ks') :
    ((operation op left right).kindsAt op.level).Sublist (ks ++ op.kind :: ks') := by
  have hlevel : op.level ≤ (operation op left right).level := Nat.le_refl _
  rw [Expr.kindsAt_of_le hlevel, operation, Expr.kinds_operation]
  exact hl.append (hr.cons_cons _)

mutual

/-- An operand has the tokens of its tree, which is in parentheses if it is an operation. -/
theorem Operand.kinds_sublist (x : Operand) (h : AllFit x.tokens) :
    (x.tree.kindsAt 3).Sublist (x.tokens.map (·.kind)) := by
  match x with
  | .primary p =>
    have hlevel : 3 ≤ p.tree.level := by cases p <;> exact Nat.le_refl 3
    show (p.tree.kindsAt 3).Sublist [p.token.kind]
    rw [Expr.kindsAt_of_le hlevel, kinds_primary p h]
  | .group opening inner closing =>
    -- Whether the tree is printed in parentheses or not, the group has them.
    have hin := (List.forall_mem_append.1 (List.forall_mem_cons.1 h).2).1
    have hinner := inner.kinds_sublist hin
    rw [Expr.kindsAt_of_le inner.tree.level_pos] at hinner
    show (inner.tree.kindsAt 3).Sublist _
    rw [Operand.tokens, List.map_cons, List.map_append]
    exact (Expr.kindsAt_sublist_enclosed _ _).trans
      ((hinner.append (List.Sublist.refl _)).cons_cons _)

/-- Further operands add their tokens. -/
theorem Factors.kinds_sublist (fs : Factors) (h : AllFit fs.tokens) {left : Expr}
    {ks : List TokenKind} (hleft : (left.kindsAt 2).Sublist ks) :
    ((fs.join left).kindsAt 2).Sublist (ks ++ fs.tokens.map (·.kind)) := by
  match fs with
  | .nil =>
    rw [Factors.tokens, List.map_nil, List.append_nil]
    exact hleft
  | .cons star next others =>
    obtain ⟨hnext, hothers⟩ := List.forall_mem_append.1 (List.forall_mem_cons.1 h).2
    -- The product so far goes to the left, where a product stands without parentheses; an operand
    -- on the right is of the next level, where it does not.
    have hstep : ((operation .multiply left next.tree).kindsAt 2).Sublist _ :=
      kindsAt_operation_sublist hleft (next.kinds_sublist hnext)
    have hrest := others.kinds_sublist hothers hstep
    rw [Factors.tokens, List.map_cons, List.map_append]
    rwa [List.append_assoc] at hrest

/-- A product has the tokens of its tree, which is in parentheses if it is a sum. -/
theorem Product.kinds_sublist (x : Product) (h : AllFit x.tokens) :
    (x.tree.kindsAt 2).Sublist (x.tokens.map (·.kind)) := by
  match x with
  | .mk first others =>
    obtain ⟨hfirst, hothers⟩ := List.forall_mem_append.1 h
    have hleft := (first.tree.kindsAt_sublist (by decide : 2 ≤ 3)).trans
      (first.kinds_sublist hfirst)
    rw [Product.tokens, List.map_append]
    exact others.kinds_sublist hothers hleft

/-- Further products add their tokens. -/
theorem Terms.kinds_sublist (ts : Terms) (h : AllFit ts.tokens) {left : Expr}
    {ks : List TokenKind} (hleft : (left.kindsAt 1).Sublist ks) :
    ((ts.join left).kindsAt 1).Sublist (ks ++ ts.tokens.map (·.kind)) := by
  match ts with
  | .nil =>
    rw [Terms.tokens, List.map_nil, List.append_nil]
    exact hleft
  | .cons sign next others =>
    obtain ⟨hnext, hothers⟩ := List.forall_mem_append.1 (List.forall_mem_cons.1 h).2
    have hstep : ((operation sign.operator left next.tree).kindsAt 1).Sublist
        (ks ++ sign.token.kind :: next.tokens.map (·.kind)) := by
      cases sign
      all_goals exact kindsAt_operation_sublist hleft (next.kinds_sublist hnext)
    have hrest := others.kinds_sublist hothers hstep
    rw [Terms.tokens, List.map_cons, List.map_append]
    rwa [List.append_assoc] at hrest

/-- An expression has the tokens of its tree. -/
theorem Expression.kinds_sublist (x : Expression) (h : AllFit x.tokens) :
    (x.tree.kindsAt 1).Sublist (x.tokens.map (·.kind)) := by
  match x with
  | .mk first others =>
    obtain ⟨hfirst, hothers⟩ := List.forall_mem_append.1 h
    have hleft := (first.tree.kindsAt_sublist (by decide : 1 ≤ 2)).trans
      (first.kinds_sublist hfirst)
    rw [Expression.tokens, List.map_append]
    exact others.kinds_sublist hothers hleft

end

end Derivation

/-! ### Sources of an expression -/

/-- The reader of expressions gives the meaning of a derivation that it has passed. -/
theorem Grammar.exists_of_expr_eq_ok {c : TokenCursor} {e : Expr}
    (h : (Grammar.expr .standard .default c).result = .ok e) :
    ∃ (x : Expression) (d : TokenCursor), c.Passes x.tokens d ∧ x.tree = e := by
  have hm := expr_meets .default c
  cases ho : Grammar.expr .standard .default c with
  | error e' d k =>
    rw [ho] at h
    cases h
  | ok e' d k =>
    rw [ho] at h hm
    cases h
    obtain ⟨x, hx, he, -⟩ := hm
    exact ⟨x, d, hx, he⟩

namespace Parse

theorem expr_eq_result {source file : String} {words : List Token} {last : Token}
    (hlast : last.kind = .eof) (h : Token.tokenize source file = .ok (words ++ [last])) :
    Parse.expr source file =
      (Grammar.expr .standard .default ⟨file, [], words, ⟨last.value, last.span⟩⟩).result := by
  rw [Parse.expr, front, h, ← Grammar.ofTokens_append words file hlast]

/-- A source that is read as an expression has the tokens that the expression is printed with. -/
theorem kinds_sublist {source file : String} {tokens : List Token} {e e' : Expr}
    (ht : Token.tokenize source file = .ok tokens) (h : Parse.expr source file = .ok e')
    (hs : e'.shape = e.shape) :
    (e.kinds ++ [TokenKind.eof]).Sublist (tokens.map (·.kind)) := by
  obtain ⟨words, rfl, hw⟩ := (Token.splits_of_scan_eq_ok ht).exists_words
  rw [expr_eq_result rfl ht] at h
  obtain ⟨x, d, hx, rfl⟩ := Grammar.exists_of_expr_eq_ok h
  -- The expression need not take all of the source, so other tokens may follow.
  have hahead : words = x.tokens ++ d.ahead := hx.ahead
  have hfit := hw.mono (hahead ▸ List.subset_append_left x.tokens d.ahead)
  have hkinds := x.kinds_sublist hfit
  rw [Expr.kindsAt_of_le x.tree.level_pos, Expr.kinds_eq_of_shape_eq hs] at hkinds
  have hwords : (x.tokens.map (·.kind)).Sublist (words.map (·.kind)) := by
    rw [hahead, List.map_append]
    exact List.sublist_append_left _ _
  rw [List.map_append]
  exact (hkinds.trans hwords).append (List.Sublist.refl _)

/-- The text of a printable expression is read as that expression. -/
theorem expr_text {e : Expr} (h : e.IsPrintable) (file : String) :
    ∃ tokens e', Token.tokenize e.text file = .ok tokens ∧ Parse.expr e.text file = .ok e' ∧
      e'.shape = e.shape ∧ tokens.map (·.kind) = e.kinds ++ [.eof] := by
  obtain ⟨-, -, hspelled⟩ := Expr.spelled h
  rw [Expr.SpelledBy, Expr.textAt_of_le e.level_pos] at hspelled
  obtain ⟨_, last, ⟨x, rfl, hx, hkinds⟩, hlast, -, ht⟩ := hspelled.tokenize Text.breaks_nil
  -- Here all the tokens are passed, and the end of the source follows, which is no operator.
  have hp : TokenCursor.Passes ⟨file, [], x.tokens, ⟨last.value, last.span⟩⟩ x.tokens
      ⟨file, x.tokens.reverse, [], ⟨last.value, last.span⟩⟩ := ⟨by simp, by simp, rfl, rfl⟩
  obtain ⟨k, hread⟩ := Grammar.expression_complete x hp rfl
  refine ⟨_, x.tree, ht, ?_, hx, ?_⟩
  · rw [expr_eq_result hlast ht, hread]
    rfl
  · rw [List.map_append, hkinds, Expr.kindsAt_of_le e.level_pos, List.map_singleton, hlast]

/-- What it means that an expression is printed with exactly the parentheses that it needs. -/
structure EnclosedExactly (e : Expr) (file : String) : Prop where
  /-- There are enough: the text is read as the expression. -/
  enough : ∃ e', Parse.expr e.text file = .ok e' ∧ e'.shape = e.shape
  /-- None can be left out: a source that is read as the expression has the tokens of the text, in
  their order and maybe with others between them. -/
  least : ∀ tokens, Token.tokenize e.text file = .ok tokens →
    ∀ source file' tokens' e', Token.tokenize source file' = .ok tokens' →
      Parse.expr source file' = .ok e' → e'.shape = e.shape →
        (tokens.map (·.kind)).Sublist (tokens'.map (·.kind))

/-- A printable expression is printed with exactly the parentheses that it needs. -/
theorem enclosedExactly_of_isPrintable {e : Expr} (h : e.IsPrintable) (file : String) :
    EnclosedExactly e file := by
  obtain ⟨tokens, e', ht, he, hs, hkinds⟩ := expr_text h file
  refine ⟨⟨e', he, hs⟩, ?_⟩
  intro us hu source file' tokens' e'' ht' he' hs'
  obtain rfl := Except.ok.inj (ht.symm.trans hu)
  rw [hkinds]
  exact kinds_sublist ht' he' hs'

end Parse

end TypedCss

import TypedCss.Proofs.Evaluation.Normal
import TypedCss.Proofs.Evaluation.Values
import TypedCss.Proofs.Grammar.Nodes
import TypedCss.Proofs.Grammar.Source
import TypedCss.Proofs.Printing.Printable

/-!
# What is read can be printed

The words of a source are the words that printing asks for. So the selectors of a sheet that was
read can be printed (`Parse.selectors_isPrintable`), and its colors can
(`Parse.isSpelled_of_mem_literals`); evaluation makes no new ones of either. What is left of a sheet
has known properties. Only the numbers may stand in the way of printing what a source evaluates to
(`Parse.isPrintable_evaluate`): they can be too large, or below zero.
-/

namespace TypedCss

/-! ### Values -/

/-- A number is finite and has no sign. A color or a truth value is no number. -/
def Literal.IsPlain : Literal → Prop
  | .pixel x | .percentage x | .scalar x => Decimal.IsPlain x
  | .color _ | .bool _ => True

instance : ∀ v : Literal, Decidable v.IsPlain
  | .pixel x | .percentage x | .scalar x => inferInstanceAs (Decidable (Decimal.IsPlain x))
  | .color _ | .bool _ => inferInstanceAs (Decidable True)

/-- A color is written as in a source. Nothing is asked of the other values. -/
def Literal.IsSpelled : Literal → Prop
  | .color text => text.toList.head? = some '#' ∧ Derivation.IsColor text
  | _ => True

theorem Literal.IsSpelled.isPrintable {v : Literal} (h : v.IsSpelled) (hv : v.IsPlain) :
    v.IsPrintable := by
  cases v with
  | color text => exact h
  | bool b => trivial
  | pixel x | percentage x | scalar x => all_goals exact hv

/-- No operation gives a color. -/
theorem Operator.isSpelled_of_fold? {op : Operator} {l r v : Literal}
    (h : op.fold? l r = some v) : v.IsSpelled := by
  cases v with
  | color text => cases op <;> cases l <;> cases r <;> cases h
  | bool | pixel | percentage | scalar => all_goals trivial

/-! ### Words -/

theorem IsIdentifier.of_fits {name : String} (h : TokenKind.identifier.Fits name.toList) :
    IsIdentifier name := by
  obtain ⟨hname, hword⟩ := h
  rw [String.ofList_toList] at hword
  exact ⟨hname, hword⟩

namespace Derivation

open Token (AllFit)

theorem Primary.isSpelled (p : Primary) (h : AllFit [p.token]) :
    ∀ v ∈ p.tree.literals, v.IsSpelled := by
  cases p with
  | color t hc =>
    obtain ⟨part, hp, -⟩ := h t.token (List.mem_singleton_self _)
    refine List.forall_mem_singleton.2 ⟨?_, hc⟩
    show t.token.value.toList.head? = some '#'
    rw [hp]
    rfl
  | number | pixel | percentage | yes | no =>
    all_goals exact List.forall_mem_singleton.2 trivial
  | variableName | identifier => all_goals exact List.forall_mem_nil _

theorem isSpelled_operation {op : Operator} {left right : Expr}
    (hl : ∀ v ∈ left.literals, v.IsSpelled) (hr : ∀ v ∈ right.literals, v.IsSpelled) :
    ∀ v ∈ (Grammar.operation op left right).literals, v.IsSpelled := by
  simp only [Grammar.operation, Expr.literals, Expr.listLiterals, List.append_nil]
  exact List.forall_mem_append.2 ⟨hl, hr⟩

mutual

theorem Operand.isSpelled (x : Operand) (h : AllFit x.tokens) :
    ∀ v ∈ x.tree.literals, v.IsSpelled := by
  match x with
  | .primary p => exact p.isSpelled h
  | .group opening inner closing =>
    exact Expression.isSpelled inner (List.forall_mem_append.1 (List.forall_mem_cons.1 h).2).1

theorem Factors.isSpelled (fs : Factors) (h : AllFit fs.tokens) {left : Expr}
    (hl : ∀ v ∈ left.literals, v.IsSpelled) : ∀ v ∈ (fs.join left).literals, v.IsSpelled := by
  match fs with
  | .nil => exact hl
  | .cons star next others =>
    obtain ⟨hnext, hothers⟩ := List.forall_mem_append.1 (List.forall_mem_cons.1 h).2
    exact Factors.isSpelled others hothers
      (isSpelled_operation hl (Operand.isSpelled next hnext))

theorem Product.isSpelled (x : Product) (h : AllFit x.tokens) :
    ∀ v ∈ x.tree.literals, v.IsSpelled := by
  match x with
  | .mk first others =>
    obtain ⟨hfirst, hothers⟩ := List.forall_mem_append.1 h
    exact Factors.isSpelled others hothers (Operand.isSpelled first hfirst)

theorem Terms.isSpelled (xs : Terms) (h : AllFit xs.tokens) {left : Expr}
    (hl : ∀ v ∈ left.literals, v.IsSpelled) : ∀ v ∈ (xs.join left).literals, v.IsSpelled := by
  match xs with
  | .nil => exact hl
  | .cons sign next others =>
    obtain ⟨hnext, hothers⟩ := List.forall_mem_append.1 (List.forall_mem_cons.1 h).2
    exact Terms.isSpelled others hothers
      (isSpelled_operation hl (Product.isSpelled next hnext))

/-- The colors in the meaning of an expression are written as in a source. -/
theorem Expression.isSpelled (x : Expression) (h : AllFit x.tokens) :
    ∀ v ∈ x.tree.literals, v.IsSpelled := by
  match x with
  | .mk first others =>
    obtain ⟨hfirst, hothers⟩ := List.forall_mem_append.1 h
    exact Terms.isSpelled others hothers (Product.isSpelled first hfirst)

end

/-- The meaning of a selector can be printed. -/
theorem Selector.isPrintable (x : Selector) (h : AllFit x.tokens) : x.tree.IsPrintable := by
  cases x with
  | tag name => exact .of_fits (h name.token (by simp [tokens]))
  | «class» dot name => exact .of_fits (h name.token (by simp [tokens]))
  | id hash =>
    obtain ⟨part, htext, hne, hpart⟩ := h hash.token (by simp [tokens])
    have hname : hash.value.toList.dropWhile (· == '#') = part := by
      rw [show hash.value.toList = '#' :: part from htext, List.dropWhile_cons_of_pos rfl,
        Text.dropWhile_mark hpart]
    show (String.ofList (hash.value.toList.dropWhile (· == '#'))).toList ≠ [] ∧ _
    rw [hname, String.toList_ofList]
    exact ⟨hne, hpart⟩

/-- A rule that was read applies to something, and its selectors can be printed. -/
theorem Rule.selectors_isPrintable (x : Rule) (h : AllFit x.tokens) :
    x.tree.selectors ≠ [] ∧ ∀ s ∈ x.tree.selectors, s.IsPrintable := by
  obtain ⟨hfirst, hrest⟩ := List.forall_mem_append.1 h
  have hothers : AllFit (selectorsTokens x.others) := (List.forall_mem_append.1 hrest).1
  refine ⟨List.cons_ne_nil _ _, List.forall_mem_cons.2 ⟨x.first.isPrintable hfirst, ?_⟩⟩
  refine List.forall_mem_map.2 fun y hy ↦ y.2.isPrintable (hothers.mono fun t ht ↦ ?_)
  exact List.mem_flatMap.2 ⟨y, hy, List.mem_cons_of_mem _ ht⟩

end Derivation

/-! ### Sheets -/

section

variable {source file : String} {s : Sheet} (h : Parse.sheet source file = .ok s)
include h

/-- The selectors of a sheet that was read can be printed. -/
theorem Parse.selectors_isPrintable :
    ∀ ss ∈ s.rules.map Rule.selectors, ss ≠ [] ∧ ∀ t ∈ ss, t.IsPrintable := by
  obtain ⟨x, last, ht, rfl⟩ := sheet_eq_ok_iff.1 h
  have hx := (Token.allFit_of_tokenize ht).2
  refine List.forall_mem_map.2 fun r hr ↦ ?_
  obtain ⟨_, hm, hr⟩ := List.mem_filterMap.1 hr
  obtain ⟨i, hi, rfl⟩ := List.mem_map.1 hm
  cases i with
  | assignment a => cases hr
  | rule y =>
    cases hr
    exact y.selectors_isPrintable (hx.mono fun t ht ↦ List.mem_flatMap.2 ⟨_, hi, ht⟩)

/-- The colors of a sheet that was read are written as in a source. -/
theorem Parse.isSpelled_of_mem_literals : ∀ v ∈ s.literals, v.IsSpelled := by
  obtain ⟨x, last, ht, rfl⟩ := sheet_eq_ok_iff.1 h
  have hx := (Token.allFit_of_tokenize ht).2
  refine List.forall_mem_flatMap.2 fun e he ↦ ?_
  obtain ⟨y, rfl, hsub⟩ := x.exists_expression file e he
  exact y.isSpelled (hx.mono hsub)

end

/-- The known properties have names that can be printed. -/
theorem PropertyKind.isIdentifier_of_ofName? {property : String} {kind : PropertyKind}
    (h : ofName? property = some kind) : IsIdentifier property := by
  unfold ofName? at h
  split at h
  all_goals first | decide | cases h

/-- A normal sheet can be printed if its selectors and its values can. -/
theorem Sheet.IsNormal.isPrintable {s : Sheet} (h : s.IsNormal)
    (hs : ∀ ss ∈ s.rules.map Rule.selectors, ss ≠ [] ∧ ∀ t ∈ ss, t.IsPrintable)
    (hv : ∀ v ∈ s.literals, v.IsPrintable) : s.IsPrintable := by
  intro i hi
  obtain ⟨r, rfl, hbody⟩ := (h i hi).exists_eq
  obtain ⟨hne, hselectors⟩ :=
    List.forall_mem_map.1 hs r (List.mem_filterMap.2 ⟨.rule r, hi, rfl⟩)
  refine ⟨hne, hselectors, fun stmt hstmt ↦ ?_⟩
  obtain ⟨d, rfl, kind, v, info, hk, hd, -⟩ := (hbody stmt hstmt).exists_eq
  refine ⟨PropertyKind.isIdentifier_of_ofName? hk, ?_⟩
  have hmem : v ∈ d.value.literals := by
    rw [hd]
    exact List.mem_singleton_self v
  rw [hd]
  exact .literal (hv v (mem_literals hi hstmt hmem))

/-- What a source evaluates to can be printed if its numbers can. -/
theorem Parse.isPrintable_evaluate {source file : String} {s t : Sheet}
    (h : Parse.sheet source file = .ok s) (hs : s.check.1.hasErrors = false)
    (ht : s.evaluate = .ok t) (hv : ∀ v ∈ t.literals, v.IsPlain) : t.IsPrintable := by
  refine (Sheet.isNormal_of_evaluate hs ht).isPrintable ?_ fun v hvt ↦ ?_
  · rw [Sheet.selectors_evaluate ht]
    exact selectors_isPrintable h
  · have hspelled := Sheet.forall_literals_evaluate Operator.isSpelled_of_fold?
      (isSpelled_of_mem_literals h) ht v hvt
    exact hspelled.isPrintable (hv v hvt)

end TypedCss

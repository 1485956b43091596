import TypedCss.Proofs.Grammar.Soundness.Expr
import TypedCss.Proofs.Token.Scan

/-!
# What was read of an expression can be completed

Where a reader gives an error, the tokens that it has passed begin a member of the category that it
reads, and tokens that fit their kinds complete it. So no reader passes a token that could not
stand where it stands. `Outcome.Breaks` says this of one outcome, and each reader has one lemma of
this form, here up to `expr_breaks`.

The completions are short: a missing value is `true`, a missing block is empty, and what is open is
closed. What a reader passed successfully before the error is a derivation, by the lemmas on what
readers read.
-/

namespace TypedCss.Grammar

open TypedCss.Derivation
open Token (AllFit)

/-! ### Beginnings -/

/-- `Begins tokensOf ts` says that the tokens `ts` begin those of a member of a category, and that
the others of its tokens fit their kinds. -/
def Begins {X : Type} (tokensOf : X → List Token) (ts : List Token) : Prop :=
  ∃ (x : X) (more : List Token), AllFit more ∧ tokensOf x = ts ++ more

namespace Begins

variable {X Y : Type} {tokensOf : X → List Token} {tokensOf' : Y → List Token} {ts : List Token}

/-- No tokens begin what is there to be read. -/
theorem nil (x : X) (h : AllFit (tokensOf x)) : Begins tokensOf [] := ⟨x, _, h, rfl⟩

/-- Where a category is part of another one, a beginning has tokens before it, and other tokens
follow the completion. -/
theorem wrap (build : X → Y) (before after : List Token) (hafter : AllFit after)
    (hbuild : ∀ x, tokensOf' (build x) = before ++ (tokensOf x ++ after))
    (h : Begins tokensOf ts) : Begins tokensOf' (before ++ ts) := by
  obtain ⟨x, more, hmore, hx⟩ := h
  refine ⟨build x, more ++ after, List.forall_mem_append.2 ⟨hmore, hafter⟩, ?_⟩
  rw [hbuild, hx]
  simp only [List.append_assoc]

/-- The same where nothing follows. -/
theorem wrap_last (build : X → Y) (before : List Token)
    (hbuild : ∀ x, tokensOf' (build x) = before ++ tokensOf x) (h : Begins tokensOf ts) :
    Begins tokensOf' (before ++ ts) :=
  h.wrap build before [] (List.forall_mem_nil _) fun x ↦ by rw [hbuild, List.append_nil]

end Begins

namespace Outcome

variable {α β : Type} {b c d : TokenCursor} {P Q : List Token → Prop} {o : Outcome α c}

/-- If a reader gives an error, then `P` holds of the tokens from `b` to where it arose. -/
def Breaks (b : TokenCursor) (P : List Token → Prop) : Outcome α c → Prop
  | ok _ _ _ => True
  | error _ d _ => ∃ ts, b.Passes ts d ∧ P ts

@[simp] theorem breaks_since {e : TokenCursor} {h : e.Reaches c} :
    (o.since h).Breaks b P ↔ o.Breaks b P := by
  cases o <;> rfl

@[simp] theorem breaks_map {f : α → β} : (o.map f).Breaks b P ↔ o.Breaks b P := by
  cases o <;> rfl

/-- What holds of the tokens since one cursor says something of those since an earlier one. -/
theorem Breaks.after {before : List Token} (h : o.Breaks d P) (hb : b.Passes before d)
    (hpq : ∀ ts, P ts → Q (before ++ ts)) : o.Breaks b Q := by
  cases o with
  | ok _ _ _ => trivial
  | error e f k =>
    obtain ⟨ts, hts, hp⟩ := h
    exact ⟨before ++ ts, hb.append hts, hpq ts hp⟩

/-- The same where a reader passes on the error of one that it calls. -/
theorem Breaks.fail {before : List Token} {e : Error} {f : TokenCursor} {k : c.Reaches f}
    {c' : TokenCursor} {k' : c'.Reaches f} (h : o.Breaks d P) (ho : o = .error e f k)
    (hb : b.Passes before d) (hpq : ∀ ts, P ts → Q (before ++ ts)) :
    (error e f k' : Outcome β c').Breaks b Q := by
  subst ho
  obtain ⟨ts, hts, hp⟩ := h
  exact ⟨before ++ ts, hb.append hts, hpq ts hp⟩

theorem Breaks.mono (h : o.Breaks b P) (hpq : ∀ ts, P ts → Q ts) : o.Breaks b Q :=
  h.after (.nil b) hpq

end Outcome

/-! ### The shortest completions -/

/-- A terminal of a completion stands nowhere. -/
def terminal (kind : TokenKind) (value : String) : Terminal kind := ⟨value, .null⟩

/-- An operand that can stand wherever one is missing. -/
def someOperand : Operand := .primary (.yes (terminal .trueWord "true"))

/-- A value that can stand wherever one is missing. -/
def someValue : Expression := .mk (.mk someOperand .nil) .nil

/-- A selector that can stand wherever one is missing. -/
def someSelector : Derivation.Selector := .tag (terminal .identifier "a")

/-- A block that can stand wherever one is missing. -/
def someBlock : Block := .mk (terminal .openCurly "\x7b") .nil (terminal .closeCurly "\x7d")

theorem allFit_someOperand : AllFit someOperand.tokens :=
  List.forall_mem_singleton.2 rfl

theorem allFit_someValue : AllFit someValue.tokens :=
  List.forall_mem_singleton.2 rfl

theorem allFit_someSelector : AllFit someSelector.tokens :=
  List.forall_mem_singleton.2 ⟨⟨'a', [], rfl, rfl, List.forall_mem_nil _⟩, rfl⟩

theorem allFit_someBlock : AllFit someBlock.tokens :=
  List.forall_mem_cons.2 ⟨rfl, List.forall_mem_singleton.2 rfl⟩

/-! ### Expressions -/

/-- What the tokens that were passed begin, with each power. -/
def BeginsRead : BindingPower → List Token → Prop
  | .default => Begins Expression.tokens
  | .additive => Begins Product.tokens
  | .multiplicative | .primary => Begins Operand.tokens

/-- The tokens of all that can follow an operand in an expression. -/
def tailTokens (tail : Factors × Terms) : List Token := tail.1.tokens ++ tail.2.tokens

/-- What the tokens begin that were passed after an operand, with each power. -/
def BeginsGoingOn : BindingPower → List Token → Prop
  | .default => Begins tailTokens
  | .additive => Begins Factors.tokens
  | .multiplicative | .primary => fun _ ↦ False

/-- What begins an operand begins what is read with each power. -/
theorem BeginsRead.of_operand {ts : List Token} (h : Begins Operand.tokens ts)
    (power : BindingPower) : BeginsRead power ts := by
  cases power with
  | default =>
    refine h.wrap_last (fun x ↦ Expression.mk (.mk x .nil) .nil) [] fun x ↦ ?_
    simp [Expression.tokens, Product.tokens, Factors.tokens, Terms.tokens]
  | additive =>
    refine h.wrap_last (Product.mk · .nil) [] fun x ↦ ?_
    simp [Product.tokens, Factors.tokens]
  | multiplicative | primary => exact h

/-- Factors can be added to those of a product. -/
theorem exists_factors_append (fs gs : Factors) :
    ∃ hs : Factors, hs.tokens = fs.tokens ++ gs.tokens := by
  match fs with
  | .nil => exact ⟨gs, rfl⟩
  | .cons star x others =>
    obtain ⟨hs, hhs⟩ := exists_factors_append others gs
    refine ⟨.cons star x hs, ?_⟩
    simp [Factors.tokens, hhs]

namespace BeginsGoingOn

variable {ts : List Token} {power : BindingPower}

/-- What goes on after an operand begins, with it, what is read with each power. -/
theorem read (x : Operand) (h : BeginsGoingOn power ts) : BeginsRead power (x.tokens ++ ts) := by
  cases power with
  | default =>
    refine Begins.wrap_last (fun tail ↦ Expression.mk (.mk x tail.1) tail.2) x.tokens
      (fun tail ↦ ?_) h
    simp [Expression.tokens, Product.tokens, tailTokens]
  | additive => exact Begins.wrap_last (Product.mk x) x.tokens (fun fs ↦ rfl) h
  | multiplicative | primary => exact h.elim

/-- A sign with the beginning of a product goes on. -/
theorem sign (s : Sign) (h : Begins Product.tokens ts) :
    BeginsGoingOn .default (s.token :: ts) := by
  refine h.wrap_last (fun x ↦ (Factors.nil, Terms.cons s x .nil)) [s.token] fun x ↦ ?_
  simp [tailTokens, Factors.tokens, Terms.tokens]

/-- After a sign with a product, anything that goes on may follow. -/
theorem cons_sign (s : Sign) (x : Product) (h : BeginsGoingOn .default ts) :
    BeginsGoingOn .default (s.token :: (x.tokens ++ ts)) := by
  -- The factors that follow are further factors of the product.
  obtain ⟨⟨fs, us⟩, more, hmore, htail⟩ := h
  obtain ⟨first, others⟩ := x
  obtain ⟨gs, hgs⟩ := exists_factors_append others fs
  refine ⟨(.nil, .cons s (.mk first gs) us), more, hmore, ?_⟩
  have htail : fs.tokens ++ us.tokens = ts ++ more := htail
  simp [tailTokens, Factors.tokens, Terms.tokens, Product.tokens, hgs, htail]

/-- A star with the beginning of an operand goes on with every power looser than that of a star. -/
theorem star (t : Terminal .star) (hpower : power.rank < BindingPower.multiplicative.rank)
    (h : Begins Operand.tokens ts) : BeginsGoingOn power (t.token :: ts) := by
  cases power with
  | default =>
    refine h.wrap_last (fun x ↦ (Factors.cons t x .nil, Terms.nil)) [t.token] fun x ↦ ?_
    simp [tailTokens, Factors.tokens, Terms.tokens]
  | additive =>
    refine h.wrap_last (Factors.cons t · .nil) [t.token] fun x ↦ ?_
    simp [Factors.tokens]
  | multiplicative | primary => exact absurd hpower (by decide)

/-- After a star with an operand, anything that goes on may follow. -/
theorem cons_star (t : Terminal .star) (x : Operand) (h : BeginsGoingOn power ts) :
    BeginsGoingOn power (t.token :: (x.tokens ++ ts)) := by
  cases power with
  | default =>
    refine Begins.wrap_last (fun tail ↦ (Factors.cons t x tail.1, tail.2)) (t.token :: x.tokens)
      (fun tail ↦ ?_) h
    simp [tailTokens, Factors.tokens]
  | additive =>
    exact Begins.wrap_last (Factors.cons t x) (t.token :: x.tokens) (fun fs ↦ rfl) h
  | multiplicative | primary => exact h.elim

end BeginsGoingOn

/-- An operand that is refused was not begun. -/
theorem primary_breaks (c : TokenCursor) : (primary c).Breaks c (Begins Operand.tokens) := by
  have hnil : Begins Operand.tokens [] := .nil someOperand allFit_someOperand
  rw [primary]
  split
  · exact ⟨[], .nil c, hnil⟩
  · exact ⟨[], .nil c, hnil⟩
  · trivial

/-- What the readers of expressions have passed where they give an error. -/
theorem expr_breaks_all :
    (∀ power c, (expr .standard power c).Breaks c (BeginsRead power)) ∧
      (∀ c, c.kind = .openParen → (grouping .standard c).Breaks c (Begins Operand.tokens)) ∧
      (∀ power start left c h, (operators .standard power start left c h).Breaks c
        (BeginsGoingOn power)) ∧
      ∀ left power c, ∀ op, operatorOf? c.kind = some op →
        (binary .standard left power c).Breaks c.advance (BeginsRead power) := by
  have hpower {power : BindingPower} (h : ¬BindingPower.additive.rank ≤ power.rank) :
      power = .default := by
    cases power <;> first | rfl | exact absurd (by decide) h
  apply expr.mutual_induct .standard
  -- An error is about the first operand, or about what goes on after it.
  case case1 =>
    intro power c h
    rw [expr]
    simp only [h]
    exact ⟨[], .nil c, .of_operand (.nil someOperand allFit_someOperand) power⟩
  case case2 =>
    intro power c h e d k hp
    rw [expr]
    simp only [h, hp]
    exact (primary_breaks c).fail hp (.nil c) fun ts hts ↦ .of_operand hts power
  case case3 =>
    intro power c h left d k hp ih
    obtain ⟨p, hpass, rfl⟩ := (primary_meets c).of_eq_ok hp
    rw [expr]
    simp only [h, hp]
    exact ih.after hpass fun ts hts ↦ hts.read (.primary p)
  case case4 =>
    intro power c h hc
    rw [expr]
    simp only [h, hc]
    exact ⟨[], .nil c, .of_operand (.nil someOperand allFit_someOperand) power⟩
  case case5 =>
    intro power c h hc e d k hg ih
    rw [expr]
    simp only [h, hc, hg, ↓reduceDIte]
    exact (ih (kind_of_operand_grouping h)).fail hg (.nil c) fun ts hts ↦ .of_operand hts power
  case case6 =>
    intro power c h hc left d k hg ih ih'
    obtain ⟨x, hx, rfl⟩ := (expr_meets_all.2.1 c (kind_of_operand_grouping h)).of_eq_ok hg
    rw [expr]
    simp only [h, hc, hg, ↓reduceDIte]
    exact ih'.after hx fun ts hts ↦ hts.read x
  -- A parenthesis that is open is closed.
  case case7 =>
    intro c e d k he ih hk
    obtain ⟨opening, -, ho⟩ := c.exists_passes_terminal hk (by decide)
    rw [grouping]
    simp only [he]
    refine (Outcome.breaks_since.2 ih).fail he ho fun ts hts ↦ ?_
    exact Begins.wrap (Operand.group opening · (terminal .closeParen ")")) [opening.token]
      [(terminal .closeParen ")").token] (List.forall_mem_singleton.2 rfl) (fun x ↦ rfl) hts
  case case8 =>
    intro c inner d k he hd ih hk
    rw [grouping]
    simp only [he, hd, ↓reduceIte]
    trivial
  case case9 =>
    intro c inner d k he hd ih hk
    obtain ⟨opening, -, ho⟩ := c.exists_passes_terminal hk (by decide)
    obtain ⟨x, hx, rfl, -⟩ := (Outcome.meets_since.2 (expr_meets .default c.advance)).of_eq_ok he
    rw [grouping]
    simp only [he, hd, ↓reduceIte]
    exact ⟨opening.token :: x.tokens, ho.append hx,
      .group opening x (terminal .closeParen ")"), [(terminal .closeParen ")").token],
      List.forall_mem_singleton.2 rfl, rfl⟩
  -- The loop itself refuses nothing.
  case case10 =>
    intro power start left c h hn
    rw [operators]
    simp only [hn]
    trivial
  case case11 =>
    intro power start left c h next hn hle
    rw [operators]
    simp only [hn, hle, ↓reduceIte]
    trivial
  case case12 =>
    intro power start left c h next hn hle e d k hb ih
    rw [operators]
    simp only [hn, hle, hb, ↓reduceIte]
    rcases operator_standard_cases hn with ⟨rfl, sign, hop, hs⟩ | ⟨rfl, star, hop, hs⟩
    · obtain rfl := hpower hle
      exact (ih _ hop).fail hb hs fun ts hts ↦ .sign sign hts
    · exact (ih _ hop).fail hb hs fun ts hts ↦ .star star (Nat.lt_of_not_le hle) hts
  case case13 =>
    intro power start left c h next hn hle whole d k hb ih ih'
    rw [operators]
    simp only [hn, hle, hb, ↓reduceIte]
    rcases operator_standard_cases hn with ⟨rfl, sign, hop, hs⟩ | ⟨rfl, star, hop, hs⟩
    · obtain rfl := hpower hle
      obtain ⟨right, ⟨x, hx, rfl, -⟩, rfl⟩ :=
        (expr_meets_all.2.2.2 left .additive c _ hop).of_eq_ok hb
      refine ih'.after (hs.append hx) fun ts hts ↦ ?_
      have hgoes := BeginsGoingOn.cons_sign sign x hts
      rwa [← List.cons_append] at hgoes
    · obtain ⟨right, ⟨x, hx, rfl⟩, rfl⟩ :=
        (expr_meets_all.2.2.2 left .multiplicative c _ hop).of_eq_ok hb
      refine ih'.after (hs.append hx) fun ts hts ↦ ?_
      have hgoes := BeginsGoingOn.cons_star star x hts
      rwa [← List.cons_append] at hgoes
  -- An operator was passed before its right operand.
  case case14 =>
    intro left power c hn op hop
    rw [hn] at hop
    cases hop
  case case15 =>
    intro left power c op hop ih op' hop'
    rw [binary]
    simp only [hop, Outcome.breaks_map, Outcome.breaks_since]
    exact ih

theorem expr_breaks (power : BindingPower) (c : TokenCursor) :
    (expr .standard power c).Breaks c (BeginsRead power) :=
  expr_breaks_all.1 power c

end TypedCss.Grammar

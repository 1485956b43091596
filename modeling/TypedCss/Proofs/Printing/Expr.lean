import TypedCss.Proofs.Decimal.RoundTrip
import TypedCss.Proofs.Printing.Printable
import TypedCss.Proofs.Printing.Spelling

/-!
# Printed expressions

The text of a printable expression is spelled by the grammar's categories (`Expr.spelled`): as a sum
as it stands, as a product if it is no sum, and as an operand if it is no operation. Where it does
not stand as it is, the printer has put parentheses around it. So the text of an operation is made
of those of its operands in the places that the grammar has for them, and `Expr.kinds` says which
kinds of tokens the text has.
-/

namespace TypedCss

open TypedCss.Derivation (Terminal Primary Sign Operand Factors Product Terms Expression)

/-! ### The kinds of the printed tokens -/

/-- The kind of the token that a value is written as. -/
def Literal.kind : Literal → TokenKind
  | .color _ => .hash
  | .bool b => if b then .trueWord else .falseWord
  | .pixel _ => .pixel
  | .percentage _ => .percentage
  | .scalar _ => .number

/-- The kind of the token that an operator is written as. -/
def Operator.kind : Operator → TokenKind
  | .add => .plus
  | .subtract => .dash
  | .multiply => .star

/-- The kind of the token that a variable is written as. -/
def variableKind (name : String) : TokenKind :=
  if name.toList.head? = some '-' then .variableName else .identifier

theorem variableKind_of_identifier {name : String}
    (h : TokenKind.identifier.Fits name.toList) : variableKind name = .identifier := by
  obtain ⟨⟨c, part, hn, hc, -⟩, -⟩ := h
  have hne : c ≠ '-' := by
    rintro rfl
    exact absurd hc (by decide)
  rw [variableKind, hn, List.head?_cons, if_neg fun he ↦ hne (Option.some.inj he)]

theorem variableKind_of_variableName {name : String}
    (h : TokenKind.variableName.Fits name.toList) : variableKind name = .variableName := by
  obtain ⟨word, hn, -⟩ := h
  rw [variableKind, hn, List.head?_cons, if_pos rfl]

namespace Expr

/-- The kinds of tokens, with those of parentheses around them if `enclosed` says so. -/
def enclose (enclosed : Bool) (kinds : List TokenKind) : List TokenKind :=
  if enclosed then .openParen :: (kinds ++ [.closeParen]) else kinds

/-- The kinds of the tokens that an expression is written with. -/
def kinds : Expr → List TokenKind
  | literal v _ => [v.kind]
  | reference name _ => [variableKind name]
  | operation op [left, right] _ =>
    enclose (left.level < op.level) left.kinds ++
      op.kind :: enclose (right.level ≤ op.level) right.kinds
  | operation _ _ _ => []

/-- An expression as it is written where nothing looser than `n` may stand. -/
def textAt (n : Nat) (e : Expr) : String := parenthesize (e.level < n) e.text

/-- The kinds of the tokens that an expression is written with where nothing looser than `n` may
stand. -/
def kindsAt (n : Nat) (e : Expr) : List TokenKind := enclose (e.level < n) e.kinds

variable {e left right : Expr} {op : Operator} {info : Info} {m n : Nat}

/-- Operands stand where nothing looser than the operator may stand, and right operands where
nothing as loose may. -/
theorem text_operation : (operation op [left, right] info).text =
    left.textAt op.level ++ (" " ++ op.symbol ++ " " ++ right.textAt (op.level + 1)) := by
  simp only [text, firstText, laterText, textAt, Nat.lt_succ_iff, String.append_empty]

example : (operation .multiply [operation .subtract [reference "a" .null,
    operation .add [reference "b" .null, reference "c" .null] .null] .null,
    reference "d" .null] .null).text = "(a - (b + c)) * d" := by decide

theorem kinds_operation : (operation op [left, right] info).kinds =
    left.kindsAt op.level ++ op.kind :: right.kindsAt (op.level + 1) := by
  simp only [kinds, kindsAt, Nat.lt_succ_iff]

theorem level_pos (e : Expr) : 0 < e.level := by
  unfold level
  split
  · rename_i op _ _
    cases op <;> decide
  · decide

/-- What is tight enough is written without parentheses. -/
theorem textAt_of_le (h : n ≤ e.level) : e.textAt n = e.text := by
  simp [textAt, parenthesize, Nat.not_lt.2 h]

theorem kindsAt_of_le (h : n ≤ e.level) : e.kindsAt n = e.kinds := by
  simp [kindsAt, enclose, Nat.not_lt.2 h]

/-- What is too loose is written in parentheses. -/
theorem textAt_of_lt (h : e.level < n) : e.textAt n = "(" ++ e.text ++ ")" := by
  simp [textAt, parenthesize, h]

theorem kindsAt_of_lt (h : e.level < n) :
    e.kindsAt n = .openParen :: (e.kinds ++ [.closeParen]) := by
  simp [kindsAt, enclose, h]

end Expr

/-! ### Derivations with one operand more -/

namespace Derivation

/-- Further operands, and one after them. -/
def Factors.snoc (star : Terminal .star) (x : Operand) : Factors → Factors
  | .nil => .cons star x .nil
  | .cons star' y others => .cons star' y (others.snoc star x)

/-- Further products, and one after them. -/
def Terms.snoc (sign : Sign) (x : Product) : Terms → Terms
  | .nil => .cons sign x .nil
  | .cons sign' y others => .cons sign' y (others.snoc sign x)

theorem Factors.tokens_snoc (star : Terminal .star) (x : Operand) (fs : Factors) :
    (fs.snoc star x).tokens = fs.tokens ++ star.token :: x.tokens := by
  match fs with
  | .nil => simp [snoc, tokens]
  | .cons star' y others => simp [snoc, tokens, tokens_snoc star x others]

theorem Factors.join_snoc (star : Terminal .star) (x : Operand) (fs : Factors) (left : Expr) :
    (fs.snoc star x).join left = Grammar.operation .multiply (fs.join left) x.tree := by
  match fs with
  | .nil => rfl
  | .cons star' y others => exact join_snoc star x others _

theorem Terms.tokens_snoc (sign : Sign) (x : Product) (ts : Terms) :
    (ts.snoc sign x).tokens = ts.tokens ++ sign.token :: x.tokens := by
  match ts with
  | .nil => simp [snoc, tokens]
  | .cons sign' y others => simp [snoc, tokens, tokens_snoc sign x others]

theorem Terms.join_snoc (sign : Sign) (x : Product) (ts : Terms) (left : Expr) :
    (ts.snoc sign x).join left = Grammar.operation sign.operator (ts.join left) x.tree := by
  match ts with
  | .nil => rfl
  | .cons sign' y others => exact join_snoc sign x others _

end Derivation

/-! ### Spelling expressions -/

namespace Expr

/-- What is said of the printed tokens of an expression: they have a derivation of the given
category, which means the expression. -/
def WrittenBy {α : Type} (tokens : α → List Token) (tree : α → Expr) (n : Nat) (e : Expr)
    (ts : List Token) : Prop :=
  ∃ x, tokens x = ts ∧ (tree x).shape = e.shape ∧ ts.map (·.kind) = e.kindsAt n

/-- An expression is spelled by a category of the grammar. -/
def SpelledBy {α : Type} (tokens : α → List Token) (tree : α → Expr) (n : Nat) (e : Expr) : Prop :=
  Token.Spells Text.Breaks (e.textAt n).toList (e.WrittenBy tokens tree n)

section

variable {α β γ : Type} {tokens : α → List Token} {tree : α → Expr} {tokens' : β → List Token}
  {tree' : β → Expr} {tokens'' : γ → List Token} {tree'' : γ → Expr}
variable {e left right : Expr} {op : Operator} {info : Info} {m n : Nat}

/-- A category may take up another one where both put the same parentheses. -/
theorem SpelledBy.embed (h : e.SpelledBy tokens tree n) (f : α → β)
    (hf : ∀ x, tokens' (f x) = tokens x ∧ tree' (f x) = tree x) (hl : e.level < n ↔ e.level < m) :
    e.SpelledBy tokens' tree' m := by
  have ht : e.textAt m = e.textAt n := by simp only [textAt, hl]
  have hk : e.kindsAt m = e.kindsAt n := by simp only [kindsAt, hl]
  rw [SpelledBy, ht]
  refine Token.Spells.weaken h (fun _ hr ↦ hr) ?_
  rintro ts ⟨x, rfl, hx, hkinds⟩
  exact ⟨f x, (hf x).1, (hf x).2 ▸ hx, hk ▸ hkinds⟩

/-- An operator spells its token. -/
theorem spells_symbol (op : Operator) :
    Token.Spells (fun _ ↦ True) (" " ++ op.symbol ++ " ").toList fun ts ↦
      ∃ t : Terminal op.kind, ts = [t.token] := by
  have hblank : Token.Spells (fun _ ↦ True) [' '] (· = []) := Token.spells_blank (by decide)
  have hsign : op.kind.symbol? = some op.symbol.toList := by cases op <;> rfl
  rw [String.toList_append, String.toList_append]
  refine ((hblank.append (Token.spells_sign hsign) fun _ _ ↦ trivial).append hblank
    fun rest _ ↦ ?_).weaken (fun _ hr ↦ hr) ?_
  · exact TokenKind.ends_of_breaks (Text.breaks_cons.2 (by decide))
  · rintro _ ⟨_, _, rfl, ⟨_, _, rfl, rfl, t, rfl⟩, rfl⟩
    exact ⟨t, rfl⟩

/-- An operation is spelled by its operands and the operator between them. -/
theorem SpelledBy.operation (hl : left.SpelledBy tokens tree op.level)
    (hr : right.SpelledBy tokens' tree' (op.level + 1)) (build : α → Terminal op.kind → β → γ)
    (hbuild : ∀ x t y, tokens'' (build x t y) = tokens x ++ t.token :: tokens' y ∧
      tree'' (build x t y) = Grammar.operation op (tree x) (tree' y)) :
    (Expr.operation op [left, right] info).SpelledBy tokens'' tree'' op.level := by
  have hlevel : op.level ≤ (Expr.operation op [left, right] info).level := Nat.le_refl _
  have htext : ((Expr.operation op [left, right] info).textAt op.level).toList =
      (left.textAt op.level).toList ++ ((" " ++ op.symbol ++ " ").toList ++
        (right.textAt (op.level + 1)).toList) := by
    rw [textAt_of_le hlevel, text_operation, String.toList_append, String.toList_append]
  rw [SpelledBy, htext]
  -- The left operand ends before the blank of the operator.
  refine Token.Spells.weaken (hl.append ((spells_symbol op).append hr fun _ _ ↦ trivial)
    fun rest _ ↦ ?_) (fun _ hr ↦ hr) ?_
  · rw [String.toList_append, String.toList_append]
    exact Text.breaks_cons.2 (by decide)
  · rintro _ ⟨_, _, rfl, ⟨x, rfl, hx, hkx⟩, _, _, rfl, ⟨t, rfl⟩, y, rfl, hy, hky⟩
    refine ⟨build x t y, (hbuild x t y).1, ?_, ?_⟩
    · rw [(hbuild x t y).2]
      show Expr.operation op [(tree x).shape, (tree' y).shape] .null = _
      rw [hx, hy]
      rfl
    · rw [kindsAt_of_le hlevel, kinds_operation, List.map_append, List.map_append, hkx,
        hky]
      rfl

/-- Parentheses make an operand of a sum. -/
theorem SpelledBy.group (h : e.SpelledBy Expression.tokens Expression.tree 1) (hn : e.level < n) :
    e.SpelledBy Operand.tokens Operand.tree n := by
  have hopen : TokenKind.openParen.symbol? = some ['('] := rfl
  have hclose : TokenKind.closeParen.symbol? = some [')'] := rfl
  have htext : (e.textAt n).toList = ['('] ++ ((e.textAt 1).toList ++ [')']) := by
    rw [textAt_of_lt hn, textAt_of_le e.level_pos, String.toList_append, String.toList_append,
      List.append_assoc]
    rfl
  rw [SpelledBy, htext]
  refine Token.Spells.weaken ((Token.spells_sign hopen).append
    (Token.Spells.append h (Token.spells_sign hclose) fun rest _ ↦ ?_) fun _ _ ↦ trivial)
    (fun _ _ ↦ trivial) ?_
  · exact Text.breaks_cons.2 (by decide)
  · rintro _ ⟨_, _, rfl, ⟨opening, rfl⟩, _, _, rfl, ⟨x, rfl, hx, hk⟩, closing, rfl⟩
    refine ⟨.group opening x closing, by simp [Operand.tokens], hx, ?_⟩
    rw [kindsAt_of_le e.level_pos] at hk
    rw [kindsAt_of_lt hn, List.map_append, List.map_append, hk]
    rfl

end

variable {e : Expr}

/-- A word that is an operand is spelled as one. -/
theorem spelledBy_primary (kind : TokenKind) (value : String) (hf : kind.Fits value.toList)
    (htext : e.text.toList = value.toList ++ kind.unit) (hlevel : 3 ≤ e.level)
    (hkinds : e.kinds = [kind])
    (hp : ∀ t : Terminal kind, t.value = value →
      ∃ p : Primary, p.token = t.token ∧ p.tree.shape = e.shape) :
    e.SpelledBy Operand.tokens Operand.tree 3 := by
  rw [SpelledBy, textAt_of_le hlevel, htext]
  refine (Token.spells_word hf).weaken (fun _ hr ↦ TokenKind.ends_of_breaks hr) ?_
  rintro _ ⟨t, ht, rfl⟩
  rw [String.ofList_toList] at ht
  obtain ⟨p, htoken, hshape⟩ := hp t ht
  refine ⟨.primary p, by rw [Operand.tokens, htoken], hshape, ?_⟩
  rw [kindsAt_of_le hlevel, hkinds]
  rfl

theorem isNamePart_of_isHexDigit {c : Char} (h : Grammar.isHexDigit c = true) :
    Text.isNamePart c = true := by
  have halnum : c.isAlpha = true ∨ c.isDigit = true := by
    rw [Text.isAlpha_iff_toNat]
    simp only [Grammar.isHexDigit, Bool.or_eq_true, Bool.and_eq_true, decide_eq_true_eq,
      Char.le_def, UInt32.le_iff_toNat_le] at h
    obtain (h | ⟨ha, hf⟩) | ⟨ha, hf⟩ := h
    · exact .inr h
    · exact .inl (.inr ⟨ha, hf.trans (by decide)⟩)
    · exact .inl (.inl ⟨ha, hf.trans (by decide)⟩)
  rw [Text.isNamePart, Char.isAlphanum, Bool.or_eq_true_iff.2 halnum]
  rfl

/-- A color is a hash. -/
theorem fits_of_isColor {s : String} (hmark : s.toList.head? = some '#')
    (h : Derivation.IsColor s) : TokenKind.hash.Fits s.toList := by
  obtain ⟨mark, digits, hs, hd, hl⟩ := h
  rw [hs] at hmark ⊢
  obtain rfl := Option.some.inj hmark
  refine ⟨digits, rfl, ?_, fun c hc ↦ isNamePart_of_isHexDigit (hd c hc)⟩
  rintro rfl
  rw [List.length_nil] at hl
  omega

/-- A numeral, with or without a unit, is spelled as an operand and read back as its number. -/
theorem spelledBy_numeral (kind : TokenKind) {x : Float} (hx : Decimal.IsPlain x)
    (hfits : ∀ cs, Text.IsNumeral cs → kind.Fits cs)
    (htext : e.text.toList = (Decimal.text x).toList ++ kind.unit) (hlevel : 3 ≤ e.level)
    (hkinds : e.kinds = [kind])
    (hp : ∀ t : Terminal kind, Decimal.read? t.value = some x →
      ∃ p : Primary, p.token = t.token ∧ p.tree.shape = e.shape) :
    e.SpelledBy Operand.tokens Operand.tree 3 := by
  obtain ⟨hnumeral, hread⟩ := Decimal.read?_text hx
  exact spelledBy_primary kind _ (hfits _ hnumeral) htext hlevel hkinds fun t ht ↦
    hp t (ht ▸ hread)

/-- Values are spelled as operands. -/
theorem spelledBy_literal {v : Literal} (h : v.IsPrintable) (info : Info) :
    (literal v info).SpelledBy Operand.tokens Operand.tree 3 := by
  have hlevel : 3 ≤ (literal v info).level := Nat.le_refl 3
  cases v with
  | color s =>
    obtain ⟨hmark, hs⟩ := h
    have hfits := fits_of_isColor hmark hs
    refine spelledBy_primary .hash s hfits (List.append_nil _).symm hlevel rfl fun t ht ↦ ?_
    subst ht
    exact ⟨.color t hs, rfl, rfl⟩
  | bool b =>
    cases b with
    | false =>
      have hfits : TokenKind.falseWord.Fits "false".toList :=
        congrArg TokenKind.reserved? String.ofList_toList
      exact spelledBy_primary .falseWord "false" hfits (List.append_nil _).symm hlevel rfl
        fun t _ ↦ ⟨.no t, rfl, rfl⟩
    | true =>
      have hfits : TokenKind.trueWord.Fits "true".toList :=
        congrArg TokenKind.reserved? String.ofList_toList
      exact spelledBy_primary .trueWord "true" hfits (List.append_nil _).symm hlevel rfl
        fun t _ ↦ ⟨.yes t, rfl, rfl⟩
  | pixel x =>
    exact spelledBy_numeral .pixel h (fun _ hn ↦ hn) String.toList_append hlevel rfl
      fun t hx ↦ ⟨.pixel t x hx, rfl, rfl⟩
  | percentage x =>
    exact spelledBy_numeral .percentage h (fun _ hn ↦ hn) String.toList_append hlevel rfl
      fun t hx ↦ ⟨.percentage t x hx, rfl, rfl⟩
  | scalar x =>
    exact spelledBy_numeral .number h (fun _ hn ↦ hn) (List.append_nil _).symm hlevel rfl
      fun t hx ↦ ⟨.number t x hx, rfl, rfl⟩

/-- Variables are spelled as operands. -/
theorem spelledBy_reference {name : String} (h : IsIdentifier name ∨ IsVariableName name)
    (info : Info) : (reference name info).SpelledBy Operand.tokens Operand.tree 3 := by
  have hlevel : 3 ≤ (reference name info).level := Nat.le_refl 3
  have htext : (reference name info).text.toList = name.toList ++ [] := (List.append_nil _).symm
  obtain h | h := h
  · have hkind := variableKind_of_identifier h.fits
    have hkinds : (reference name info).kinds = [.identifier] := by rw [kinds, hkind]
    refine spelledBy_primary .identifier _ h.fits htext hlevel hkinds fun t ht ↦ ?_
    subst ht
    exact ⟨.identifier t, rfl, rfl⟩
  · have hkind := variableKind_of_variableName h
    have hkinds : (reference name info).kinds = [.variableName] := by rw [kinds, hkind]
    refine spelledBy_primary .variableName _ h htext hlevel hkinds fun t ht ↦ ?_
    subst ht
    exact ⟨.variableName t, rfl, rfl⟩

/-- An operand is a product, unless it has to be enclosed to be one and not the other. -/
theorem SpelledBy.product (h : e.SpelledBy Operand.tokens Operand.tree 3) (hl : e.level ≠ 2) :
    e.SpelledBy Product.tokens Product.tree 2 :=
  h.embed (fun x ↦ .mk x .nil) (fun x ↦ ⟨List.append_nil _, rfl⟩) (by omega)

/-- A product is a sum, unless it has to be enclosed to be one and not the other. -/
theorem SpelledBy.expression (h : e.SpelledBy Product.tokens Product.tree 2) (hl : e.level ≠ 1) :
    e.SpelledBy Expression.tokens Expression.tree 1 :=
  h.embed (fun x ↦ .mk x .nil) (fun x ↦ ⟨List.append_nil _, rfl⟩) (by omega)

section

variable {left right : Expr}

/-- Each operator but one is written as the sign of a sum. -/
theorem exists_sign {op : Operator} (hop : op ≠ .multiply) :
    ∃ sign : Terminal op.kind → Sign, ∀ t, (sign t).token = t.token ∧ (sign t).operator = op := by
  cases op with
  | add => exact ⟨.plus, fun _ ↦ ⟨rfl, rfl⟩⟩
  | subtract => exact ⟨.minus, fun _ ↦ ⟨rfl, rfl⟩⟩
  | multiply => exact absurd rfl hop

/-- A sum is made of a sum and a product. -/
theorem spelledBy_sum {op : Operator} (hop : op ≠ .multiply)
    (hl : left.SpelledBy Expression.tokens Expression.tree 1)
    (hr : right.SpelledBy Product.tokens Product.tree 2) (info : Info) :
    (operation op [left, right] info).SpelledBy Expression.tokens Expression.tree 1 := by
  obtain ⟨sign, hsign⟩ := exists_sign hop
  have hlevel : op.level = 1 := by cases op <;> trivial
  have hlevel' : op.level + 1 = 2 := by omega
  rw [← hlevel] at hl ⊢
  rw [← hlevel'] at hr
  refine hl.operation hr (fun | .mk first others, t, y => .mk first (others.snoc (sign t) y)) ?_
  rintro ⟨first, others⟩ t y
  refine ⟨by simp [Expression.tokens, Terms.tokens_snoc, hsign], ?_⟩
  rw [Expression.tree, Expression.tree, Terms.join_snoc, (hsign t).2]

/-- A product is made of a product and an operand. -/
theorem spelledBy_product (hl : left.SpelledBy Product.tokens Product.tree 2)
    (hr : right.SpelledBy Operand.tokens Operand.tree 3) (info : Info) :
    (operation .multiply [left, right] info).SpelledBy Product.tokens Product.tree 2 := by
  have build : (operation .multiply [left, right] info).SpelledBy Product.tokens Product.tree
      Operator.multiply.level := by
    refine SpelledBy.operation hl hr
      (fun | .mk first others, t, y => .mk first (others.snoc t y)) ?_
    rintro ⟨first, others⟩ t y
    refine ⟨?_, others.join_snoc t y first.tree⟩
    calc first.tokens ++ (others.snoc t y).tokens
        = first.tokens ++ (others.tokens ++ t.token :: y.tokens) :=
          congrArg _ (others.tokens_snoc t y)
      _ = first.tokens ++ others.tokens ++ t.token :: y.tokens := (List.append_assoc ..).symm
  exact build

end

/-- A printable expression is spelled by each category, where what is too loose for the category is
in parentheses. -/
theorem spelled (h : e.IsPrintable) :
    e.SpelledBy Operand.tokens Operand.tree 3 ∧ e.SpelledBy Product.tokens Product.tree 2 ∧
      e.SpelledBy Expression.tokens Expression.tree 1 := by
  induction h with
  | @literal v info hv =>
    have hl : (Expr.literal v info).level = 3 := rfl
    have ho := spelledBy_literal hv info
    have hp := ho.product (by omega)
    exact ⟨ho, hp, hp.expression (by omega)⟩
  | @reference name info hn =>
    have hl : (Expr.reference name info).level = 3 := rfl
    have ho := spelledBy_reference hn info
    have hp := ho.product (by omega)
    exact ⟨ho, hp, hp.expression (by omega)⟩
  | @operation op left right info _ _ ihl ihr =>
    obtain ⟨-, hlp, hle⟩ := ihl
    obtain ⟨hro, hrp, -⟩ := ihr
    have hl : (Expr.operation op [left, right] info).level = op.level := rfl
    -- An operation has one category where it needs no parentheses, which its operator decides. Where
    -- it is too loose, it is put in parentheses as a sum, and is an operand then.
    by_cases hop : op = .multiply
    · subst hop
      have hl2 : (Expr.operation .multiply [left, right] info).level = 2 := rfl
      have hp := spelledBy_product hlp hro info
      have he := hp.expression (by omega)
      exact ⟨he.group (by omega), hp, he⟩
    · have hl1 : op.level = 1 := by cases op <;> trivial
      have he := spelledBy_sum hop hle hrp info
      have ho : (Expr.operation op [left, right] info).SpelledBy Operand.tokens Operand.tree 3 :=
        he.group (by omega)
      exact ⟨ho, ho.product (by omega), he⟩

end Expr

end TypedCss

import TypedCss.Css
import TypedCss.Proofs.Decimal.Bits
import TypedCss.Proofs.Grammar.Derivation
import TypedCss.Proofs.Shape
import TypedCss.Proofs.Token.Word

/-!
# What can be printed

Printing does not look at what it prints. A sheet `IsPrintable` if the names, colors and numbers in
it are ones that a source can have, if its operations have two operands, and if it consists of rules
that have selectors and hold nothing but declarations.
-/

namespace TypedCss

/-! ### Printable trees

What can be printed is decided by looking at the tree. -/

section

variable {cs : List Char} {name text : String} {x : Float}

-- The quantifier runs over the characters of a text, not over all there are.
instance : Decidable (∀ c ∈ cs, Text.isNamePart c = true) := List.decidableBAll _ cs

instance : Decidable (Text.IsName cs) :=
  match cs with
  | [] => isFalse (by rintro ⟨c, part, h, -⟩; cases h)
  | c :: part =>
    decidable_of_iff (Text.isNameStart c = true ∧ ∀ d ∈ part, Text.isNamePart d = true)
      ⟨fun ⟨hc, hp⟩ ↦ ⟨c, part, rfl, hc, hp⟩, fun ⟨_, _, h, hc, hp⟩ ↦ by cases h; exact ⟨hc, hp⟩⟩

instance : Decidable (Derivation.IsColor text) := decidable_of_iff _ (Derivation.isColor_iff text)

instance : Decidable (Decimal.IsPlain x) :=
  decidable_of_iff (x.isFinite = true ∧ x.toBits.toNat < 2 ^ 63)
    ⟨fun h ↦ ⟨h.1, h.2⟩, fun h ↦ ⟨h.finite, h.unsigned⟩⟩

/-- A name that is not a reserved word. -/
def IsIdentifier (name : String) : Prop :=
  Text.IsName name.toList ∧ TokenKind.reserved? name = none

/-- Two dashes and a name. -/
def IsVariableName (name : String) : Prop :=
  ∃ word, name.toList = '-' :: '-' :: word ∧ Text.IsName word

instance : Decidable (IsIdentifier name) :=
  inferInstanceAs (Decidable (Text.IsName name.toList ∧ TokenKind.reserved? name = none))

instance : Decidable (IsVariableName name) :=
  decidable_of_iff (name.toList.take 2 = ['-', '-'] ∧ Text.IsName (name.toList.drop 2)) <| by
    constructor
    · rintro ⟨ht, hd⟩
      refine ⟨_, ?_, hd⟩
      conv_lhs => rw [← List.take_append_drop 2 name.toList, ht]
      rfl
    · rintro ⟨word, hw, hn⟩
      rw [hw]
      exact ⟨rfl, hn⟩

end

theorem IsIdentifier.fits {name : String} (h : IsIdentifier name) :
    TokenKind.identifier.Fits name.toList := by
  refine ⟨h.1, ?_⟩
  rw [String.ofList_toList]
  exact h.2

/-- Colors are written as in a source, and numbers have to be finite and without a sign. -/
def Literal.IsPrintable : Literal → Prop
  | .color text => text.toList.head? = some '#' ∧ Derivation.IsColor text
  | .bool _ => True
  | .pixel x | .percentage x | .scalar x => Decimal.IsPlain x

instance : ∀ v : Literal, Decidable v.IsPrintable
  | .color text =>
    inferInstanceAs (Decidable (text.toList.head? = some '#' ∧ Derivation.IsColor text))
  | .bool _ => inferInstanceAs (Decidable True)
  | .pixel x | .percentage x | .scalar x => inferInstanceAs (Decidable (Decimal.IsPlain x))

/-- An expression with two operands in each operation. -/
inductive Expr.IsPrintable : Expr → Prop where
  | literal {v : Literal} {info : Info} (h : v.IsPrintable) : IsPrintable (.literal v info)
  | reference {name : String} {info : Info} (h : IsIdentifier name ∨ IsVariableName name) :
    IsPrintable (.reference name info)
  | operation {op : Operator} {left right : Expr} {info : Info} (hl : IsPrintable left)
    (hr : IsPrintable right) : IsPrintable (.operation op [left, right] info)

/-- Decides whether an expression can be printed. -/
def Expr.decideIsPrintable : (e : Expr) → Decidable e.IsPrintable
  | .literal v _ => decidable_of_iff v.IsPrintable ⟨.literal, fun | .literal h => h⟩
  | .reference name _ =>
    decidable_of_iff (IsIdentifier name ∨ IsVariableName name)
      ⟨.reference, fun | .reference h => h⟩
  | .operation _ [left, right] _ =>
    have := left.decideIsPrintable
    have := right.decideIsPrintable
    decidable_of_iff (left.IsPrintable ∧ right.IsPrintable)
      ⟨fun h ↦ .operation h.1 h.2, fun | .operation hl hr => ⟨hl, hr⟩⟩
  | .operation _ [] _ | .operation _ [_] _ | .operation _ (_ :: _ :: _ :: _) _ => isFalse nofun

instance : DecidablePred Expr.IsPrintable := Expr.decideIsPrintable

/-- The name of an id may begin with a digit or a dash and may be a reserved word. -/
def Selector.IsPrintable : Selector → Prop
  | .tag name | .class name => IsIdentifier name
  | .id name => name.toList ≠ [] ∧ ∀ c ∈ name.toList, Text.isNamePart c = true

instance : ∀ s : Selector, Decidable s.IsPrintable
  | .tag name | .class name => inferInstanceAs (Decidable (IsIdentifier name))
  | .id name => inferInstanceAs
    (Decidable (name.toList ≠ [] ∧ ∀ c ∈ name.toList, Text.isNamePart c = true))

/-- No character of the name of an id is taken for the mark before it. -/
theorem Text.dropWhile_mark {name : List Char} (h : ∀ c ∈ name, Text.isNamePart c = true) :
    name.dropWhile (· == '#') = name := by
  cases name with
  | nil => rfl
  | cons c cs =>
    have hmark : c ≠ '#' := by
      rintro rfl
      exact absurd (h '#' (List.mem_cons_self ..)) (by decide)
    exact List.dropWhile_cons_of_neg (by simpa using hmark)

/-- A declaration of a printable value. -/
def Declaration.IsPrintable (d : Declaration) : Prop :=
  IsIdentifier d.property ∧ d.value.IsPrintable

/-- A statement that is a declaration. -/
def Stmt.IsPrintable : Stmt → Prop
  | .declaration d => d.IsPrintable
  | _ => False

/-- A rule that applies to something and says everything with declarations. -/
def Rule.IsPrintable (r : Rule) : Prop :=
  r.selectors ≠ [] ∧ (∀ s ∈ r.selectors, s.IsPrintable) ∧ ∀ s ∈ r.body, s.IsPrintable

/-- An item that is a rule. -/
def Item.IsPrintable : Item → Prop
  | .rule r => r.IsPrintable
  | _ => False

/-- A sheet that says everything with rules. -/
def Sheet.IsPrintable (s : Sheet) : Prop := ∀ i ∈ s.items, i.IsPrintable

instance : DecidablePred Declaration.IsPrintable := fun d ↦
  inferInstanceAs (Decidable (IsIdentifier d.property ∧ d.value.IsPrintable))

instance : DecidablePred Stmt.IsPrintable
  | .declaration d => inferInstanceAs (Decidable d.IsPrintable)
  | .assignment _ | .conditional .. => inferInstanceAs (Decidable False)

instance : DecidablePred Rule.IsPrintable := fun r ↦
  inferInstanceAs (Decidable (r.selectors ≠ [] ∧ (∀ s ∈ r.selectors, s.IsPrintable) ∧
    ∀ s ∈ r.body, s.IsPrintable))

instance : DecidablePred Item.IsPrintable
  | .rule r => inferInstanceAs (Decidable r.IsPrintable)
  | .assignment _ => inferInstanceAs (Decidable False)

instance : DecidablePred Sheet.IsPrintable := fun s ↦
  inferInstanceAs (Decidable (∀ i ∈ s.items, i.IsPrintable))

theorem Stmt.IsPrintable.exists_eq {s : Stmt} (h : s.IsPrintable) :
    ∃ d : Declaration, s = .declaration d ∧ d.IsPrintable := by
  cases s with
  | declaration d => exact ⟨d, rfl, h⟩
  | assignment | conditional => exact h.elim

theorem Item.IsPrintable.exists_eq {i : Item} (h : i.IsPrintable) :
    ∃ r : Rule, i = .rule r ∧ r.IsPrintable := by
  cases i with
  | rule r => exact ⟨r, rfl, h⟩
  | assignment => exact h.elim

end TypedCss

import TypedCss.Grammar.Sheet

/-!
# The grammar of style sheets

A derivation says how a list of tokens was made by the grammar. The grammar is written as data: one
type for each of its categories, one constructor for each way to make a member of the category, and
in it the tokens and the smaller derivations in the order in which they stand. No reader of tokens
occurs here.

The categories of expressions carry the strength of the operators. An expression is a sum of
products, a product is made of operands, and only parentheses put an expression where an operand
stands; so `*` binds before `+` and `-`, and since each category is a first member with a list of
further ones, operators of one strength group to the left.

Every derivation has `tokens`, the list that it derives, and a `tree`, which is what it means.
Parentheses and the sign of an assignment are part of a derivation but not of its tree.
-/

namespace TypedCss.Derivation

/-! ### Single tokens -/

/-- A token of a known kind. -/
structure Terminal (kind : TokenKind) where
  /-- The text. -/
  value : String
  /-- Where the token stands. -/
  span : Span

namespace Terminal

variable {kind : TokenKind}

/-- A terminal as a token like the others. -/
def token (t : Terminal kind) : Token := ⟨kind, t.value, t.span⟩

/-- The terminal that a token of the right kind is. -/
def ofToken (t : Token) : Terminal t.kind := ⟨t.value, t.span⟩

@[simp] theorem kind_token (t : Terminal kind) : t.token.kind = kind := rfl

@[simp] theorem token_inj {t u : Terminal kind} : t.token = u.token ↔ t = u := by
  cases t
  cases u
  simp [token]

theorem exists_token_eq {t : Token} (h : t.kind = kind) : ∃ u : Terminal kind, u.token = t := by
  subst h
  exact ⟨ofToken t, rfl⟩

end Terminal

/-- A color is a mark and three or six hexadecimal digits. -/
def IsColor (text : String) : Prop :=
  ∃ mark digits, text.toList = mark :: digits ∧ (∀ c ∈ digits, Grammar.isHexDigit c = true) ∧
    (digits.length = 3 ∨ digits.length = 6)

/-- Colors can be told by looking at the text. -/
theorem isColor_iff (text : String) : Grammar.isColor text = true ↔ IsColor text := by
  rw [Grammar.isColor, IsColor]
  cases text.toList with
  | nil => simp
  | cons mark digits =>
    simp only [List.drop_succ_cons, List.drop_zero, Bool.and_eq_true, List.all_eq_true,
      Bool.or_eq_true, beq_iff_eq]
    constructor
    · rintro ⟨hd, hl⟩
      exact ⟨mark, digits, rfl, hd, hl⟩
    · rintro ⟨_, _, h, hd, hl⟩
      obtain ⟨rfl, rfl⟩ := List.cons.inj h
      exact ⟨hd, hl⟩

/-! ### Expressions -/

/-- An operand of one token. The text of a number is one, and the text of a hash is a color. -/
inductive Primary where
  | number (t : Terminal .number) (x : Float) (h : Decimal.read? t.value = some x)
  | pixel (t : Terminal .pixel) (x : Float) (h : Decimal.read? t.value = some x)
  | percentage (t : Terminal .percentage) (x : Float) (h : Decimal.read? t.value = some x)
  | color (t : Terminal .hash) (h : IsColor t.value)
  | yes (t : Terminal .trueWord)
  | no (t : Terminal .falseWord)
  | variableName (t : Terminal .variableName)
  | identifier (t : Terminal .identifier)

/-- A plus or a minus. -/
inductive Sign where
  | plus (t : Terminal .plus)
  | minus (t : Terminal .dash)

mutual

/-- An operand: one token, or an expression in parentheses. -/
inductive Operand where
  | primary (p : Primary)
  | group (opening : Terminal .openParen) (inner : Expression) (closing : Terminal .closeParen)

/-- What follows the first operand of a product: further operands, a star before each. -/
inductive Factors where
  | nil
  | cons (star : Terminal .star) (next : Operand) (others : Factors)

/-- A product of one operand or more. -/
inductive Product where
  | mk (first : Operand) (others : Factors)

/-- What follows the first product of a sum: further products, a sign before each. -/
inductive Terms where
  | nil
  | cons (sign : Sign) (next : Product) (others : Terms)

/-- An expression: a sum of one product or more. -/
inductive Expression where
  | mk (first : Product) (others : Terms)

end

namespace Primary

/-- The token of an operand. -/
def token : Primary → Token
  | number t _ _ | pixel t _ _ | percentage t _ _ | color t _ | yes t | no t | variableName t
  | identifier t => t.token

/-- The meaning of an operand. -/
def tree : Primary → Expr
  | number t x _ => .literal (.scalar x) ⟨t.span, []⟩
  | pixel t x _ => .literal (.pixel x) ⟨t.span, []⟩
  | percentage t x _ => .literal (.percentage x) ⟨t.span, []⟩
  | color t _ => .literal (.color t.value) ⟨t.span, []⟩
  | yes t => .literal (.bool true) ⟨t.span, []⟩
  | no t => .literal (.bool false) ⟨t.span, []⟩
  | variableName t => .reference t.value ⟨t.span, []⟩
  | identifier t => .reference t.value ⟨t.span, []⟩

end Primary

namespace Sign

/-- The token of a sign. -/
def token : Sign → Token
  | plus t | minus t => t.token

/-- The operator of a sign. -/
def operator : Sign → Operator
  | plus _ => .add
  | minus _ => .subtract

end Sign

mutual

/-- The tokens of an operand. -/
def Operand.tokens : Operand → List Token
  | .primary p => [p.token]
  | .group opening inner closing => opening.token :: (inner.tokens ++ [closing.token])

/-- The tokens of further operands. -/
def Factors.tokens : Factors → List Token
  | .nil => []
  | .cons star next others => star.token :: (next.tokens ++ others.tokens)

/-- The tokens of a product. -/
def Product.tokens : Product → List Token
  | .mk first others => first.tokens ++ others.tokens

/-- The tokens of further products. -/
def Terms.tokens : Terms → List Token
  | .nil => []
  | .cons sign next others => sign.token :: (next.tokens ++ others.tokens)

/-- The tokens of an expression. -/
def Expression.tokens : Expression → List Token
  | .mk first others => first.tokens ++ others.tokens

end

mutual

/-- The meaning of an operand; parentheses leave no trace. -/
def Operand.tree : Operand → Expr
  | .primary p => p.tree
  | .group _ inner _ => inner.tree

/-- The product of `left` and further operands, grouped to the left. -/
def Factors.join (left : Expr) : Factors → Expr
  | .nil => left
  | .cons _ next others => others.join (Grammar.operation .multiply left next.tree)

/-- The meaning of a product. -/
def Product.tree : Product → Expr
  | .mk first others => others.join first.tree

/-- The sum of `left` and further products, grouped to the left. -/
def Terms.join (left : Expr) : Terms → Expr
  | .nil => left
  | .cons sign next others => others.join (Grammar.operation sign.operator left next.tree)

/-- The meaning of an expression. -/
def Expression.tree : Expression → Expr
  | .mk first others => others.join first.tree

end

/-! ### Assignments and declarations -/

/-- What stands between a variable and its value. -/
inductive AssignmentSign where
  | colon (t : Terminal .colon)
  | colonEquals (t : Terminal .colonEquals)

/-- An assignment. A name without dashes needs the longer sign. -/
inductive Assignment where
  | ofVariableName (name : Terminal .variableName) (sign : AssignmentSign) (value : Expression)
    (semicolon : Terminal .semicolon)
  | ofIdentifier (name : Terminal .identifier) (sign : Terminal .colonEquals) (value : Expression)
    (semicolon : Terminal .semicolon)

/-- A declaration. -/
structure Declaration where
  /-- The name of the property. -/
  property : Terminal .identifier
  /-- The sign after it. -/
  colon : Terminal .colon
  /-- The value. -/
  value : Expression
  /-- The end. -/
  semicolon : Terminal .semicolon

/-- The token of the sign of an assignment. -/
def AssignmentSign.token : AssignmentSign → Token
  | colon t | colonEquals t => t.token

/-- The tokens of an assignment. -/
def Assignment.tokens : Assignment → List Token
  | ofVariableName name sign value semicolon =>
    name.token :: sign.token :: (value.tokens ++ [semicolon.token])
  | ofIdentifier name sign value semicolon =>
    name.token :: sign.token :: (value.tokens ++ [semicolon.token])

/-- The meaning of an assignment. -/
def Assignment.tree : Assignment → TypedCss.Assignment
  | ofVariableName name _ value semicolon =>
    ⟨name.value, value.tree, ⟨⟨name.span.start, semicolon.span.stop⟩, []⟩⟩
  | ofIdentifier name _ value semicolon =>
    ⟨name.value, value.tree, ⟨⟨name.span.start, semicolon.span.stop⟩, []⟩⟩

/-- The tokens of a declaration. -/
def Declaration.tokens (d : Declaration) : List Token :=
  d.property.token :: d.colon.token :: (d.value.tokens ++ [d.semicolon.token])

/-- The meaning of a declaration. -/
def Declaration.tree (d : Declaration) : TypedCss.Declaration :=
  ⟨d.property.value, d.value.tree, ⟨⟨d.property.span.start, d.semicolon.span.stop⟩, []⟩⟩

/-! ### Statements -/

/-- The guard of a conditional, in brackets or without them. -/
inductive Guard where
  | bracketed (opening : Terminal .openBracket) (value : Expression)
    (closing : Terminal .closeBracket)
  | plain (value : Expression)

mutual

/-- A statement. -/
inductive Stmt where
  | declaration (d : Declaration)
  | assignment (a : Assignment)
  | conditional (word : Terminal .ifWord) (guard : Guard) (body : Block) (otherwise : Otherwise)

/-- A block. -/
inductive Block where
  | mk (opening : Terminal .openCurly) (body : Stmts) (closing : Terminal .closeCurly)

/-- The statements of a block. -/
inductive Stmts where
  | nil
  | cons (first : Stmt) (others : Stmts)

/-- What follows the body of a conditional. -/
inductive Otherwise where
  | absent
  | present (word : Terminal .elseWord) (body : Block)

end

/-- The tokens of a guard. -/
def Guard.tokens : Guard → List Token
  | bracketed opening value closing => opening.token :: (value.tokens ++ [closing.token])
  | plain value => value.tokens

/-- The meaning of a guard. -/
def Guard.tree : Guard → Expr
  | bracketed _ value _ | plain value => value.tree

mutual

/-- The tokens of a statement. -/
def Stmt.tokens : Stmt → List Token
  | .declaration d => d.tokens
  | .assignment a => a.tokens
  | .conditional word guard body otherwise =>
    word.token :: (guard.tokens ++ (body.tokens ++ otherwise.tokens))

/-- The tokens of a block. -/
def Block.tokens : Block → List Token
  | .mk opening body closing => opening.token :: (body.tokens ++ [closing.token])

/-- The tokens of statements. -/
def Stmts.tokens : Stmts → List Token
  | .nil => []
  | .cons first others => first.tokens ++ others.tokens

/-- The tokens of an else branch. -/
def Otherwise.tokens : Otherwise → List Token
  | .absent => []
  | .present word body => word.token :: body.tokens

end

/-- Where a block ends. -/
def Block.stop : Block → Position
  | .mk _ _ closing => closing.span.stop

/-- Where a conditional ends whose body ends at `stop`. -/
def Otherwise.stop (stop : Position) : Otherwise → Position
  | .absent => stop
  | .present _ body => body.stop

mutual

/-- The meaning of a statement. -/
def Stmt.tree : Stmt → TypedCss.Stmt
  | .declaration d => .declaration d.tree
  | .assignment a => .assignment a.tree
  | .conditional word guard body otherwise =>
    .conditional guard.tree body.tree otherwise.tree
      ⟨⟨word.span.start, otherwise.stop body.stop⟩, []⟩

/-- The meaning of a block. -/
def Block.tree : Block → List TypedCss.Stmt
  | .mk _ body _ => body.tree

/-- The meaning of statements. -/
def Stmts.tree : Stmts → List TypedCss.Stmt
  | .nil => []
  | .cons first others => first.tree :: others.tree

/-- The meaning of an else branch. -/
def Otherwise.tree : Otherwise → ElseBranch
  | .absent => .absent
  | .present word body => .present body.tree ⟨⟨word.span.start, body.stop⟩, []⟩

end

/-! ### Rules and sheets -/

/-- A selector. -/
inductive Selector where
  | tag (name : Terminal .identifier)
  | class (dot : Terminal .dot) (name : Terminal .identifier)
  | id (hash : Terminal .hash)

/-- A rule: selectors with commas between them, and a block. -/
structure Rule where
  /-- The first selector. -/
  first : Selector
  /-- The others, each with the comma before it. -/
  others : List (Terminal .comma × Selector)
  /-- The block. -/
  body : Block

/-- A member of a sheet. -/
inductive Item where
  | assignment (a : Assignment)
  | rule (r : Rule)

/-- A sheet. -/
abbrev Sheet := List Item

namespace Selector

/-- The tokens of a selector. -/
def tokens : Selector → List Token
  | tag name => [name.token]
  | .class dot name => [dot.token, name.token]
  | id hash => [hash.token]

/-- The meaning of a selector. The name of an id does not include the `#`. -/
def tree : Selector → TypedCss.Selector
  | tag name => .tag name.value
  | .class _ name => .class name.value
  | id hash => .id (String.ofList (hash.value.toList.dropWhile (· == '#')))

/-- Where a selector starts. -/
def start : Selector → Position
  | tag name => name.span.start
  | .class dot _ => dot.span.start
  | id hash => hash.span.start

end Selector

/-- The tokens of further selectors, with their commas. -/
def selectorsTokens (others : List (Terminal .comma × Selector)) : List Token :=
  others.flatMap fun (comma, s) ↦ comma.token :: s.tokens

/-- The tokens of a rule. -/
def Rule.tokens (r : Rule) : List Token :=
  r.first.tokens ++ (selectorsTokens r.others ++ r.body.tokens)

/-- The meaning of a rule. -/
def Rule.tree (r : Rule) : TypedCss.Rule :=
  ⟨r.first.tree :: r.others.map (·.2.tree), r.body.tree, ⟨⟨r.first.start, r.body.stop⟩, []⟩⟩

/-- The tokens of an item. -/
def Item.tokens : Item → List Token
  | assignment a => a.tokens
  | rule r => r.tokens

/-- The meaning of an item. -/
def Item.tree : Item → TypedCss.Item
  | assignment a => .assignment a.tree
  | rule r => .rule r.tree

/-- Where an item ends. -/
def Item.stop : Item → Position
  | assignment (.ofVariableName _ _ _ semicolon) | assignment (.ofIdentifier _ _ _ semicolon) =>
    semicolon.span.stop
  | rule r => r.body.stop

namespace Sheet

/-- The tokens of a sheet. -/
def tokens (s : Sheet) : List Token := s.flatMap Item.tokens

/-- The meaning of a sheet, which spans its file from the start to the end of its last item. -/
def tree (file : String) (s : Sheet) : TypedCss.Sheet :=
  ⟨s.map Item.tree, ⟨⟨⟨0, file⟩, (s.getLast?.map Item.stop).getD ⟨0, file⟩⟩, []⟩⟩

end Sheet

end TypedCss.Derivation

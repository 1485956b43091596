import TypedCss.Token

/-!
# What the kind of a token decides

Readers look at the kind of the current token to decide how to go on. A `Dispatch` holds these
decisions: which form of statement a kind begins, which form of operand it begins, and how tightly
it binds as an operator. `Dispatch.standard` is the language's own; any other can be built by
registering kinds one by one.
-/

namespace TypedCss.Grammar

/-- How tightly an operator binds its operands, the loosest first. -/
inductive BindingPower where
  | default
  | additive
  | multiplicative
  | primary
deriving DecidableEq, Inhabited

namespace BindingPower

/-- The rank of a binding power. -/
def rank : BindingPower → Nat
  | default => 0
  | additive => 1
  | multiplicative => 2
  | primary => 3

/-- The name of a binding power. -/
def name : BindingPower → String
  | default => "Default"
  | additive => "Additive"
  | multiplicative => "Multiplicative"
  | primary => "Primary"

end BindingPower

/-- The forms of operands. -/
inductive OperandForm where
  /-- A value or a variable: one token. -/
  | primary
  /-- An expression between parentheses. -/
  | grouping
deriving DecidableEq

/-- The forms of statements. -/
inductive StatementForm where
  | conditional
  | assignment
  | declaration
deriving DecidableEq

/-- What each kind of token decides. -/
structure Dispatch where
  /-- The form of statement that a kind begins by itself. -/
  statement : TokenKind → Option StatementForm
  /-- The form of operand that a kind begins. -/
  operand : TokenKind → Option OperandForm
  /-- How tightly a kind binds as an operator. -/
  operator : TokenKind → Option BindingPower

namespace Dispatch

/-- Nothing is decided. -/
def empty : Dispatch := ⟨fun _ ↦ none, fun _ ↦ none, fun _ ↦ none⟩

/-- The kinds that begin a statement by themselves. An identifier does so too, but what it begins
depends on the token after it. -/
def standardStatement : TokenKind → Option StatementForm
  | .ifWord => some .conditional
  | .variableName => some .assignment
  | _ => none

/-- The kinds that begin an operand. -/
def standardOperand : TokenKind → Option OperandForm
  | .number | .pixel | .percentage | .hash | .trueWord | .falseWord | .variableName
  | .identifier => some .primary
  | .openParen => some .grouping
  | _ => none

/-- The kinds that are operators. -/
def standardOperator : TokenKind → Option BindingPower
  | .plus | .dash => some .additive
  | .star => some .multiplicative
  | _ => none

/-- The decisions of the language. -/
def standard : Dispatch := ⟨standardStatement, standardOperand, standardOperator⟩

/-- Adds the decisions of the language, which take the place of earlier ones on the same kinds. -/
def addStandard (t : Dispatch) : Dispatch where
  statement k := standardStatement k <|> t.statement k
  operand k := standardOperand k <|> t.operand k
  operator k := standardOperator k <|> t.operator k

theorem addStandard_empty : empty.addStandard = standard := by
  simp [addStandard, empty, standard]

/-- Lets a kind begin a form of statement. -/
def addStatement (t : Dispatch) (kind : TokenKind) (form : StatementForm) : Dispatch :=
  { t with statement := fun k ↦ if k = kind then some form else t.statement k }

/-- Lets a kind begin a form of operand. -/
def addOperand (t : Dispatch) (kind : TokenKind) (form : OperandForm) : Dispatch :=
  { t with operand := fun k ↦ if k = kind then some form else t.operand k }

/-- Lets a kind be an operator. -/
def addOperator (t : Dispatch) (kind : TokenKind) (power : BindingPower) : Dispatch :=
  { t with operator := fun k ↦ if k = kind then some power else t.operator k }

/-- The kinds that begin a statement, by name. -/
def statementKinds (t : Dispatch) : List TokenKind :=
  TokenKind.all.filter fun k ↦ (t.statement k).isSome

/-- The kinds that begin an operand, by name. -/
def operandKinds (t : Dispatch) : List TokenKind :=
  TokenKind.all.filter fun k ↦ (t.operand k).isSome

/-- The kinds that are operators, by name, and how tightly they bind. -/
def operatorPowers (t : Dispatch) : List (TokenKind × BindingPower) :=
  TokenKind.all.filterMap fun k ↦ (t.operator k).map fun power ↦ (k, power)

end Dispatch

end TypedCss.Grammar

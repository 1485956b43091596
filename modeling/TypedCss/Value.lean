import TypedCss.Decimal.Text

/-!
# Values

What an expression can stand for: a color, a truth value, or a number, which is a length in
pixels, a percentage or a plain scalar. The unit of a number is part of its kind, so a sum never
has to convert. `Operator.fold?` is the arithmetic of concrete values and `Operator.resultType?`
that of their types; the second accepts sums of colors and of truth values, which the first cannot
give.
-/

namespace TypedCss

/-! ### Types -/

/-- The type of a value. -/
inductive ValueType where
  | color
  | bool
  | pixel
  | percentage
  | scalar
deriving DecidableEq, Inhabited

namespace ValueType

/-- The name of a type in messages. -/
def name : ValueType → String
  | color => "COLOR"
  | bool => "BOOL"
  | pixel => "PIXEL"
  | percentage => "PERCENTAGE"
  | scalar => "SCALAR"

end ValueType

/-! ### Operators -/

/-- An arithmetic operator. -/
inductive Operator where
  | add
  | subtract
  | multiply
deriving DecidableEq, Inhabited

namespace Operator

/-- The sign that an operator is written with. -/
def symbol : Operator → String
  | add => "+"
  | subtract => "-"
  | multiply => "*"

/-- How tightly an operator holds its operands together. -/
def level : Operator → Nat
  | add | subtract => 1
  | multiply => 2

end Operator

/-! ### Literals -/

/-- A concrete value. -/
inductive Literal where
  /-- A color: its text, with the leading `#`. -/
  | color (text : String)
  /-- A truth value. -/
  | bool (value : Bool)
  /-- A length: the number of pixels. -/
  | pixel (value : Float)
  /-- A percentage: the number before the sign. -/
  | percentage (value : Float)
  /-- A number without a unit. -/
  | scalar (value : Float)
deriving Inhabited

namespace Literal

/-- The type of a value. -/
def type : Literal → ValueType
  | color _ => .color
  | bool _ => .bool
  | pixel _ => .pixel
  | percentage _ => .percentage
  | scalar _ => .scalar

/-- A value as it is written in a style sheet. -/
def text : Literal → String
  | color t => t
  | bool b => if b then "true" else "false"
  | pixel v => Decimal.text v ++ "px"
  | percentage v => Decimal.text v ++ "%"
  | scalar v => Decimal.text v

/-- Equality of values. Numbers are compared as floats, so `NaN` differs from itself and the two
zeros are equal. -/
protected def beq : Literal → Literal → Bool
  | color a, color b => a == b
  | bool a, bool b => a == b
  | pixel a, pixel b => a == b
  | percentage a, percentage b => a == b
  | scalar a, scalar b => a == b
  | _, _ => false

instance : BEq Literal := ⟨Literal.beq⟩

end Literal

/-! ### Arithmetic -/

namespace Operator

/-- The value of an operation. Sums and differences are of two numbers of one kind; a product has
a scalar on at least one side and is of the kind of the other. Colors and truth values have no
arithmetic. -/
def fold? : Operator → Literal → Literal → Option Literal
  | add, .pixel a, .pixel b => some (.pixel (a + b))
  | add, .percentage a, .percentage b => some (.percentage (a + b))
  | add, .scalar a, .scalar b => some (.scalar (a + b))
  | subtract, .pixel a, .pixel b => some (.pixel (a - b))
  | subtract, .percentage a, .percentage b => some (.percentage (a - b))
  | subtract, .scalar a, .scalar b => some (.scalar (a - b))
  | multiply, .pixel v, .scalar k => some (.pixel (v * k))
  | multiply, .scalar k, .pixel v => some (.pixel (v * k))
  | multiply, .percentage v, .scalar k => some (.percentage (v * k))
  | multiply, .scalar k, .percentage v => some (.percentage (v * k))
  | multiply, .scalar a, .scalar b => some (.scalar (a * b))
  | _, _, _ => none

/-- The type of an operation. Both sides of a sum or difference have one type, which is that of the
whole; a product scales its other side by a scalar. -/
def resultType? : Operator → ValueType → ValueType → Option ValueType
  | multiply, left, right =>
    if left = .scalar then some right else if right = .scalar then some left else none
  | _, left, right => if left = right then some left else none

end Operator

end TypedCss

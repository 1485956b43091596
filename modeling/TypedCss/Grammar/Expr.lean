import TypedCss.Expr
import TypedCss.Grammar.Dispatch
import TypedCss.Grammar.Outcome

/-!
# Reading expressions

An expression is an operand followed by operators with an operand each. `expr` reads the operand
and then goes on while the next operator binds more tightly than the given power; the operand of an
operator is read with that operator's own power, so operators of one power group to the left.

A reader of an operand may be registered for the token that ends a text, which cannot be passed. A
parenthesis that opens there would be opened again and again; `expr` refuses it.
-/

namespace TypedCss.Grammar

/-! ### Operands of one token -/

/-- The number that a token's text is. -/
def number (t : Token) : Except Error Float :=
  match Decimal.read? t.value with
  | some x => .ok x
  | none => .error ⟨.numberParseError t.value, t.span.start⟩

/-- Whether a character is a hexadecimal digit. -/
def isHexDigit (c : Char) : Bool :=
  c.isDigit || ('a' ≤ c && c ≤ 'f') || ('A' ≤ c && c ≤ 'F')

/-- Whether a text is a color: one character, and three or six hexadecimal digits. -/
def isColor (text : String) : Bool :=
  let digits := text.toList.drop 1
  digits.all isHexDigit && (digits.length == 3 || digits.length == 6)

/-- The color that a token's text is. -/
def color (t : Token) : Except Error String :=
  if isColor t.value then .ok t.value else .error ⟨.invalidColor t.value, t.span.start⟩

/-- The operand that a token is, or why it is none. Most kinds of tokens are not operands. -/
def operandOf? (t : Token) : Option (Except Error Expr) :=
  let literal (v : Except Error Literal) : Except Error Expr := v.map (Expr.literal · ⟨t.span, []⟩)
  match t.kind with
  | .number => some (literal ((number t).map .scalar))
  | .pixel => some (literal ((number t).map .pixel))
  | .percentage => some (literal ((number t).map .percentage))
  | .hash => some (literal ((color t).map .color))
  | .trueWord => some (literal (.ok (.bool true)))
  | .falseWord => some (literal (.ok (.bool false)))
  | .variableName | .identifier => some (.ok (.reference t.value ⟨t.span, []⟩))
  | _ => none

/-- The token that ends a text is no operand. -/
theorem kind_ne_eof_of_operandOf? {t : Token} {r : Except Error Expr}
    (h : operandOf? t = some r) : t.kind ≠ .eof := by
  intro he
  simp [operandOf?, he] at h

/-- Reads a value or a variable. -/
def primary (c : TokenCursor) : Outcome Expr c :=
  match h : operandOf? c.current with
  | none => .error (c.unexpected "expected a literal or a variable") c .refl
  | some (.error e) => .error e c .refl
  | some (.ok e) =>
    .ok e c.advance (TokenCursor.before_advance_of_kind_ne (kind_ne_eof_of_operandOf? h))

/-! ### Operators -/

/-- The operator that a kind of token stands for. -/
def operatorOf? : TokenKind → Option Operator
  | .plus => some .add
  | .dash => some .subtract
  | .star => some .multiply
  | _ => none

/-- An operation that covers its operands. -/
def operation (op : Operator) (left right : Expr) : Expr :=
  .operation op [left, right] ⟨⟨left.span.start, right.span.stop⟩, []⟩

/-! ### Expressions -/

mutual

/-- Reads an expression whose operators bind more tightly than `power`. -/
def expr (t : Dispatch) (power : BindingPower) (c : TokenCursor) : Outcome Expr c :=
  match t.operand c.kind with
  | none => .error (c.unexpected "expected an expression") c .refl
  | some .primary =>
    match primary c with
    | .error e d h => .error e d h
    | .ok left d h => operators t power c left d h
  | some .grouping =>
    if _hc : c.ahead = [] then .error (c.unexpected "expected an expression") c .refl
    else
      match grouping t c with
      | .error e d h => .error e d h
      | .ok left d h => operators t power c left d h
termination_by 4 * c.ahead.length + 1
decreasing_by
  · have := h.shorter; omega
  · have := (TokenCursor.before_advance _hc).shorter; omega
  · have := h.shorter; omega

/-- Reads an expression between parentheses. Whatever the current token is, it is passed. -/
def grouping (t : Dispatch) (c : TokenCursor) : Outcome Expr c :=
  match (expr t .default c.advance).since c.reaches_advance with
  | .error e d h => .error e d h
  | .ok inner d h =>
    if d.kind = .closeParen then .ok inner d.advance h.advance
    else .error d.mismatch d h.reaches
termination_by 4 * c.advance.ahead.length + 2
decreasing_by omega

/-- Goes on after `left`, which was read from `start`, while operators bind more tightly than
`power`. -/
def operators (t : Dispatch) (power : BindingPower) (start : TokenCursor) (left : Expr)
    (c : TokenCursor) (h : start.Before c) : Outcome Expr start :=
  match t.operator c.kind with
  | none => .ok left c h
  | some next =>
    if next.rank ≤ power.rank then .ok left c h
    else
      match binary t left next c with
      | .error e d k => .error e d (h.reaches.trans k)
      | .ok whole d k => operators t power start whole d (h.trans k)
termination_by 4 * c.ahead.length + 3
decreasing_by
  · have := c.length_advance_le; omega
  · have := k.shorter; omega

/-- Reads an operator and its right operand, and joins them to `left`. -/
def binary (t : Dispatch) (left : Expr) (power : BindingPower) (c : TokenCursor) :
    Outcome Expr c :=
  match operatorOf? c.kind with
  | none => .error c.mismatch c.advance c.reaches_advance
  | some op => ((expr t power c.advance).since c.reaches_advance).map (operation op left)
termination_by 4 * c.advance.ahead.length + 2
decreasing_by omega

end

end TypedCss.Grammar

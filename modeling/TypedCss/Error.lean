import TypedCss.Source.Position
import TypedCss.Text.Quoted
import TypedCss.Value

/-!
# Diagnostics

An `Error` is a cause and a place. The causes fall into three groups: what makes a text unreadable
(one error, nothing else is looked at), what violates the typing rules (any number of errors, each
kept at the node that caused it), and what stops the evaluation of a tree that was never checked
or that combines values without arithmetic.

The wording of every cause is in `Cause.message`; `Cause.tip` is what a rendered report adds to the
cause's name.
-/

namespace TypedCss

/-- What went wrong. -/
inductive Cause where
  /-- No token starts with this character. -/
  | unrecognisedToken (token : String)
  /-- A token stands where another one was needed. -/
  | unexpectedToken (token : String)
  /-- A token stands where something else was needed, which `message` names. -/
  | unexpectedTokenDetailed (token message : String)
  /-- The text of a numeric token is not a number. -/
  | numberParseError (token : String)
  /-- The text of a hash token is not a color. -/
  | invalidColor (token : String)
  /-- A variable is used before it is assigned. -/
  | undefinedVariable (name : String)
  /-- The guard of a conditional is not a truth value. -/
  | invalidConditionType (found : ValueType)
  /-- An operation does not have two operands. -/
  | operandArity (operator : String) (found : Nat)
  /-- A sum or difference is of two types. -/
  | operandTypeMismatch (left right : ValueType)
  /-- A product has no scalar side. -/
  | invalidScalarOperand (left right : ValueType)
  /-- There is no such property. -/
  | unknownProperty (property : String)
  /-- A property is given a value of a type that it does not accept. -/
  | propertyTypeViolation (property reason : String)
  /-- A variable has no value when it is needed. -/
  | unboundVariable (name : String)
  /-- Two values have no arithmetic. -/
  | unfoldableOperation (operator left right : String)
  /-- The value of a guard is not a truth value. -/
  | nonBooleanCondition (found : String)
deriving DecidableEq, Inhabited

namespace Cause

/-- The name under which a cause is reported. -/
def name : Cause → String
  | unrecognisedToken .. => "UnrecognisedToken"
  | unexpectedToken .. => "UnexpectedToken"
  | unexpectedTokenDetailed .. => "UnexpectedTokenDetailed"
  | numberParseError .. => "NumberParseError"
  | invalidColor .. => "InvalidColor"
  | undefinedVariable .. => "UndefinedVariableError"
  | invalidConditionType .. => "InvalidConditionTypeError"
  | operandArity .. => "OperandArityError"
  | operandTypeMismatch .. => "OperandTypeMismatchError"
  | invalidScalarOperand .. => "InvalidScalarOperandError"
  | unknownProperty .. => "UnknownPropertyError"
  | propertyTypeViolation .. => "PropertyTypeViolationError"
  | unboundVariable .. => "UnboundVariable"
  | unfoldableOperation .. => "UnfoldableOperation"
  | nonBooleanCondition .. => "NonBooleanCondition"

/-- The cause in one sentence. -/
def message : Cause → String
  | unrecognisedToken t => "unrecognised token: " ++ Text.quote t
  | unexpectedToken t => "unexpected token: " ++ Text.quote t
  | unexpectedTokenDetailed t m =>
    "unexpected token (" ++ Text.quote m ++ "): " ++ Text.quote t
  | numberParseError t => "error parsing number: " ++ Text.quote t
  | invalidColor t => "invalid color literal: " ++ Text.quote t
  | undefinedVariable v => "variable `" ++ v ++ "` is not defined in this scope"
  | invalidConditionType t => "condition must be boolean, found `" ++ t.name ++ "`"
  | operandArity op n =>
    "operation `" ++ op ++ "` must have exactly two operands, found " ++ toString n
  | operandTypeMismatch l r =>
    "operands of + or - must be of the same type, found `" ++ l.name ++ "` and `" ++ r.name ++ "`"
  | invalidScalarOperand l r =>
    "one operand of * must be a scalar, found `" ++ l.name ++ "` * `" ++ r.name ++ "`"
  | unknownProperty p => "unknown property `" ++ p ++ "`"
  | propertyTypeViolation p reason => "property `" ++ p ++ "`: " ++ reason
  | unboundVariable v => "variable `" ++ v ++ "` has no value"
  | unfoldableOperation op l r => "cannot fold `" ++ l ++ " " ++ op ++ " " ++ r ++ "`"
  | nonBooleanCondition v => "condition evaluated to `" ++ v ++ "` instead of a boolean"

/-- What a report says beside the name of the cause, if anything. -/
def tip : Cause → Option String
  | unrecognisedToken _ => none
  | unexpectedToken t => some ("Unexpected token: `" ++ t ++ "`, did you miss a semicolon?")
  | unexpectedTokenDetailed t m => some ("Unexpected token: `" ++ t ++ "`, " ++ m)
  | invalidColor t =>
    some ("`" ++ t ++ "` is not a color, expected `#` followed by 3 or 6 hex digits")
  | cause@(unboundVariable _) | cause@(unfoldableOperation ..) | cause@(nonBooleanCondition _) =>
    some (cause.message ++ "; the stylesheet must pass type checking before evaluation")
  | cause => some cause.message

/-- Whether a cause is a violation of the typing rules. -/
def isSemantic : Cause → Bool
  | undefinedVariable _ | invalidConditionType _ | operandArity .. | operandTypeMismatch ..
  | invalidScalarOperand .. | unknownProperty _ | propertyTypeViolation .. => true
  | _ => false

end Cause

/-- A cause and the place where it arose. -/
structure Error where
  /-- What went wrong. -/
  cause : Cause
  /-- Where it went wrong. -/
  position : Position
deriving DecidableEq, Inhabited

end TypedCss

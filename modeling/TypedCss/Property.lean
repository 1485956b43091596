import TypedCss.Value

/-!
# Properties

The properties that a declaration may give a value to, and the types of values that they accept.
-/

namespace TypedCss

/-- What a property accepts. -/
inductive PropertyKind where
  /-- Anything but a color. -/
  | dimension
  /-- Colors only. -/
  | color
deriving DecidableEq, Inhabited

namespace PropertyKind

/-- Whether a property of this kind accepts values of a type. -/
def accepts : PropertyKind → ValueType → Bool
  | dimension, t => t != .color
  | color, t => t == .color

/-- Why a value is not accepted. -/
def violation : PropertyKind → String
  | dimension => "color not allowed"
  | color => "only colors allowed"

/-- The kind of the property with the given name. -/
def ofName? (property : String) : Option PropertyKind :=
  match property with
  | "width" | "height" => some dimension
  | "color" | "background-color" => some color
  | _ => none

end PropertyKind

end TypedCss

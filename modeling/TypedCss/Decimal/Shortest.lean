import TypedCss.Decimal.Dyadic

/-!
# Shortest decimals

A float stands for all real numbers that round to it, and it is written with the fewest digits of
any of them. Of the decimals with that many digits the closest to the float is taken, the larger
one of two that are equally close.

The decimals with a given last place form a grid. Only the two grid points next to the float can
be the closest one that still rounds to it, so the search tries those two on ever finer grids,
from the grid of the leading digit on.
-/

namespace TypedCss.Decimal

/-- The number `digits * 10 ^ exponent`. -/
structure Scaled where
  /-- The integer that the digits make up. -/
  digits : Nat
  /-- The place of the last digit. -/
  exponent : Int
deriving DecidableEq

namespace Dyadic

/-! ### The numbers that round to a float

They are given in quarters of the mantissa's unit, `2 ^ (exponent - 2)`. -/

/-- The float itself. -/
def middle (x : Dyadic) : Nat := 4 * x.mantissa

/-- The upper bound, half-way to the next float. -/
def upper (x : Dyadic) : Nat := 4 * x.mantissa + 2

/-- The lower bound, half-way to the previous float, which is nearer below a power of two. -/
def lower (x : Dyadic) : Nat :=
  if x.mantissa = leadingOne ∧ -1074 < x.exponent then 4 * x.mantissa - 1 else 4 * x.mantissa - 2

/-- Whether `n` rounds to `x`, where `lo` and `hi` are the bounds in the unit of `n`. The bounds
themselves round to the float with the even mantissa. -/
def accepts (x : Dyadic) (lo hi n : Nat) : Bool :=
  if x.mantissa % 2 = 0 then lo ≤ n && n ≤ hi else lo < n && n < hi

/-! ### Decimal grids -/

/-- The size of a step of the grid `10 ^ e`, in the unit that it shares with `quarter`. -/
def step (x : Dyadic) (e : Int) : Nat :=
  Nat.pow 10 e.toNat * Nat.pow 2 (2 - x.exponent).toNat

/-- The size of a quarter of the mantissa's unit, in the unit that it shares with `step`. -/
def quarter (x : Dyadic) (e : Int) : Nat :=
  Nat.pow 10 (-e).toNat * Nat.pow 2 (x.exponent - 2).toNat

/-- The point of the grid `10 ^ e` that is closest to `x` among those that round to it. -/
def onGrid? (x : Dyadic) (e : Int) : Option Nat :=
  let a := x.step e
  let b := x.quarter e
  let d := x.middle * b / a
  let fits := x.accepts (x.lower * b) (x.upper * b)
  match fits (d * a), fits ((d + 1) * a) with
  | true, true => some (if 2 * (x.middle * b) < (2 * d + 1) * a then d else d + 1)
  | true, false => some d
  | false, true => some (d + 1)
  | false, false => none

/-- The number of decimal digits of a natural number. -/
def digitCount (n : Nat) : Nat := (Nat.toDigits 10 n).length

/-- The exponent of the leading decimal digit of `x`. -/
def leadingExponent (x : Dyadic) : Int :=
  let num := x.middle * x.quarter 0
  let den := x.step 0
  if den ≤ num then (digitCount (num / den) : Int) - 1
  else
    let j := digitCount (den / num)
    if den ≤ num * Nat.pow 10 (j - 1) then 1 - (j : Int) else -(j : Int)

/-- All digits of `x`, of which there are finitely many. -/
def exact (x : Dyadic) : Scaled :=
  ⟨x.mantissa * Nat.pow 2 x.exponent.toNat * Nat.pow 5 (-x.exponent).toNat, min x.exponent 0⟩

/-- The shortest decimal that rounds to `x`. Seventeen digits tell all floats apart, so no finer
grid is tried. -/
def shortest (x : Dyadic) : Scaled :=
  ((List.range 17).findSome? fun (i : Nat) ↦
    let e := x.leadingExponent - (i : Int)
    (x.onGrid? e).map fun d ↦ ⟨d, e⟩).getD x.exact

end Dyadic

end TypedCss.Decimal

/-!
# Floats as exact numbers

A finite float is an integer times a power of two. `Dyadic` holds the two, `Dyadic.ofFloat` takes a
float apart, and `nearest` goes the other way from any fraction: it gives the float closest to it,
the one with the even mantissa where two are equally close. Everything between is arithmetic on
natural numbers.
-/

namespace TypedCss.Decimal

/-- The number `mantissa * 2 ^ exponent`. -/
structure Dyadic where
  /-- The integer, which is less than `2 ^ 53` if the number is a float. -/
  mantissa : Nat
  /-- The power of two. -/
  exponent : Int
deriving DecidableEq

/-- The weight of the bit above the fraction field of a float's bits: `2 ^ 52`. -/
def leadingOne : Nat := Nat.pow 2 52

namespace Dyadic

/-- The exponent field of a float's bits. -/
def exponentField (bits : Nat) : Nat := bits / leadingOne % 0x800

/-- The fraction field of a float's bits. -/
def fractionField (bits : Nat) : Nat := bits % leadingOne

/-- The magnitude of the finite float with the given bits. Floats with exponent field zero lack the
leading one that all others leave unwritten. -/
def ofBits (bits : Nat) : Dyadic :=
  if exponentField bits = 0 then ⟨fractionField bits, -1074⟩
  else ⟨leadingOne + fractionField bits, exponentField bits - 1075⟩

/-- The magnitude of a finite float. -/
def ofFloat (x : Float) : Dyadic := ofBits x.toBits.toNat

end Dyadic

/-- The quotient rounded to the closest integer, to the even one of two that are equally close. -/
def roundDiv (num den : Nat) : Nat :=
  let q := num / den
  match compare (2 * (num % den)) den with
  | .lt => q
  | .gt => q + 1
  | .eq => if q % 2 = 0 then q else q + 1

/-- A rounded quotient is within half a unit of the exact one. -/
theorem roundDiv_near {num den : Nat} (h : 0 < den) :
    2 * (roundDiv num den * den) ≤ 2 * num + den ∧
      2 * num ≤ 2 * (roundDiv num den * den) + den := by
  have e : den * (num / den) + num % den = num := Nat.div_add_mod num den
  have l : num % den < den := Nat.mod_lt _ h
  have m : (num / den + 1) * den = den * (num / den) + den := by
    rw [Nat.add_mul, Nat.mul_comm, Nat.one_mul]
  have m' : num / den * den = den * (num / den) := Nat.mul_comm ..
  simp only [roundDiv]
  split <;> rename_i hc
  · rw [Nat.compare_eq_lt] at hc; omega
  · rw [Nat.compare_eq_gt] at hc; omega
  · rw [Nat.compare_eq_eq] at hc; split <;> omega

/-- The exponent of the last mantissa bit of the float closest to `num / den`, before rounding:
53 bits are kept, fewer below the smallest exponent. -/
def lastPlace (num den : Nat) : Int :=
  let guess : Int := (num.log2 : Int) - den.log2 - 52
  let kept :=
    if num * Nat.pow 2 (-(guess + 52)).toNat < den * Nat.pow 2 (guess + 52).toNat then guess - 1
    else guess
  max kept (-1074)

/-- The bits of the float closest to `num / den`. A mantissa that rounds up to the next power of
two carries into the exponent field by itself, and one beyond the largest float is infinite. -/
def nearestBits (num den : Nat) : Nat :=
  let q := lastPlace num den
  let m := roundDiv (num * Nat.pow 2 (-q).toNat) (den * Nat.pow 2 q.toNat)
  let bits := if m < leadingOne then m else (q + 1074).toNat * leadingOne + m
  min bits (0x7FF * leadingOne)

/-- The float closest to `num / den`. -/
def nearest (num den : Nat) : Float :=
  if num = 0 then 0 else Float.ofBits (UInt64.ofNat (nearestBits num den))

/-- The float that stands for all numbers beyond the largest one. -/
def infinity : Float := nearest (Nat.pow 2 1024) 1

end TypedCss.Decimal

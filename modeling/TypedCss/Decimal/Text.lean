import TypedCss.Decimal.Shortest

/-!
# Numbers in text

`text` writes a float with its shortest digits and never with an exponent; a whole number has no
point. `read?` accepts more than that: a sign, a point at either end, an exponent of any size, and
the words for infinity and for no number at all, in any case of letters. It rounds what it reads
to the closest float.
-/

namespace TypedCss.Decimal

/-! ### Writing -/

/-- The digits of a scaled number, placed around the point. Zeros fill the places between digits
and point, and the fraction ends in a digit other than zero. -/
def Scaled.text (s : Scaled) : List Char :=
  let digits := Nat.toDigits 10 s.digits
  let places := (-s.exponent).toNat
  if places = 0 then digits ++ List.replicate s.exponent.toNat '0'
  else
    let padded := List.replicate (places + 1 - digits.length) '0' ++ digits
    let whole := padded.take (padded.length - places)
    let fraction := (padded.drop (padded.length - places)).reverse.dropWhile (· == '0') |>.reverse
    if fraction.isEmpty then whole else whole ++ '.' :: fraction

/-- The text of a float without its sign. -/
def magnitude (x : Float) : String :=
  if x.isInf then "inf"
  else if x == 0 then "0"
  else String.ofList (Dyadic.ofFloat x).shortest.text

/-- The text of a float. Zero and infinity keep their sign. -/
def text (x : Float) : String :=
  if x.isNaN then "NaN"
  else if x.toBits.toNat < Nat.pow 2 63 then magnitude x
  else "-" ++ magnitude x

/-! ### Reading -/

/-- The number that a list of decimal digits stands for. -/
def ofDigits (ds : List Char) : Nat :=
  ds.foldl (fun n d ↦ 10 * n + (d.toNat - '0'.toNat)) 0

/-- Reads an exponent, which is zero if nothing is left to read. -/
def exponent? : List Char → Option Int
  | [] => some 0
  | mark :: cs =>
    if mark = 'e' ∨ mark = 'E' then
      let (negative, ds) := match cs with
        | '-' :: ds => (true, ds)
        | '+' :: ds => (false, ds)
        | ds => (false, ds)
      if ds.isEmpty || !ds.all Char.isDigit then none
      else some (if negative then -(ofDigits ds : Int) else (ofDigits ds : Int))
    else none

/-- The float closest to `digits * 10 ^ e`. The two outer cases are beyond all floats, however long
the exponent, and need no power of ten. -/
def ofScaled (digits : Nat) (e : Int) : Float :=
  let places := e + Dyadic.digitCount digits
  if digits = 0 ∨ places < -400 then 0
  else if 400 < places then infinity
  else nearest (digits * Nat.pow 10 e.toNat) (Nat.pow 10 (-e).toNat)

/-- Reads digits with an optional point and exponent. -/
def digits? (cs : List Char) : Option Float :=
  let whole := cs.takeWhile Char.isDigit
  let (fraction, rest) := match cs.dropWhile Char.isDigit with
    | '.' :: r => (r.takeWhile Char.isDigit, r.dropWhile Char.isDigit)
    | r => ([], r)
  if whole.isEmpty && fraction.isEmpty then none
  else (exponent? rest).map fun e ↦ ofScaled (ofDigits (whole ++ fraction)) (e - fraction.length)

/-- Reads a number without a sign. -/
def unsigned? (cs : List Char) : Option Float :=
  let word := String.ofList (cs.map Char.toLower)
  if word = "inf" ∨ word = "infinity" then some infinity
  else if word = "nan" then some (0 / 0)
  else digits? cs

/-- Reads a number. -/
def read? (s : String) : Option Float :=
  match s.toList with
  | '-' :: cs => (unsigned? cs).map fun x ↦ -x
  | '+' :: cs => unsigned? cs
  | cs => unsigned? cs

end TypedCss.Decimal

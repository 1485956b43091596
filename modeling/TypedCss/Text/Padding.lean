/-!
# Padding

A text is padded to a width, up to a greatest width: there is no text for a greater one.
-/

namespace TypedCss.Text

/-- The greatest width that a text can be padded to. -/
def maxWidth : Nat := 65535

/-- A sign with as many fillers before it as make up `width` characters. -/
def padLeft? (filler : Char) (width : Nat) (sign : String) : Option String :=
  if width ≤ maxWidth then
    some (String.ofList (List.replicate (width - sign.length) filler) ++ sign)
  else none

/-- Up to the limit, a text is filled up to its width. -/
theorem padLeft?_of_le {filler : Char} {width : Nat} {sign : String} (h : width ≤ maxWidth) :
    padLeft? filler width sign =
      some (String.ofList (List.replicate (width - sign.length) filler) ++ sign) := if_pos h

/-- Past the limit, and only there, nothing is given. -/
theorem padLeft?_eq_none_iff {filler : Char} {width : Nat} {sign : String} :
    padLeft? filler width sign = none ↔ maxWidth < width := by
  rw [← Nat.not_le]
  constructor
  · intro h hle
    rw [padLeft?_of_le hle] at h
    cases h
  · exact fun h ↦ if_neg h

end TypedCss.Text

/-!
# Lengths in bytes

Offsets into a source count the bytes of its UTF-8 encoding, while the source itself is a list of
characters. `byteLength` converts between the two, and `dropBytes` cuts a text at a byte offset.

The two agree where it matters: `dropBytes_byteLength_append` says that dropping the bytes of a
first part leaves exactly the second.
-/

namespace TypedCss.Text

/-- The number of bytes that the UTF-8 encoding of a text takes. -/
def byteLength : List Char → Nat
  | [] => 0
  | c :: cs => c.utf8Size + byteLength cs

@[simp] theorem byteLength_nil : byteLength [] = 0 := rfl

@[simp] theorem byteLength_cons (c : Char) (cs : List Char) :
    byteLength (c :: cs) = c.utf8Size + byteLength cs := rfl

@[simp] theorem byteLength_append (xs ys : List Char) :
    byteLength (xs ++ ys) = byteLength xs + byteLength ys := by
  induction xs with
  | nil => simp
  | cons c xs ih => rw [List.cons_append, byteLength_cons, byteLength_cons, ih, Nat.add_assoc]

/-- Every character takes at least one byte, so only the empty text has length zero. -/
theorem byteLength_pos {cs : List Char} (h : cs ≠ []) : 0 < byteLength cs := by
  cases cs with
  | nil => exact absurd rfl h
  | cons c cs => exact Nat.lt_of_lt_of_le c.utf8Size_pos (Nat.le_add_right ..)

theorem length_le_byteLength (cs : List Char) : cs.length ≤ byteLength cs := by
  induction cs with
  | nil => exact Nat.le_refl _
  | cons c cs ih =>
    have := c.utf8Size_pos
    rw [List.length_cons, byteLength_cons]
    omega

/-- The text without its first `n` bytes. A character that begins before the cut is dropped
whole. -/
def dropBytes : Nat → List Char → List Char
  | _, [] => []
  | n, c :: cs => if n = 0 then c :: cs else dropBytes (n - c.utf8Size) cs

@[simp] theorem dropBytes_zero (cs : List Char) : dropBytes 0 cs = cs := by
  cases cs <;> rfl

/-- Cutting at the end of a first part leaves the second part. -/
theorem dropBytes_byteLength_append (xs ys : List Char) :
    dropBytes (byteLength xs) (xs ++ ys) = ys := by
  induction xs with
  | nil => exact dropBytes_zero ys
  | cons c xs ih =>
    have hc : c.utf8Size + byteLength xs ≠ 0 := by have := c.utf8Size_pos; omega
    rw [List.cons_append, byteLength_cons, dropBytes, if_neg hc, Nat.add_sub_cancel_left, ih]

end TypedCss.Text

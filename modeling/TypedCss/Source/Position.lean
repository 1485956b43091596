/-!
# Positions and spans

A position is a byte offset into a named file; offsets are 32-bit words. A span is the stretch
between two positions, the second of which is just past its end. Tokens, nodes of the tree and
diagnostics all say where they stand in these terms.
-/

namespace TypedCss

/-- A place in a source file. -/
structure Position where
  /-- The number of bytes before the place. -/
  offset : UInt32
  /-- The name of the file. -/
  file : String
deriving DecidableEq, Inhabited

namespace Position

/-- The position of what was not read from any file. -/
def null : Position := ⟨0, "<null>"⟩

/-- The position `n` bytes into a file. -/
def ofNat (file : String) (n : Nat) : Position := ⟨UInt32.ofNat n, file⟩

/-- Files shorter than `2 ^ 32` bytes have room for all their offsets. -/
theorem toNat_offset_ofNat {file : String} {n : Nat} (h : n < UInt32.size) :
    (ofNat file n).offset.toNat = n :=
  UInt32.toNat_ofNat_of_lt h

end Position

/-- A stretch of a source file. -/
structure Span where
  /-- The first position of the stretch. -/
  start : Position
  /-- The position just past the stretch. -/
  stop : Position
deriving DecidableEq, Inhabited

namespace Span

/-- The span of what was not read from any file. -/
def null : Span := ⟨Position.null, Position.null⟩

/-- The empty span at a position. -/
def empty (p : Position) : Span := ⟨p, p⟩

end Span

end TypedCss

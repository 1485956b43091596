import TypedCss.Error

/-!
# What every node carries

Each node of a tree knows the span it was read from and the diagnostics that were reported on it.
Diagnostics are only ever added, at the end, and each is placed at the start of the node's span.
-/

namespace TypedCss

/-- A node's span and its diagnostics. -/
structure Info where
  /-- Where the node stands. -/
  span : Span
  /-- What was reported on the node itself, the latest last. -/
  diagnostics : List Error := []
deriving DecidableEq, Inhabited

namespace Info

/-- The node's first position, where its diagnostics are placed. -/
def start (info : Info) : Position := info.span.start

/-- Whether nothing was reported on the node. -/
def isClean (info : Info) : Bool := info.diagnostics.isEmpty

/-- Adds a diagnostic. -/
def report (info : Info) (cause : Cause) : Info :=
  { info with diagnostics := info.diagnostics ++ [⟨cause, info.start⟩] }

/-- The same span without diagnostics. -/
def bare (info : Info) : Info := ⟨info.span, []⟩

@[simp] theorem span_report (info : Info) (cause : Cause) :
    (info.report cause).span = info.span := rfl

@[simp] theorem diagnostics_report (info : Info) (cause : Cause) :
    (info.report cause).diagnostics = info.diagnostics ++ [⟨cause, info.start⟩] := rfl

@[simp] theorem bare_report (info : Info) (cause : Cause) :
    (info.report cause).bare = info.bare := rfl

end Info

end TypedCss

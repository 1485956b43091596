import TypedCss.Token.TokenCursor

/-!
# What reading tokens gives

A reader starts at a cursor and either gives a value and the cursor after it, or an error and the
cursor where it arose. `Outcome α c` says both, for a reader that starts at `c`, and with them that
a success leads to a later cursor and that a failure does not go back. Readers that call each other
end because of these two facts.
-/

namespace TypedCss.Grammar

/-- What a reader of `α` that starts at `c` gives. -/
inductive Outcome (α : Type) (c : TokenCursor) where
  /-- A value, and the cursor after it. -/
  | ok (value : α) (stop : TokenCursor) (later : c.Before stop)
  /-- An error, and the cursor where it arose. -/
  | error (e : Error) (stop : TokenCursor) (reached : c.Reaches stop)

namespace Outcome

variable {α β : Type} {b c : TokenCursor}

/-- The value or the error. -/
def result : Outcome α c → Except Error α
  | ok a _ _ => .ok a
  | error e _ _ => .error e

/-- The cursor where the reader stopped. -/
def stop : Outcome α c → TokenCursor
  | ok _ d _ => d
  | error _ d _ => d

/-- The same outcome, seen from an earlier cursor. -/
def since (h : b.Reaches c) : Outcome α c → Outcome α b
  | ok a d k => .ok a d (h.trans_before k)
  | error e d k => .error e d (h.trans k)

/-- Changes the value of a success. -/
def map (f : α → β) : Outcome α c → Outcome β c
  | ok a d k => .ok (f a) d k
  | error e d k => .error e d k

/-- A reader does not go back. -/
theorem reaches_stop (o : Outcome α c) : c.Reaches o.stop := by
  cases o with
  | ok _ _ h => exact h.reaches
  | error _ _ h => exact h

@[simp] theorem result_since (h : b.Reaches c) (o : Outcome α c) :
    (o.since h).result = o.result := by
  cases o <;> rfl

@[simp] theorem stop_since (h : b.Reaches c) (o : Outcome α c) : (o.since h).stop = o.stop := by
  cases o <;> rfl

@[simp] theorem result_map (f : α → β) (o : Outcome α c) :
    (o.map f).result = o.result.map f := by
  cases o <;> rfl

@[simp] theorem stop_map (f : α → β) (o : Outcome α c) : (o.map f).stop = o.stop := by
  cases o <;> rfl

end Outcome

end TypedCss.Grammar

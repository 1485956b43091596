import TypedCss.Error
import TypedCss.Token

/-!
# A place in a list of tokens

A `TokenCursor` splits a list of tokens into those passed and those ahead. The token that ends the
list is kept apart from the others, so there is always a current token, and the cursor cannot go
past the last one: `advance` then stays where it is.

`Reaches c d` says that `d` is reached from `c` by advancing, and `Before c d` that it is reached
and has fewer tokens ahead; readers of tokens end because each round of them leads to a later
cursor.
-/

namespace TypedCss

/-- The token that ends a list of tokens. Its kind is always `eof`. -/
structure EndToken where
  /-- The text. -/
  value : String
  /-- Where the token stands. -/
  span : Span
deriving DecidableEq

namespace EndToken

/-- The end of a list as a token like the others. -/
def toToken (t : EndToken) : Token := ⟨.eof, t.value, t.span⟩

end EndToken

/-- A place in a list of tokens. -/
structure TokenCursor where
  /-- The name of the file. -/
  file : String
  /-- The tokens before the current one, the latest first. -/
  passed : List Token
  /-- The tokens from the current one on, without the last. -/
  ahead : List Token
  /-- The last token. -/
  last : EndToken
deriving DecidableEq

namespace TokenCursor

/-- The start of a list of tokens. A list that does not end with an `eof` token is given one. -/
def ofTokens (tokens : List Token) (file : String) : TokenCursor :=
  match tokens.getLast? with
  | none => ⟨file, [], [], ⟨"EOF", .empty ⟨0, file⟩⟩⟩
  | some t =>
    if t.kind = .eof then ⟨file, [], tokens.dropLast, ⟨t.value, t.span⟩⟩
    else ⟨file, [], tokens, ⟨"EOF", .empty t.span.stop⟩⟩

/-! ### Looking -/

/-- The current token. -/
def current (c : TokenCursor) : Token := c.ahead.headD c.last.toToken

/-- The kind of the current token. -/
def kind (c : TokenCursor) : TokenKind := c.current.kind

/-- The kind of the token `n` places further on; past the end it is `eof`. -/
def peek (c : TokenCursor) (n : Nat) : TokenKind := (c.ahead[n]?.map Token.kind).getD .eof

/-- Whether the current token is not an end. An `eof` token in the middle counts as one. -/
def hasTokens (c : TokenCursor) : Bool := c.kind != .eof

/-- Where the current token starts. -/
def position (c : TokenCursor) : Position := c.current.span.start

/-- Where the token passed last ends, or the start of the file. -/
def lastPosition (c : TokenCursor) : Position :=
  match c.passed with
  | [] => ⟨0, c.file⟩
  | t :: _ => t.span.stop

/-- The span from the start of one token to the end of the token passed last. -/
def spanFrom (c : TokenCursor) (start : Position) : Span := ⟨start, c.lastPosition⟩

/-- Only the last token has none ahead, and its kind is `eof`. -/
theorem ahead_ne_nil_of_kind_ne {c : TokenCursor} (h : c.kind ≠ .eof) : c.ahead ≠ [] := by
  intro he
  exact h (by simp [kind, current, he, EndToken.toToken])

/-! ### Moving -/

/-- The cursor at the next token; the last token has no next one. -/
def advance (c : TokenCursor) : TokenCursor :=
  match c.ahead with
  | [] => c
  | t :: ts => { c with passed := t :: c.passed, ahead := ts }

/-- `Reaches c d` says that `d` is `c` after some number of steps. -/
inductive Reaches (c : TokenCursor) : TokenCursor → Prop where
  /-- No step. -/
  | refl : Reaches c c
  /-- One step more. -/
  | step {d : TokenCursor} : Reaches c d → Reaches c d.advance

/-- `Before c d` says that `d` is reached from `c` and has fewer tokens ahead. -/
structure Before (c d : TokenCursor) : Prop where
  /-- The later cursor is reached. -/
  reaches : Reaches c d
  /-- At least one token was passed. -/
  shorter : d.ahead.length < c.ahead.length

theorem length_advance_le (c : TokenCursor) : c.advance.ahead.length ≤ c.ahead.length := by
  unfold advance
  split <;> simp [*]

theorem reaches_advance (c : TokenCursor) : Reaches c c.advance := .step .refl

namespace Reaches

variable {c d e : TokenCursor}

theorem trans (h : Reaches c d) (k : Reaches d e) : Reaches c e := by
  induction k with
  | refl => exact h
  | step _ ih => exact .step ih

/-- A cursor that is reached has no more tokens ahead. -/
theorem length_le (h : Reaches c d) : d.ahead.length ≤ c.ahead.length := by
  induction h with
  | refl => exact Nat.le_refl _
  | step _ ih => exact Nat.le_trans (length_advance_le _) ih

theorem trans_before (h : Reaches c d) (k : Before d e) : Before c e :=
  ⟨h.trans k.reaches, Nat.lt_of_lt_of_le k.shorter h.length_le⟩

end Reaches

namespace Before

variable {c d e : TokenCursor}

theorem trans_reaches (h : Before c d) (k : Reaches d e) : Before c e :=
  ⟨h.reaches.trans k, Nat.lt_of_le_of_lt k.length_le h.shorter⟩

theorem trans (h : Before c d) (k : Before d e) : Before c e := h.trans_reaches k.reaches

/-- Passing one token more leads further. -/
theorem advance (h : Before c d) : Before c d.advance := h.trans_reaches d.reaches_advance

end Before

/-- Advancing from any token but the last one leads to a later cursor. -/
theorem before_advance {c : TokenCursor} (h : c.ahead ≠ []) : Before c c.advance := by
  refine ⟨c.reaches_advance, ?_⟩
  unfold advance
  split
  · contradiction
  · simp [*]

/-- Advancing over a token that is not an end leads to a later cursor. -/
theorem before_advance_of_kind_ne {c : TokenCursor} (h : c.kind ≠ .eof) : Before c c.advance :=
  before_advance (ahead_ne_nil_of_kind_ne h)

/-! ### Refusing -/

/-- The error that a token stands where another one was needed. -/
def mismatch (c : TokenCursor) : Error := ⟨.unexpectedToken c.current.value, c.position⟩

/-- The error that the current token is not what `message` says. -/
def unexpected (c : TokenCursor) (message : String) : Error :=
  ⟨.unexpectedTokenDetailed c.current.value message, c.position⟩

/-- Takes the current token if it is of the given kind; fails with the given error and stays
otherwise. -/
def takeOr (c : TokenCursor) (kind : TokenKind) (e : Error) : Except Error Token × TokenCursor :=
  if c.kind = kind then (.ok c.current, c.advance) else (.error e, c)

/-- Takes the current token if it is of the given kind. -/
def take (c : TokenCursor) (kind : TokenKind) : Except Error Token × TokenCursor :=
  c.takeOr kind c.mismatch

end TokenCursor

end TypedCss

import Mathlib.Data.List.Basic
import TypedCss.Proofs.Grammar.Bounded

/-!
# Progress of readers

A cursor goes through a list of tokens in one direction. Whatever is called on it, in whatever
order, the list stays the same and the cursor stands at one of its tokens, the last of which is an
end (`TokenCursor.Reaches.tokens_eq`, `TokenCursor.getElem?_index`).

A `Call` is anything that a cursor can be asked for. Each call ends, and it needs no more nested
calls and rounds than the tokens ahead allow; it does not go back; a token that is refused stays
where it is; and a reader that succeeds takes at least one token (`Call.Proceeds`). By induction
this is so at every point of a sequence of calls (`Call.all_proceed`).
-/

namespace TypedCss

/-- A list of tokens with its end. One is added if the list does not have it. -/
def Token.withEnd (tokens : List Token) (file : String) : List Token :=
  if tokens.getLast?.map Token.kind = some .eof then tokens
  else tokens ++ [⟨.eof, "EOF", .empty ((tokens.getLast?.map (·.span.stop)).getD ⟨0, file⟩)⟩]

/-- The last token of a list that was given an end is an end. -/
theorem Token.kind_getLast?_withEnd (tokens : List Token) (file : String) :
    (Token.withEnd tokens file).getLast?.map Token.kind = some .eof := by
  rw [withEnd]
  split
  · assumption
  · rw [List.getLast?_concat]
    rfl

namespace TokenCursor

variable {c d : TokenCursor}

/-! ### The tokens of a cursor -/

/-- All tokens of the list that a cursor goes through. -/
def tokens (c : TokenCursor) : List Token := c.passed.reverse ++ (c.ahead ++ [c.last.toToken])

/-- A cursor stands between the tokens that were passed and those ahead. -/
theorem length_tokens (c : TokenCursor) : c.tokens.length = c.index + c.ahead.length + 1 := by
  rw [tokens, index, List.length_append, List.length_append, List.length_reverse]
  exact (Nat.add_assoc ..).symm

/-- A cursor stands at a token of its list. -/
theorem getElem?_index (c : TokenCursor) : c.tokens[c.index]? = some c.current := by
  rw [tokens, index, ← List.length_reverse, List.getElem?_append_right (Nat.le_refl _),
    Nat.sub_self, current]
  cases c.ahead <;> rfl

/-- Going on changes no token. -/
theorem tokens_advance (c : TokenCursor) : c.advance.tokens = c.tokens := by
  obtain ⟨file, passed, ahead, last⟩ := c
  cases ahead with
  | nil => rfl
  | cons t ts => simp [advance, tokens]

/-- What is reached goes through the same list. -/
theorem Reaches.tokens_eq (h : c.Reaches d) : d.tokens = c.tokens := by
  induction h with
  | refl => rfl
  | step _ ih => exact (tokens_advance _).trans ih

/-- Advancing leads to the next token, and stays at the last one. -/
theorem index_advance (c : TokenCursor) :
    c.advance.index = min (c.index + 1) (c.tokens.length - 1) := by
  rw [length_tokens]
  obtain ⟨file, passed, ahead, last⟩ := c
  cases ahead with
  | nil => simp [advance, index]
  | cons t ts => simp [advance, index]

theorem tokens_ofTokens (tokens : List Token) (file : String) :
    (ofTokens tokens file).tokens = Token.withEnd tokens file := by
  rw [ofTokens, Token.withEnd]
  cases h : tokens.getLast? with
  | none =>
    obtain rfl := List.getLast?_eq_none_iff.1 h
    rfl
  | some t =>
    obtain ⟨front, rfl⟩ := List.getLast?_eq_some_iff.1 h
    obtain ⟨kind, value, span⟩ := t
    by_cases hk : kind = .eof
    · subst hk
      simp [TokenCursor.tokens, EndToken.toToken]
    · simp [hk, TokenCursor.tokens, EndToken.toToken]

end TokenCursor

namespace Grammar

/-! ### Calls -/

/-- The readers that can be called. -/
inductive Reading where
  /-- An expression with a power. -/
  | expr (power : BindingPower)
  /-- A value or a variable. -/
  | primary
  /-- An expression between parentheses. -/
  | grouping
  /-- An operator and its right operand. -/
  | binary (left : Expr) (power : BindingPower)
  /-- A statement. -/
  | stmt
  /-- An assignment. -/
  | assignment
  /-- A declaration. -/
  | declaration
  /-- A conditional. -/
  | conditional
  /-- A block. -/
  | block
  /-- A rule. -/
  | rule
  /-- An item. -/
  | item

/-- What a cursor can be asked for. -/
inductive Call where
  /-- Go on to the next token. -/
  | advance
  /-- Take a token of a kind. -/
  | take (kind : TokenKind)
  /-- Take a token of a kind, or give the error. -/
  | takeOr (kind : TokenKind) (e : Error)
  /-- Read something. -/
  | read (p : Reading)

/-- What a call gives. -/
inductive Answer where
  | token (t : Token)
  | expr (e : Expr)
  | stmt (s : Stmt)
  | block (body : List Stmt)
  | rule (r : Rule)
  | item (i : Item)

namespace Reading

/-- What is read at a cursor, with the decisions of the language. -/
def outcome (c : TokenCursor) : Reading → Outcome Answer c
  | expr power => (Grammar.expr .standard power c).map .expr
  | primary => (Grammar.primary c).map .expr
  | grouping => (Grammar.grouping .standard c).map .expr
  | binary left power => (Grammar.binary .standard left power c).map .expr
  | stmt => (Grammar.stmt .standard c).map .stmt
  | assignment => (Grammar.assignment .standard c).map fun a ↦ .stmt (.assignment a)
  | declaration => (Grammar.declaration .standard c).map fun a ↦ .stmt (.declaration a)
  | conditional => (Grammar.conditional .standard c).map .stmt
  | block => (Grammar.block .standard c).map .block
  | rule => (Grammar.rule .standard c).map .rule
  | item => (Grammar.item .standard c).map .item

/-- What is read at a cursor within a bound. -/
def attempt (n : Nat) (c : TokenCursor) : Reading → Attempt Answer
  | expr power => (Bounded.expr n power c).map .expr
  | primary => (Bounded.primary c).map .expr
  | grouping => (Bounded.grouping n c).map .expr
  | binary left power => (Bounded.binary n left power c).map .expr
  | stmt => (Bounded.stmt n c).map .stmt
  | assignment => (Bounded.assignment n c).map fun a ↦ .stmt (.assignment a)
  | declaration => (Bounded.declaration n c).map fun a ↦ .stmt (.declaration a)
  | conditional => (Bounded.conditional n c).map .stmt
  | block => (Bounded.block n c).map .block
  | rule => (Bounded.rule n c).map .rule
  | item => (Bounded.item n c).map .item

/-- A bound of twice the tokens ahead and three is enough for every reader. -/
theorem attempt_eq {n : Nat} {c : TokenCursor} (hn : 2 * c.ahead.length + 3 ≤ n) (p : Reading) :
    p.attempt n c = (p.outcome c).attempt := by
  have hadvance := c.length_advance_le
  cases p with
  | expr power =>
    rw [attempt, outcome, Bounded.expr_eq n power c (by omega), Outcome.attempt_map]
  | primary => rw [attempt, outcome, Bounded.primary_eq, Outcome.attempt_map]
  | grouping =>
    rw [attempt, outcome, Bounded.grouping_eq n c (by omega), Outcome.attempt_map]
  | binary left power =>
    rw [attempt, outcome, Bounded.binary_eq n left power c (by omega), Outcome.attempt_map]
  | stmt => rw [attempt, outcome, Bounded.stmt_eq n c (by omega), Outcome.attempt_map]
  | assignment =>
    rw [attempt, outcome, Bounded.assignment_eq c (by omega), Outcome.attempt_map]
  | declaration =>
    rw [attempt, outcome, Bounded.declaration_eq c (by omega), Outcome.attempt_map]
  | conditional =>
    rw [attempt, outcome, Bounded.conditional_eq n c (by omega), Outcome.attempt_map]
  | block => rw [attempt, outcome, Bounded.block_eq n c (by omega), Outcome.attempt_map]
  | rule => rw [attempt, outcome, Bounded.rule_eq c (by omega), Outcome.attempt_map]
  | item => rw [attempt, outcome, Bounded.item_eq c (by omega), Outcome.attempt_map]

end Reading

/-- A success leads further, whatever token it began at. -/
theorem Outcome.before_stop {α : Type} {c : TokenCursor} {o : Outcome α c} {x : α}
    (h : o.result = .ok x) : c.Before o.stop := by
  cases o with
  | ok _ _ k => exact k
  | error _ _ _ => cases h

namespace Call

/-- Carries out a call, and gives the cursor after it. -/
def perform (c : TokenCursor) : Call → Except Error Answer × TokenCursor
  | advance => (.ok (.token c.current), c.advance)
  | take kind => ((c.take kind).1.map .token, (c.take kind).2)
  | takeOr kind e => ((c.takeOr kind e).1.map .token, (c.takeOr kind e).2)
  | read p => ((p.outcome c).result, (p.outcome c).stop)

/-- Carries out a call within a bound. -/
def attempt (n : Nat) (c : TokenCursor) : Call → Attempt Answer
  | advance => .ended (.ok (.token c.current)) c.advance
  | take kind => (Bounded.take kind c).map .token
  | takeOr kind e => (Attempt.ended (c.takeOr kind e).1 (c.takeOr kind e).2).map .token
  | read p => p.attempt n c

/-- The cursor after a sequence of calls. -/
def after (c : TokenCursor) (calls : List Call) : TokenCursor :=
  calls.foldl (fun d q ↦ (q.perform d).2) c

/-- `q.Proceeds c r d` says what it is for a call at `c` to give `r` and to stop at `d`. -/
structure Proceeds (q : Call) (c : TokenCursor) (r : Except Error Answer) (d : TokenCursor) :
    Prop where
  /-- The call ends: every bound suffices that is not below twice the tokens ahead and three. -/
  ends : ∀ n, q.attempt (2 * c.ahead.length + 3 + n) c = .ended r d
  /-- The list of tokens stays. -/
  tokens_eq : d.tokens = c.tokens
  /-- The cursor stands at one of them. -/
  current : d.tokens[d.index]? = some d.current
  /-- It does not go back. -/
  index_le : c.index ≤ d.index
  /-- It goes on to the next token, unless it is at the last one. -/
  advances : q = .advance → d.index = min (c.index + 1) (c.tokens.length - 1)
  /-- A token that is refused stays where it is. -/
  refused : ∀ kind e, q = .take kind ∨ q = .takeOr kind e → ∀ e', r = .error e' → d = c
  /-- A reader that succeeds takes at least one token. -/
  reads : ∀ p, q = .read p → ∀ x, r = .ok x → c.index < d.index

/-! ### One call -/

theorem attempt_takeOr (c : TokenCursor) (kind : TokenKind) (e : Error) :
    (Attempt.ended (c.takeOr kind e).1 (c.takeOr kind e).2).map Answer.token =
      .ended ((c.takeOr kind e).1.map .token) (c.takeOr kind e).2 := by
  rw [TokenCursor.takeOr]
  split <;> rfl

/-- A token that is refused stays. -/
theorem takeOr_refused {c : TokenCursor} {kind : TokenKind} {e e' : Error}
    (h : (c.takeOr kind e).1.map Answer.token = .error e') : (c.takeOr kind e).2 = c := by
  rw [TokenCursor.takeOr] at h ⊢
  split at h
  · cases h
  · rename_i hk
    rw [if_neg hk]

theorem reaches_takeOr (c : TokenCursor) (kind : TokenKind) (e : Error) :
    c.Reaches (c.takeOr kind e).2 := by
  rw [TokenCursor.takeOr]
  split
  · exact c.reaches_advance
  · exact .refl

/-- No call goes back. -/
theorem reaches_perform (q : Call) (c : TokenCursor) : c.Reaches (q.perform c).2 := by
  cases q with
  | advance => exact c.reaches_advance
  | take kind => exact reaches_takeOr c kind _
  | takeOr kind e => exact reaches_takeOr c kind e
  | read p => exact (p.outcome c).reaches_stop

/-- Within the bound, a call gives what it gives without one. -/
theorem attempt_eq {n : Nat} {c : TokenCursor} (hn : 2 * c.ahead.length + 3 ≤ n) (q : Call) :
    q.attempt n c = .ended (q.perform c).1 (q.perform c).2 := by
  cases q with
  | advance => rfl
  | take kind => exact attempt_takeOr c kind _
  | takeOr kind e => exact attempt_takeOr c kind e
  | read p => exact p.attempt_eq hn

/-- A call ends, keeps the tokens, and goes on by what it takes. -/
theorem proceeds (q : Call) (c : TokenCursor) :
    q.Proceeds c (q.perform c).1 (q.perform c).2 where
  ends n := attempt_eq (Nat.le_add_right ..) q
  tokens_eq := (reaches_perform q c).tokens_eq
  current := TokenCursor.getElem?_index _
  index_le := (reaches_perform q c).index_le
  advances := by
    rintro rfl
    exact c.index_advance
  refused := by
    rintro kind e (rfl | rfl) e' h
    · exact takeOr_refused h
    · exact takeOr_refused h
  reads := by
    rintro p rfl x h
    exact (Outcome.before_stop h).index_lt

/-! ### Sequences of calls -/

/-- A sequence of calls does not go back. -/
theorem reaches_after (c : TokenCursor) (calls : List Call) : c.Reaches (after c calls) := by
  induction calls generalizing c with
  | nil => exact .refl
  | cons q calls ih => exact (reaches_perform q c).trans (ih _)

/-- Whatever has been called on a list of tokens, the cursor stands at a token of the list, the last
of which is an end, and each further call proceeds. A whole sheet is read within a bound, too. -/
theorem all_proceed (tokens : List Token) (file : String) :
    (Token.withEnd tokens file).getLast?.map Token.kind = some .eof ∧
      (∀ calls : List Call, let c := after (.ofTokens tokens file) calls
        c.tokens = Token.withEnd tokens file ∧ c.tokens[c.index]? = some c.current ∧
          ∀ q : Call, q.Proceeds c (q.perform c).1 (q.perform c).2) ∧
      ∀ n, Bounded.sheet (2 * tokens.length + 2 + n) tokens file =
        .ended (sheet tokens file).1 (sheet tokens file).2 := by
  refine ⟨Token.kind_getLast?_withEnd tokens file, ?_,
    fun n ↦ Bounded.sheet_eq tokens file (Nat.le_add_right ..)⟩
  intro calls c
  refine ⟨?_, TokenCursor.getElem?_index _, fun q ↦ proceeds q _⟩
  exact (reaches_after _ calls).tokens_eq.trans (TokenCursor.tokens_ofTokens tokens file)

/-- An end in the middle of a list, at which a conditional can begin, and a block that is not
closed. -/
def interrupted : List Token :=
  [⟨.eof, "EOF", .null⟩, ⟨.trueWord, "true", .null⟩, ⟨.openCurly, "\x7b", .null⟩,
    ⟨.closeCurly, "\x7d", .null⟩, ⟨.openCurly, "\x7b", .null⟩]

theorem all_proceed_interrupted :
    let c := TokenCursor.ofTokens interrupted "s"
    let d := after c [read .conditional]
    let e := after c [read .conditional, read .block]
    ((read .conditional).Proceeds c ((read .conditional).perform c).1 d ∧
        ((read .conditional).perform c).1.isOk = true ∧ d.index = 4) ∧
      ((read .block).Proceeds d ((read .block).perform d).1 e ∧
        ((read .block).perform d).1.isOk = false ∧ e.index = 5) ∧
      advance.Proceeds e (advance.perform e).1 e ∧ e.tokens.length = 6 := by
  intro c d e
  obtain ⟨-, hcalls, -⟩ := all_proceed interrupted "s"
  have hd : ((read .conditional).perform c).1.isOk = true ∧ d.index = 4 := by decide +kernel
  have he : ((read .block).perform d).1.isOk = false ∧ e.index = 5 := by decide +kernel
  have hlast : e.advance = e ∧ e.tokens.length = 6 := by decide +kernel
  have hadvance := (hcalls [read .conditional, read .block]).2.2 advance
  refine ⟨⟨(hcalls []).2.2 (read .conditional), hd⟩,
    ⟨(hcalls [read .conditional]).2.2 (read .block), he⟩, ?_, hlast.2⟩
  rw [show (advance.perform e).2 = e from hlast.1] at hadvance
  exact hadvance

end Call

end Grammar

end TypedCss

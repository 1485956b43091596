import TypedCss.Proofs.Grammar.Rounds
import TypedCss.Proofs.Grammar.Soundness.Sheet

/-!
# Readers within a bound

The readers of the grammar end because of what is known of the cursors where they stop. Here they
are written without any such knowledge. They only have a bound on how many calls and rounds of loops
may stand one within another, and give up where it does not suffice (`Attempt.unfinished`). Nothing
keeps them from going round for ever but the tokens themselves.

With the decisions of the language, twice the number of tokens ahead and three is enough for every
reader, and what it gives is what the reader of the grammar gives (`Bounded.expr_eq` and the like,
up to `Bounded.items_eq`). In particular, the one case that the reader of expressions refuses for
the sake of its recursion, a parenthesis at the last token, does not occur.
-/

namespace TypedCss.Grammar

/-! ### Attempts -/

/-- What a reader within a bound gives. -/
inductive Attempt (α : Type) where
  /-- The bound did not suffice. -/
  | unfinished
  /-- A value or an error, and the cursor where the reader stopped. -/
  | ended (result : Except Error α) (stop : TokenCursor)

namespace Attempt

variable {α β γ : Type}

/-- Goes on after a success. -/
def andThen (a : Attempt α) (f : α → TokenCursor → Attempt β) : Attempt β :=
  match a with
  | unfinished => unfinished
  | ended (.error e) d => ended (.error e) d
  | ended (.ok x) d => f x d

/-- Changes the value of a success. -/
def map (f : α → β) (a : Attempt α) : Attempt β := a.andThen fun x d ↦ ended (.ok (f x)) d

@[simp] theorem andThen_ok (x : α) (d : TokenCursor) (f : α → TokenCursor → Attempt β) :
    (ended (.ok x) d).andThen f = f x d := rfl

@[simp] theorem andThen_error (e : Error) (d : TokenCursor) (f : α → TokenCursor → Attempt β) :
    (ended (.error e) d).andThen f = ended (.error e) d := rfl

end Attempt

namespace Outcome

variable {α β : Type} {b c d : TokenCursor}

/-- An outcome, without what is known of the cursor. -/
def attempt (o : Outcome α c) : Attempt α := .ended o.result o.stop

@[simp] theorem attempt_ok (x : α) (k : c.Before d) :
    (ok x d k).attempt = .ended (.ok x) d := rfl

@[simp] theorem attempt_error (e : Error) (k : c.Reaches d) :
    (error e d k : Outcome α c).attempt = .ended (.error e) d := rfl

/-- The value of an attempt may be changed before or after the cursor is forgotten. -/
@[simp] theorem attempt_map (f : α → β) (o : Outcome α c) :
    (o.map f).attempt = o.attempt.map f := by
  cases o <;> rfl

/-- Seen from an earlier cursor, an outcome is the same attempt. -/
@[simp] theorem attempt_since (h : b.Reaches c) (o : Outcome α c) :
    (o.since h).attempt = o.attempt := by
  cases o <;> rfl

end Outcome

/-! ### The readers -/

namespace Bounded

variable {α : Type}

/-- Takes a token of the given kind. -/
def take (kind : TokenKind) (c : TokenCursor) : Attempt Token :=
  .ended (c.take kind).1 (c.take kind).2

/-- Reads a value or a variable. -/
def primary (c : TokenCursor) : Attempt Expr :=
  match operandOf? c.current with
  | none => .ended (.error (c.unexpected "expected a literal or a variable")) c
  | some (.error e) => .ended (.error e) c
  | some (.ok e) => .ended (.ok e) c.advance

mutual

/-- Reads an expression whose operators bind more tightly than `power`. -/
def expr : Nat → BindingPower → TokenCursor → Attempt Expr
  | 0, _, _ => .unfinished
  | n + 1, power, c =>
    match Dispatch.standard.operand c.kind with
    | none => .ended (.error (c.unexpected "expected an expression")) c
    | some .primary => (primary c).andThen (operators n power)
    | some .grouping => (grouping n c).andThen (operators n power)

/-- Reads an expression between parentheses. -/
def grouping : Nat → TokenCursor → Attempt Expr
  | 0, _ => .unfinished
  | n + 1, c =>
    (expr n .default c.advance).andThen fun inner d ↦ (take .closeParen d).map fun _ ↦ inner

/-- Goes on after `left` while operators bind more tightly than `power`. -/
def operators : Nat → BindingPower → Expr → TokenCursor → Attempt Expr
  | 0, _, _, _ => .unfinished
  | n + 1, power, left, c =>
    match Dispatch.standard.operator c.kind with
    | none => .ended (.ok left) c
    | some next =>
      if next.rank ≤ power.rank then .ended (.ok left) c
      else (binary n left next c).andThen (operators n power)

/-- Reads an operator and its right operand, and joins them to `left`. -/
def binary : Nat → Expr → BindingPower → TokenCursor → Attempt Expr
  | 0, _, _, _ => .unfinished
  | n + 1, left, power, c =>
    match operatorOf? c.kind with
    | none => .ended (.error c.mismatch) c.advance
    | some op => (expr n power c.advance).map (operation op left)

end

/-- Reads an expression and the semicolon after it, and builds what they end. -/
def valueThen (n : Nat) (start : TokenCursor) (build : Expr → Info → α) (c : TokenCursor) :
    Attempt α :=
  (expr n .default c).andThen fun value d ↦ (take .semicolon d).andThen fun _ f ↦
    .ended (.ok (build value ⟨f.spanFrom start.position, []⟩)) f

/-- Reads an assignment. -/
def assignment (n : Nat) (c : TokenCursor) : Attempt Assignment :=
  let d := c.advance
  if d.kind = .colon ∨ d.kind = .colonEquals then
    valueThen n c (Assignment.mk c.current.value) d.advance
  else .ended (.error (d.unexpected "expected `:` or `:=` after variable name")) d

/-- Reads a declaration. -/
def declaration (n : Nat) (c : TokenCursor) : Attempt Declaration :=
  (take .identifier c).andThen fun name d ↦ (take .colon d).andThen fun _ f ↦
    valueThen n c (Declaration.mk name.value) f

/-- Reads the guard of a conditional, which may stand in brackets. -/
def guard (n : Nat) (c : TokenCursor) : Attempt Expr :=
  if c.kind = .openBracket then
    (expr n .default c.advance).andThen fun value d ↦ (take .closeBracket d).map fun _ ↦ value
  else expr n .default c

mutual

/-- Reads a statement. -/
def stmt : Nat → TokenCursor → Attempt Stmt
  | 0, _ => .unfinished
  | n + 1, c =>
    match Dispatch.standard.statement c.kind with
    | some .conditional => conditional n c
    | some .assignment => (assignment n c).map .assignment
    | some .declaration => (declaration n c).map .declaration
    | none =>
      if c.kind = .identifier then
        if c.peek 1 = .colonEquals then (assignment n c).map .assignment
        else (declaration n c).map .declaration
      else
        .ended (.error (c.unexpected
          "expected a declaration, a variable assignment or an if clause")) c

/-- Reads a conditional. -/
def conditional : Nat → TokenCursor → Attempt Stmt
  | 0, _ => .unfinished
  | n + 1, c =>
    (guard n c.advance).andThen fun condition d ↦ (block n d).andThen fun body f ↦
      if f.kind = .elseWord then
        (block n f.advance).andThen fun elseBody g ↦
          .ended (.ok (.conditional condition body
            (.present elseBody ⟨g.spanFrom f.position, []⟩) ⟨g.spanFrom c.position, []⟩)) g
      else .ended (.ok (.conditional condition body .absent ⟨f.spanFrom c.position, []⟩)) f

/-- Reads a block. -/
def block : Nat → TokenCursor → Attempt (List Stmt)
  | 0, _ => .unfinished
  | n + 1, c => (take .openCurly c).andThen fun _ d ↦ statements n d

/-- Reads the statements of a block and the brace after them. -/
def statements : Nat → TokenCursor → Attempt (List Stmt)
  | 0, _ => .unfinished
  | n + 1, c =>
    if c.kind = .closeCurly then .ended (.ok []) c.advance
    else if c.kind = .eof then
      .ended (.error (c.unexpected "expected `\x7d` before end of file")) c
    else (stmt n c).andThen fun s d ↦ (statements n d).map (s :: ·)

end

/-- Reads a selector. -/
def selector (c : TokenCursor) : Attempt Selector :=
  if c.kind = .identifier then .ended (.ok (.tag c.current.value)) c.advance
  else if c.kind = .dot then (take .identifier c.advance).map fun name ↦ .class name.value
  else if c.kind = .hash then
    .ended (.ok (.id (String.ofList (c.current.value.toList.dropWhile (· == '#'))))) c.advance
  else .ended (.error (c.unexpected "expected a tag, class or id selector")) c

/-- Reads what follows the first selector of a list. -/
def moreSelectors : Nat → TokenCursor → Attempt (List Selector)
  | 0, _ => .unfinished
  | n + 1, c =>
    if c.kind = .comma then
      (selector c.advance).andThen fun s d ↦ (moreSelectors n d).map (s :: ·)
    else .ended (.ok []) c

/-- Reads a rule. -/
def rule (n : Nat) (c : TokenCursor) : Attempt Rule :=
  (selector c).andThen fun first d ↦ (moreSelectors n d).andThen fun others f ↦
    (block n f).andThen fun body g ↦
      .ended (.ok ⟨first :: others, body, ⟨g.spanFrom c.position, []⟩⟩) g

/-- Reads an item. -/
def item (n : Nat) (c : TokenCursor) : Attempt Item :=
  if beginsAssignment c then (assignment n c).map .assignment else (rule n c).map .rule

/-- Reads items up to the end of the text. -/
def items : Nat → TokenCursor → Attempt (List Item)
  | 0, _ => .unfinished
  | n + 1, c =>
    if c.kind = .eof then .ended (.ok []) c
    else (item n c).andThen fun i d ↦ (items n d).map (i :: ·)

/-- Reads the sheet that a list of tokens is. -/
def sheet (n : Nat) (tokens : List Token) (file : String) : Attempt Sheet :=
  (items n (.ofTokens tokens file)).andThen fun is d ↦
    .ended (.ok ⟨is, ⟨d.spanFrom ⟨0, file⟩, []⟩⟩) d

/-! ### One call -/

variable {β : Type} {b c : TokenCursor} {kind : TokenKind}

/-- A token of the given kind is taken. -/
theorem take_of_kind_eq (h : c.kind = kind) : take kind c = .ended (.ok c.current) c.advance := by
  rw [take, TokenCursor.take, TokenCursor.takeOr, if_pos h]

/-- A token of another kind is refused, and stays. -/
theorem take_of_kind_ne (h : c.kind ≠ kind) : take kind c = .ended (.error c.mismatch) c := by
  rw [take, TokenCursor.take, TokenCursor.takeOr, if_neg h]

/-- A token of a given kind that is taken at the end of a reader. -/
theorem take_map_eq (x : α) (hok : b.Before c.advance) (herror : b.Reaches c) :
    ((take kind c).map fun _ ↦ x) =
      (if c.kind = kind then Outcome.ok x c.advance hok
        else .error c.mismatch c herror).attempt := by
  split
  · rename_i h
    rw [take_of_kind_eq h]
    rfl
  · rename_i h
    rw [take_of_kind_ne h]
    rfl

/-- If two readers give the same and what goes on after them too, so does the whole. -/
theorem andThen_eq {a : Attempt α} {o : Outcome α c} {h : b.Reaches c}
    {g : α → TokenCursor → Attempt β} {f : α → (d : TokenCursor) → c.Before d → Outcome β b}
    (ha : a = o.attempt) (hg : ∀ x d k, g x d = (f x d k).attempt) :
    a.andThen g = (o.andThen h f).attempt := by
  subst ha
  cases o with
  | ok x d k => exact hg x d k
  | error e d k => rfl

/-! ### Expressions -/

/-- An operand of one token is read without a bound. -/
theorem primary_eq (c : TokenCursor) : primary c = (Grammar.primary c).attempt := by
  rw [primary, Grammar.primary]
  split <;> split <;> grind [Outcome.attempt, Outcome.result, Outcome.stop]

-- The induction is on the bound. A call that takes no token first is followed by one that does, so
-- each token pays for two nested calls.
mutual

/-- Two calls for each token ahead and one more are enough for an expression. -/
theorem expr_eq : ∀ (n : Nat) (power : BindingPower) (c : TokenCursor),
    2 * c.ahead.length + 1 ≤ n → expr n power c = (Grammar.expr .standard power c).attempt
  | 0, _, _, hn => absurd hn (by omega)
  | n + 1, power, c, hn => by
    rw [expr]
    cases ho : Dispatch.standard.operand c.kind with
    | none =>
      rw [Grammar.expr]
      simp only [ho]
      rfl
    | some form =>
      cases form with
      | primary =>
        rw [expr_eq_primary ho]
        refine andThen_eq (primary_eq c) fun left d k ↦ operators_eq n power c left d k ?_
        have := k.shorter
        omega
      | grouping =>
        have hk : c.kind = .openParen := kind_of_operand_grouping ho
        have hc := (TokenCursor.before_advance_of_kind_ne (c := c) (by simp [hk])).shorter
        rw [expr_eq_grouping hk]
        refine andThen_eq (grouping_eq n c (by omega)) fun left d k ↦
          operators_eq n power c left d k ?_
        have := k.shorter
        omega

/-- A parenthesis is passed first, so its bound counts the tokens behind it. -/
theorem grouping_eq : ∀ (n : Nat) (c : TokenCursor), 2 * c.advance.ahead.length + 2 ≤ n →
    grouping n c = (Grammar.grouping .standard c).attempt
  | 0, _, hn => absurd hn (by omega)
  | n + 1, c, hn => by
    rw [grouping, grouping_eq_andThen]
    exact andThen_eq (expr_eq n .default c.advance (by omega)) fun inner d k ↦ take_map_eq inner ..

/-- Each round of the loop over operators takes a token, and the next one has two calls less. -/
theorem operators_eq : ∀ (n : Nat) (power : BindingPower) (start : TokenCursor) (left : Expr)
    (c : TokenCursor) (h : start.Before c), 2 * c.ahead.length + 1 ≤ n →
    operators n power left c = (Grammar.operators .standard power start left c h).attempt
  | 0, _, _, _, _, _, hn => absurd hn (by omega)
  | n + 1, power, start, left, c, h, hn => by
    rw [operators, Grammar.operators]
    cases ho : Dispatch.standard.operator c.kind with
    | none => rfl
    | some next =>
      have hk : c.kind ≠ .eof := by
        intro he
        rw [he] at ho
        cases ho
      have hc := (TokenCursor.before_advance_of_kind_ne hk).shorter
      simp only
      split
      · rfl
      · rw [binary_eq n left next c (by omega)]
        cases Grammar.binary .standard left next c with
        | error e d k => rfl
        | ok whole d k =>
          refine operators_eq n power start whole d (h.trans k) ?_
          have := k.shorter
          omega

/-- An operator is passed first, as a parenthesis is. -/
theorem binary_eq : ∀ (n : Nat) (left : Expr) (power : BindingPower) (c : TokenCursor),
    2 * c.advance.ahead.length + 2 ≤ n →
    binary n left power c = (Grammar.binary .standard left power c).attempt
  | 0, _, _, _, hn => absurd hn (by omega)
  | n + 1, left, power, c, hn => by
    rw [binary, Grammar.binary]
    cases operatorOf? c.kind with
    | none => rfl
    | some op => simp only [expr_eq n power c.advance (by omega), Outcome.attempt_map,
        Outcome.attempt_since]

end

/-! ### Statements -/

variable {n : Nat}

/-- The semicolon after a value needs no call of its own. -/
theorem valueThen_eq {start : TokenCursor} (build : Expr → Info → α) (h : start.Reaches c)
    (hn : 2 * c.ahead.length + 1 ≤ n) :
    valueThen n start build c = (Grammar.valueThen .standard start build c h).attempt := by
  rw [valueThen, Grammar.valueThen, expr_eq n .default c hn]
  cases Grammar.expr .standard .default c with
  | error e d k => rfl
  | ok value d k =>
    by_cases hd : d.kind = .semicolon
    · simp [hd, take_of_kind_eq]
    · simp [hd, take_of_kind_ne]

/-- An assignment needs no more than an expression that starts where it does. -/
theorem assignment_eq (c : TokenCursor) (hn : 2 * c.ahead.length + 1 ≤ n) :
    assignment n c = (Grammar.assignment .standard c).attempt := by
  have hadvance := c.length_advance_le
  have hadvance' := c.advance.length_advance_le
  simp only [assignment, Grammar.assignment]
  split
  · exact valueThen_eq _ _ (by omega)
  · rfl

/-- Nor does a declaration. -/
theorem declaration_eq (c : TokenCursor) (hn : 2 * c.ahead.length + 1 ≤ n) :
    declaration n c = (Grammar.declaration .standard c).attempt := by
  have hadvance := c.length_advance_le
  have hadvance' := c.advance.length_advance_le
  rw [declaration, Grammar.declaration]
  by_cases hc : c.kind = .identifier
  · rw [take_of_kind_eq hc, if_pos hc, Attempt.andThen_ok]
    by_cases hd : c.advance.kind = .colon
    · simp only [hd, take_of_kind_eq, Attempt.andThen_ok, ↓reduceIte]
      exact valueThen_eq _ _ (by omega)
    · simp [hd, take_of_kind_ne]
  · simp [hc, take_of_kind_ne]

/-- Nor does a guard, with brackets or without. -/
theorem guard_eq (c : TokenCursor) (hn : 2 * c.ahead.length + 1 ≤ n) :
    guard n c = (Grammar.guard .standard c).attempt := by
  have hadvance := c.length_advance_le
  rw [guard, Grammar.guard]
  split
  · rw [expr_eq n .default c.advance (by omega)]
    cases Grammar.expr .standard .default c.advance with
    | error e d k => rfl
    | ok value d k => exact take_map_eq value ..
  · exact expr_eq n .default c hn

mutual

/-- A statement needs one call more than an expression, for its own form. -/
theorem stmt_eq : ∀ (n : Nat) (c : TokenCursor), 2 * c.ahead.length + 2 ≤ n →
    stmt n c = (Grammar.stmt .standard c).attempt
  | 0, _, hn => absurd hn (by omega)
  | n + 1, c, hn => by
    have hassignment := assignment_eq (n := n) c (by omega)
    have hdeclaration := declaration_eq (n := n) c (by omega)
    rw [stmt, Grammar.stmt]
    cases ho : Dispatch.standard.statement c.kind with
    | some form =>
      cases form with
      | conditional =>
        have hk : c.kind = .ifWord := kind_of_statement_conditional ho
        have hc := (TokenCursor.before_advance_of_kind_ne (c := c) (by simp [hk])).shorter
        exact conditional_eq n c (by omega)
      | assignment => simp only [hassignment, Outcome.attempt_map]
      | declaration => simp only [hdeclaration, Outcome.attempt_map]
    | none =>
      simp only [hassignment, hdeclaration]
      split
      · split <;> simp only [Outcome.attempt_map]
      · rfl

/-- The word of a conditional is passed first. The guard, the body and the else branch start later,
and none of them needs more than what is left by then. -/
theorem conditional_eq : ∀ (n : Nat) (c : TokenCursor), 2 * c.advance.ahead.length + 3 ≤ n →
    conditional n c = (Grammar.conditional .standard c).attempt
  | 0, _, hn => absurd hn (by omega)
  | n + 1, c, hn => by
    rw [conditional, Grammar.conditional, guard_eq c.advance (by omega)]
    cases Grammar.guard .standard c.advance with
    | error e d k => rfl
    | ok condition d k =>
      have hd := k.shorter
      rw [Outcome.attempt_ok, Attempt.andThen_ok, block_eq n d (by omega)]
      simp only [Outcome.since]
      cases Grammar.block .standard d with
      | error e f k => rfl
      | ok body f k =>
        have hf := k.shorter
        have hadvance := f.length_advance_le
        rw [Outcome.attempt_ok, Attempt.andThen_ok]
        by_cases he : f.kind = .elseWord
        · simp only [he, ↓reduceIte, block_eq n f.advance (by omega)]
          cases Grammar.block .standard f.advance <;> rfl
        · simp only [he, ↓reduceIte, Outcome.attempt_ok]

/-- A block starts with a brace, which pays for the loop over its statements. -/
theorem block_eq : ∀ (n : Nat) (c : TokenCursor), 2 * c.ahead.length + 2 ≤ n →
    block n c = (Grammar.block .standard c).attempt
  | 0, _, hn => absurd hn (by omega)
  | n + 1, c, hn => by
    rw [block, Grammar.block]
    by_cases hk : c.kind = .openCurly
    · have hc := (TokenCursor.before_advance_of_kind_ne (c := c) (by simp [hk])).shorter
      rw [take_of_kind_eq hk, dif_pos hk]
      exact statements_eq n c c.advance _ (by omega)
    · rw [take_of_kind_ne hk, dif_neg hk]
      rfl

/-- Each round of the loop over statements takes a token, since a statement has one at least. -/
theorem statements_eq : ∀ (n : Nat) (start c : TokenCursor) (h : start.Before c),
    2 * c.ahead.length + 3 ≤ n →
    statements n c = (Grammar.statements .standard start c h).attempt
  | 0, _, _, _, hn => absurd hn (by omega)
  | n + 1, start, c, h, hn => by
    rw [statements, Grammar.statements]
    split
    · rfl
    · split
      · rfl
      · rw [stmt_eq n c (by omega)]
        cases Grammar.stmt .standard c with
        | error e d k => rfl
        | ok s d k =>
          have hd := k.shorter
          rw [Outcome.attempt_ok, Attempt.andThen_ok,
            statements_eq n start d (h.trans k) (by omega), Outcome.attempt_map]

end

/-! ### Sheets -/

/-- A selector has no parts that could be nested. -/
theorem selector_eq (c : TokenCursor) : selector c = (Grammar.selector c).attempt := by
  rw [selector, Grammar.selector]
  split
  · rfl
  · split
    · by_cases hd : c.advance.kind = .identifier
      · simp [hd, take_of_kind_eq, Attempt.map]
      · simp [hd, take_of_kind_ne, Attempt.map]
    · split <;> rfl

/-- There is a round for each comma, and one for what is no comma. -/
theorem moreSelectors_eq : ∀ (n : Nat) (start c : TokenCursor) (h : start.Before c),
    c.ahead.length + 1 ≤ n → moreSelectors n c = (Grammar.moreSelectors start c h).attempt
  | 0, _, _, _, hn => absurd hn (by omega)
  | n + 1, start, c, h, hn => by
    have hadvance := c.length_advance_le
    rw [moreSelectors, Grammar.moreSelectors]
    split
    · rw [selector_eq]
      cases Grammar.selector c.advance with
      | error e d k => rfl
      | ok s d k =>
        have hd := k.shorter
        rw [Outcome.attempt_ok, Attempt.andThen_ok, moreSelectors_eq n start d _ (by omega),
          Outcome.attempt_map]
    · rfl

/-- The first selector takes a token, which pays for the block of the rule. -/
theorem rule_eq (c : TokenCursor) (hn : 2 * c.ahead.length + 1 ≤ n) :
    rule n c = (Grammar.rule .standard c).attempt := by
  rw [rule, Grammar.rule, selector_eq]
  cases Grammar.selector c with
  | error e d k => rfl
  | ok first d k =>
    have hd := k.shorter
    rw [Outcome.attempt_ok, Attempt.andThen_ok, moreSelectors_eq n c d k (by omega)]
    simp only
    cases Grammar.moreSelectors c d k with
    | error e f k => rfl
    | ok others f k =>
      have hf := k.shorter
      rw [Outcome.attempt_ok, Attempt.andThen_ok, block_eq n f (by omega)]
      simp only [Outcome.since]
      cases Grammar.block .standard f <;> rfl

theorem item_eq (c : TokenCursor) (hn : 2 * c.ahead.length + 1 ≤ n) :
    item n c = (Grammar.item .standard c).attempt := by
  rw [item, Grammar.item]
  split
  · rw [assignment_eq c hn, Outcome.attempt_map]
  · rw [rule_eq c hn, Outcome.attempt_map]

/-- Each round of the loop over items takes a token. What is left for the reader of sheets is the
end of the text. -/
theorem items_eq : ∀ (n : Nat) (c : TokenCursor), 2 * c.ahead.length + 2 ≤ n →
    items n c = .ended (Grammar.items .standard c).1 (Grammar.items .standard c).2
  | 0, _, hn => absurd hn (by omega)
  | n + 1, c, hn => by
    rw [items, Grammar.items]
    split
    · rfl
    · rw [item_eq c (by omega)]
      cases Grammar.item .standard c with
      | error e d k => rfl
      | ok i d k =>
        have hd := k.shorter
        rw [Outcome.attempt_ok, Attempt.andThen_ok, items_eq n d (by omega)]
        simp only
        split <;> simp_all [Attempt.map]

/-- At first, no more tokens are ahead than there are. -/
theorem length_ahead_ofTokens_le (tokens : List Token) (file : String) :
    (TokenCursor.ofTokens tokens file).ahead.length ≤ tokens.length := by
  rw [TokenCursor.ofTokens]
  split
  · exact Nat.zero_le _
  · split
    · exact tokens.length_dropLast ▸ Nat.sub_le ..
    · exact Nat.le_refl _

/-- The reader of sheets needs no more than twice the number of tokens and two. -/
theorem sheet_eq (tokens : List Token) (file : String) (hn : 2 * tokens.length + 2 ≤ n) :
    sheet n tokens file = .ended (Grammar.sheet tokens file).1 (Grammar.sheet tokens file).2 := by
  have hlength := length_ahead_ofTokens_le tokens file
  rw [sheet, Grammar.sheet, items_eq n _ (by omega)]
  split <;> simp_all

end Bounded

end TypedCss.Grammar

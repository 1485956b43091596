import TypedCss.Grammar.Expr
import TypedCss.Sheet

/-!
# Reading statements and blocks

A block is a list of statements between braces. What a statement is can be told from its first
token, or from its first two: an identifier begins an assignment if `:=` follows it, and a
declaration otherwise.

The readers of conditionals, blocks and statements call each other. Each call is for a later
cursor, or for a smaller part of the grammar at the same one.
-/

namespace TypedCss.Grammar

/-! ### Assignments and declarations -/

/-- Reads an expression and the semicolon after it, and builds what they end, which began at
`start`. -/
def valueThen {α : Type} (t : Dispatch) (start : TokenCursor) (build : Expr → Info → α)
    (c : TokenCursor) (h : start.Reaches c) : Outcome α start :=
  match expr t .default c with
  | .error e d k => .error e d (h.trans k)
  | .ok value d k =>
    have hd := h.trans_before k
    if d.kind = .semicolon then
      .ok (build value ⟨d.advance.spanFrom start.position, []⟩) d.advance hd.advance
    else .error d.mismatch d hd.reaches

/-- Reads an assignment. Whatever the current token is, it is taken for the name. -/
def assignment (t : Dispatch) (c : TokenCursor) : Outcome Assignment c :=
  let d := c.advance
  if d.kind = .colon ∨ d.kind = .colonEquals then
    valueThen t c (Assignment.mk c.current.value) d.advance
      (c.reaches_advance.trans d.reaches_advance)
  else .error (d.unexpected "expected `:` or `:=` after variable name") d c.reaches_advance

/-- Reads a declaration. -/
def declaration (t : Dispatch) (c : TokenCursor) : Outcome Declaration c :=
  if c.kind = .identifier then
    let d := c.advance
    if d.kind = .colon then
      valueThen t c (Declaration.mk c.current.value) d.advance
        (c.reaches_advance.trans d.reaches_advance)
    else .error d.mismatch d c.reaches_advance
  else .error c.mismatch c .refl

/-! ### Conditionals -/

/-- Reads the guard of a conditional, which may stand in brackets. -/
def guard (t : Dispatch) (c : TokenCursor) : Outcome Expr c :=
  if c.kind = .openBracket then
    match (expr t .default c.advance).since c.reaches_advance with
    | .error e d h => .error e d h
    | .ok value d h =>
      if d.kind = .closeBracket then .ok value d.advance h.advance
      else .error d.mismatch d h.reaches
  else expr t .default c

mutual

/-- Reads a statement. -/
def stmt (t : Dispatch) (c : TokenCursor) : Outcome Stmt c :=
  match t.statement c.kind with
  | some .conditional => conditional t c
  | some .assignment => (assignment t c).map .assignment
  | some .declaration => (declaration t c).map .declaration
  | none =>
    if c.kind = .identifier then
      if c.peek 1 = .colonEquals then (assignment t c).map .assignment
      else (declaration t c).map .declaration
    else
      .error (c.unexpected "expected a declaration, a variable assignment or an if clause") c .refl
termination_by 4 * c.ahead.length + 2

/-- Reads a conditional. Whatever the current token is, it is passed. -/
def conditional (t : Dispatch) (c : TokenCursor) : Outcome Stmt c :=
  match (guard t c.advance).since c.reaches_advance with
  | .error e d h => .error e d h
  | .ok condition d h =>
    match (block t d).since h.reaches with
    | .error e f k => .error e f k
    | .ok body f k =>
      if f.kind = .elseWord then
        match (block t f.advance).since k.advance.reaches with
        | .error e g m => .error e g m
        | .ok elseBody g m =>
          let otherwise := .present elseBody ⟨g.spanFrom f.position, []⟩
          .ok (.conditional condition body otherwise ⟨g.spanFrom c.position, []⟩) g m
      else .ok (.conditional condition body .absent ⟨f.spanFrom c.position, []⟩) f k
termination_by 4 * c.ahead.length + 1
decreasing_by
  · have := h.shorter; omega
  · have := k.advance.shorter; omega

/-- Reads a block. -/
def block (t : Dispatch) (c : TokenCursor) : Outcome (List Stmt) c :=
  if h : c.kind = .openCurly then
    statements t c c.advance (TokenCursor.before_advance_of_kind_ne (by simp [h]))
  else .error c.mismatch c .refl
termination_by 4 * c.ahead.length
decreasing_by
  have := (TokenCursor.before_advance_of_kind_ne (c := c) (by simp [h])).shorter; omega

/-- Reads the statements of a block that began at `start`, and the brace after them. -/
def statements (t : Dispatch) (start c : TokenCursor) (h : start.Before c) :
    Outcome (List Stmt) start :=
  if c.kind = .closeCurly then .ok [] c.advance h.advance
  else if c.kind = .eof then
    .error (c.unexpected "expected `\x7d` before end of file") c h.reaches
  else
    match stmt t c with
    | .error e d k => .error e d (h.reaches.trans k)
    | .ok s d k => (statements t start d (h.trans k)).map (s :: ·)
termination_by 4 * c.ahead.length + 3
decreasing_by
  · omega
  · have := k.shorter; omega

end

end TypedCss.Grammar

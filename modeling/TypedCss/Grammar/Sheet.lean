import TypedCss.Grammar.Stmt

/-!
# Reading style sheets

A sheet is read item by item until the end of the text or the first error. An item that begins with
the name of a variable, or with an identifier before `:=`, is an assignment; anything else is a
rule.
-/

namespace TypedCss.Grammar

/-! ### Rules -/

/-- Reads a selector. The name of an id is the text of its token without the `#`. -/
def selector (c : TokenCursor) : Outcome Selector c :=
  if h : c.kind = .identifier then
    .ok (.tag c.current.value) c.advance (TokenCursor.before_advance_of_kind_ne (by simp [h]))
  else if h : c.kind = .dot then
    let d := c.advance
    have hd : c.Before d := TokenCursor.before_advance_of_kind_ne (by simp [h])
    if d.kind = .identifier then
      .ok (.class d.current.value) d.advance hd.advance
    else .error d.mismatch d hd.reaches
  else if h : c.kind = .hash then
    .ok (.id (String.ofList (c.current.value.toList.dropWhile (· == '#')))) c.advance
      (TokenCursor.before_advance_of_kind_ne (by simp [h]))
  else .error (c.unexpected "expected a tag, class or id selector") c .refl

/-- Reads what follows the first selector of a list that began at `start`: further selectors, a
comma before each. -/
def moreSelectors (start c : TokenCursor) (h : start.Before c) : Outcome (List Selector) start :=
  if c.kind = .comma then
    match selector c.advance with
    | .error e d k => .error e d (h.reaches.trans (c.reaches_advance.trans k))
    | .ok s d k =>
      have hd := c.reaches_advance.trans_before k
      (moreSelectors start d (h.trans hd)).map (s :: ·)
  else .ok [] c h
termination_by c.ahead.length
decreasing_by exact hd.shorter

/-- Reads a rule. -/
def rule (t : Dispatch) (c : TokenCursor) : Outcome Rule c :=
  match selector c with
  | .error e d h => .error e d h
  | .ok first d h =>
    match moreSelectors c d h with
    | .error e f k => .error e f k
    | .ok others f k =>
      match (block t f).since k.reaches with
      | .error e g m => .error e g m
      | .ok body g m => .ok ⟨first :: others, body, ⟨g.spanFrom c.position, []⟩⟩ g m

/-! ### Items -/

/-- Whether an assignment begins here. -/
def beginsAssignment (c : TokenCursor) : Bool :=
  c.kind = .variableName || (c.kind = .identifier && c.peek 1 = .colonEquals)

/-- Reads an item. -/
def item (t : Dispatch) (c : TokenCursor) : Outcome Item c :=
  if beginsAssignment c then (assignment t c).map .assignment else (rule t c).map .rule

/-- Reads items up to the end of the text. -/
def items (t : Dispatch) (c : TokenCursor) : Except Error (List Item) × TokenCursor :=
  if c.kind = .eof then (.ok [], c)
  else
    match item t c with
    | .error e d _ => (.error e, d)
    | .ok i d _h =>
      match items t d with
      | (.error e, f) => (.error e, f)
      | (.ok is, f) => (.ok (i :: is), f)
termination_by c.ahead.length
decreasing_by exact _h.shorter

/-! ### Sheets -/

/-- Reads the sheet that a list of tokens is, and gives the cursor where reading stopped. -/
def sheet (tokens : List Token) (file : String) : Except Error Sheet × TokenCursor :=
  match items .standard (.ofTokens tokens file) with
  | (.error e, d) => (.error e, d)
  | (.ok is, d) => (.ok ⟨is, ⟨d.spanFrom ⟨0, file⟩, []⟩⟩, d)

end TypedCss.Grammar

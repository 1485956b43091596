import TypedCss.Proofs.Grammar.Source
import TypedCss.Proofs.Part

/-!
# Spans nest and cover their text

Every part of a sheet that was read from a source is well placed in it: children stand within their
parent one after the other, and the text at a span is the one of such a part
(`Parse.wellPlaced_of_sheet`). Parentheses leave no trace in a tree, so the span of an operation
that stands in them does not include them; it still covers those around its operands.

The tokens of a derivation stand in a row in the source, and by recursion on the derivation the
parts of its meaning do so too, between the same bounds: each category of the grammar has a lemma
that makes a row of parts from a row of tokens. A value or a variable has the span of its token, an
operation goes from one operand to the other (`operation_row`), and all else goes from one token to
another one (`Part.row_of_ends`).
-/

namespace TypedCss

/-! ### Texts of single tokens -/

namespace TokenKind

/-- The text of a kind of tokens that has only one: a sign, or the word that begins a branch. -/
def soleText? : TokenKind → Option (List Char)
  | ifWord => some ['i', 'f']
  | elseWord => some ['e', 'l', 's', 'e']
  | kind => kind.symbol?

/-- A kind with one text only has that text. -/
theorem text_of_soleText? {kind : TokenKind} {value text : List Char} (hf : kind.Fits value)
    (hs : kind.soleText? = some text) : value ++ kind.unit = text := by
  have hvalue : value = (String.ofList value).toList := String.toList_ofList.symm
  cases kind with
  | ifWord | elseWord =>
    all_goals
      cases hs
      have hword : reserved? (String.ofList value) = some _ := hf
      unfold reserved? at hword
      split at hword <;> cases hword
      rename_i hw
      rw [hvalue, hw]
      rfl
  | openBracket | closeBracket | openCurly | closeCurly | openParen | closeParen | colon
  | colonEquals | semicolon | comma | dot | plus | dash | star =>
    all_goals exact (List.append_nil value).trans (Option.some.inj (hf.symm.trans hs))
  | eof | identifier | variableName | hash | number | pixel | percentage | trueWord | falseWord =>
    all_goals cases hs

end TokenKind

namespace Derivation

variable {c : TextCursor} {words : List Token}

/-! ### Expressions -/

theorem Primary.row (x : Primary) {lo hi : Nat} (h : TokenRow c words lo [x.token] hi) :
    PlacedRow c words lo [.expr x.tree] hi := by
  obtain ⟨hlo, hne, hhi, ht⟩ := InRow.singleton_iff.1 h
  have hspan : x.tree.info.span = x.token.span := by cases x <;> rfl
  have hchildren : (Part.expr x.tree).children = [] := by cases x <;> rfl
  have hstart : (Part.expr x.tree).start = x.token.start := congrArg (·.start.offset.toNat) hspan
  have hstop : (Part.expr x.tree).stop = x.token.stop := congrArg (·.stop.offset.toNat) hspan
  refine InRow.singleton_iff.2 ⟨by omega, by omega, by omega, Part.wellPlaced_of_children ?_ ?_ ?_⟩
  · rw [Part.info, hspan]
    exact ht.file_eq
  · rw [hchildren]
    exact .nil (by omega)
  · obtain ⟨rest, hpart⟩ := ht.part
    have htoken := Grammar.operandOf?_token x
    rw [hstart, hstop]
    refine ⟨_, rest, hpart, ?_⟩
    cases x <;> exact ⟨_, ht.mem, htoken, rfl⟩

/-- An operation goes from the start of its left operand to the stop of its right one. -/
theorem operation_row {op : Operator} {left right : Expr} {lo mid after hi : Nat}
    (hl : PlacedRow c words lo [.expr left] mid) (hr : PlacedRow c words after [.expr right] hi)
    (hle : mid ≤ after) : PlacedRow c words lo [.expr (Grammar.operation op left right)] hi := by
  obtain ⟨hlo, hlne, hmid, hleft⟩ := InRow.singleton_iff.1 hl
  obtain ⟨hafter, hrne, hhi, hright⟩ := InRow.singleton_iff.1 hr
  have hl' := hleft _ (.refl _)
  have hr' := hright _ (.refl _)
  have hstart : (Part.expr (Grammar.operation op left right)).start = (Part.expr left).start := rfl
  have hstop : (Part.expr (Grammar.operation op left right)).stop = (Part.expr right).stop := rfl
  refine InRow.singleton_iff.2 ⟨by omega, by omega, by omega, Part.wellPlaced_of_children ?_ ?_ ?_⟩
  · exact ⟨hl'.file_eq.1, hr'.file_eq.2⟩
  · exact .cons (Nat.le_of_eq hstart) hlne hleft
      (.cons (by omega) hrne hright (.nil (Nat.le_of_eq hstop)))
  · obtain ⟨text, rest, hpart, -⟩ := hl'.reads
    obtain ⟨text', rest', hpart', -⟩ := hr'.reads
    obtain ⟨whole, hwhole, -⟩ := hpart.join hpart' (by omega) (by omega)
    exact ⟨whole, rest', hwhole, True.intro⟩

mutual

/-- The parentheses of a group lie around what they enclose. -/
theorem Operand.row (x : Operand) {lo hi : Nat} (h : TokenRow c words lo x.tokens hi) :
    PlacedRow c words lo [.expr x.tree] hi := by
  match x with
  | .primary p => exact p.row h
  | .group opening inner closing =>
    obtain ⟨a, hopen, h⟩ := h.exists_mid_cons
    obtain ⟨b, hinner, hclose⟩ := h.exists_mid
    exact (Expression.row inner hinner).mono hopen.le hclose.le

/-- A product begins with its first factor and ends with its last. -/
theorem Factors.row (xs : Factors) {lo mid hi : Nat} {left : Expr}
    (hl : PlacedRow c words lo [.expr left] mid) (h : TokenRow c words mid xs.tokens hi) :
    PlacedRow c words lo [.expr (xs.join left)] hi := by
  match xs with
  | .nil => exact hl.mono (Nat.le_refl _) h.le
  | .cons star next others =>
    obtain ⟨a, hstar, h⟩ := h.exists_mid_cons
    obtain ⟨b, hnext, hothers⟩ := h.exists_mid
    exact Factors.row others (operation_row hl (Operand.row next hnext) hstar.le) hothers

theorem Product.row (x : Product) {lo hi : Nat} (h : TokenRow c words lo x.tokens hi) :
    PlacedRow c words lo [.expr x.tree] hi := by
  match x with
  | .mk first others =>
    obtain ⟨a, hfirst, hothers⟩ := h.exists_mid
    exact Factors.row others (Operand.row first hfirst) hothers

/-- A sum begins with its first product and ends with its last. -/
theorem Terms.row (xs : Terms) {lo mid hi : Nat} {left : Expr}
    (hl : PlacedRow c words lo [.expr left] mid) (h : TokenRow c words mid xs.tokens hi) :
    PlacedRow c words lo [.expr (xs.join left)] hi := by
  match xs with
  | .nil => exact hl.mono (Nat.le_refl _) h.le
  | .cons sign next others =>
    obtain ⟨a, hsign, h⟩ := h.exists_mid_cons
    obtain ⟨b, hnext, hothers⟩ := h.exists_mid
    exact Terms.row others (operation_row hl (Product.row next hnext) hsign.le) hothers

theorem Expression.row (x : Expression) {lo hi : Nat} (h : TokenRow c words lo x.tokens hi) :
    PlacedRow c words lo [.expr x.tree] hi := by
  match x with
  | .mk first others =>
    obtain ⟨a, hfirst, hothers⟩ := h.exists_mid
    exact Terms.row others (Product.row first hfirst) hothers

end

/-! ### Statements -/

/-- A token of a kind that has only one text stands there as that text. -/
theorem text_of_row {t : Token} {text : List Char} {lo hi : Nat} (h : TokenRow c words lo [t] hi)
    (hs : t.kind.soleText? = some text) : t.value.toList ++ t.kind.unit = text :=
  TokenKind.text_of_soleText? (InRow.singleton_iff.1 h).2.2.2.fits hs

/-- What an assignment and a declaration have in common: a name, a sign, an expression and a
semicolon. -/
theorem row_of_definition {p : Part} {name sign semicolon : Token} {value : Expression}
    {lo hi : Nat}
    (h : TokenRow c words lo (name :: sign :: (value.tokens ++ [semicolon])) hi)
    (hkind : semicolon.kind = .semicolon)
    (hspan : p.info.span = ⟨name.span.start, semicolon.span.stop⟩)
    (hchildren : p.children = [.expr value.tree])
    (hreads : ∀ text, name.value.toList ++ name.kind.unit <+: text → [';'] <:+ text →
      p.Reads words text) : PlacedRow c words lo [p] hi := by
  obtain ⟨a, hname, h⟩ := h.exists_mid_cons
  obtain ⟨b, hsign, h⟩ := h.exists_mid_cons
  obtain ⟨d, hvalue, hsemicolon⟩ := h.exists_mid
  have hle := hvalue.le
  obtain ⟨hd, hne, -⟩ := InRow.singleton_iff.1 hsemicolon
  have htext : semicolon.value.toList ++ semicolon.kind.unit = [';'] :=
    text_of_row hsemicolon (by rw [hkind]; rfl)
  refine Part.row_of_ends hname hsemicolon hspan ?_ (hsign.le.trans hle) ?_
  · rw [hchildren]
    exact (value.row hvalue).mono hsign.le (by omega)
  · rw [htext]
    exact hreads

theorem Assignment.row (x : Assignment) {lo hi : Nat} (h : TokenRow c words lo x.tokens hi) :
    PlacedRow c words lo [.assignment x.tree] hi := by
  cases x with
  | ofVariableName name sign value semicolon | ofIdentifier name sign value semicolon =>
    all_goals
      refine row_of_definition h rfl rfl rfl fun text hname hsemicolon ↦ ⟨?_, hsemicolon⟩
      exact (List.prefix_append ..).trans hname

theorem Declaration.row (x : Declaration) {lo hi : Nat} (h : TokenRow c words lo x.tokens hi) :
    PlacedRow c words lo [.declaration x.tree] hi :=
  row_of_definition h rfl rfl rfl fun _ hname hsemicolon ↦
    ⟨(List.prefix_append ..).trans hname, hsemicolon⟩

theorem Guard.row (x : Guard) {lo hi : Nat} (h : TokenRow c words lo x.tokens hi) :
    PlacedRow c words lo [.expr x.tree] hi := by
  cases x with
  | bracketed opening value closing =>
    obtain ⟨a, hopen, h⟩ := h.exists_mid_cons
    obtain ⟨b, hvalue, hclose⟩ := h.exists_mid
    exact (value.row hvalue).mono hopen.le hclose.le
  | plain value => exact value.row h

mutual

theorem Stmt.row (x : Stmt) {lo hi : Nat} (h : TokenRow c words lo x.tokens hi) :
    PlacedRow c words lo [Part.ofStmt x.tree] hi := by
  match x with
  | .declaration d => exact d.row h
  | .assignment a => exact a.row h
  | .conditional word guard body otherwise =>
    obtain ⟨a, hword, h⟩ := h.exists_mid_cons
    obtain ⟨b, hguard, h⟩ := h.exists_mid
    obtain ⟨d, hbody, hotherwise⟩ := h.exists_mid
    obtain ⟨m, v, hv, hvstop, hstmts, hvrow⟩ := Block.row body hbody
    obtain ⟨n, u, hmn, hu, hustop, hurow, helse⟩ := Otherwise.row otherwise hv hvrow hotherwise
    obtain ⟨hm, hvne, -⟩ := InRow.singleton_iff.1 hvrow
    have hab := hguard.le
    have hbm := hstmts.le
    refine Part.row_of_ends hword hurow ?_ ?_ (by omega) fun text hif hclose ↦ ⟨?_, ?_⟩
    · rw [hustop, hvstop]
      rfl
    · exact (guard.row hguard).append ((hstmts.mono (Nat.le_refl _) (by omega)).append helse)
    · rw [text_of_row hword rfl] at hif
      exact hif
    · rw [text_of_row hurow (by rw [hu]; rfl)] at hclose
      exact hclose

/-- The statements of a block stand in a row up to the brace that closes it. -/
theorem Block.row (x : Block) {lo hi : Nat} (h : TokenRow c words lo x.tokens hi) :
    ∃ mid u, u.kind = .closeCurly ∧ u.span.stop = x.stop ∧
      PlacedRow c words lo (x.tree.map Part.ofStmt) mid ∧ TokenRow c words mid [u] hi := by
  match x with
  | .mk opening body closing =>
    obtain ⟨a, hopen, h⟩ := h.exists_mid_cons
    obtain ⟨b, hbody, hclose⟩ := h.exists_mid
    exact ⟨b, closing.token, rfl, rfl, (Stmts.row body hbody).mono hopen.le (Nat.le_refl _), hclose⟩

/-- Statements lie one after the other. -/
theorem Stmts.row (x : Stmts) {lo hi : Nat} (h : TokenRow c words lo x.tokens hi) :
    PlacedRow c words lo (x.tree.map Part.ofStmt) hi := by
  match x with
  | .nil => exact .nil h.le
  | .cons first others =>
    obtain ⟨a, hfirst, hothers⟩ := h.exists_mid
    exact (Stmt.row first hfirst).append (Stmts.row others hothers)

/-- A conditional stops with a brace: the one that closes its body if there is no else branch, and
otherwise the one that closes the branch. -/
theorem Otherwise.row (x : Otherwise) {lo mid hi : Nat} {v : Token} (hv : v.kind = .closeCurly)
    (hvrow : TokenRow c words lo [v] mid) (h : TokenRow c words mid x.tokens hi) :
    ∃ after u, lo ≤ after ∧ u.kind = .closeCurly ∧ u.span.stop = x.stop v.span.stop ∧
      TokenRow c words after [u] hi ∧ PlacedRow c words v.stop (Part.ofElse x.tree) u.stop := by
  match x with
  | .absent =>
    exact ⟨lo, v, Nat.le_refl _, hv, rfl, hvrow.mono (Nat.le_refl _) h.le, .nil (Nat.le_refl _)⟩
  | .present word body =>
    obtain ⟨a, hword, hbody⟩ := h.exists_mid_cons
    obtain ⟨m, u, hu, hustop, hstmts, hurow⟩ := Block.row body hbody
    obtain ⟨hlo, hvne, hmid, -⟩ := InRow.singleton_iff.1 hvrow
    obtain ⟨hm, hune, -, hushows⟩ := InRow.singleton_iff.1 hurow
    have ham := hstmts.le
    have hma := hword.le
    refine ⟨m, u, by omega, hu, hustop, hurow, ?_⟩
    -- The branch stops where its last token does.
    have hurow' : TokenRow c words m [u] u.stop :=
      InRow.singleton_iff.2 ⟨hm, hune, Nat.le_refl _, hushows⟩
    have hrow : PlacedRow c words mid (Part.ofElse (Otherwise.present word body).tree) u.stop := by
      refine Part.row_of_ends hword hurow' ?_ ?_ ham fun text helse hclose ↦ ⟨?_, ?_⟩
      · rw [hustop]
        rfl
      · exact hstmts.mono (Nat.le_refl _) (by omega)
      · rw [text_of_row hword rfl] at helse
        exact helse
      · rw [text_of_row hurow (by rw [hu]; rfl)] at hclose
        exact hclose
    exact hrow.mono hmid (Nat.le_refl _)

end

/-! ### Items and sheets -/

/-- A selector starts with its first token. -/
theorem Selector.exists_tokens_eq (x : Selector) :
    ∃ t ts, x.tokens = t :: ts ∧ t.span.start = x.start := by
  cases x <;> exact ⟨_, _, rfl, rfl⟩

theorem Rule.row (x : Rule) {lo hi : Nat} (h : TokenRow c words lo x.tokens hi) :
    PlacedRow c words lo [.rule x.tree] hi := by
  obtain ⟨t, ts, hfirst, hstart⟩ := x.first.exists_tokens_eq
  rw [Rule.tokens, hfirst, List.cons_append] at h
  obtain ⟨a, ht, h⟩ := h.exists_mid_cons
  obtain ⟨b, hts, h⟩ := h.exists_mid
  obtain ⟨d, hothers, hbody⟩ := h.exists_mid
  obtain ⟨m, u, hu, hustop, hstmts, hurow⟩ := x.body.row hbody
  obtain ⟨hm, hune, -⟩ := InRow.singleton_iff.1 hurow
  have hab := hts.le
  have hbd := hothers.le
  have hdm := hstmts.le
  refine Part.row_of_ends ht hurow ?_ ?_ (by omega) fun text _ hclose ↦ ?_
  · rw [hstart, hustop]
    rfl
  · exact hstmts.mono (by omega) (by omega)
  · rw [text_of_row hurow (by rw [hu]; rfl)] at hclose
    exact hclose

theorem Item.row (x : Item) {lo hi : Nat} (h : TokenRow c words lo x.tokens hi) :
    PlacedRow c words lo [Part.ofItem x.tree] hi := by
  cases x with
  | assignment a => exact a.row h
  | rule r => exact r.row h

/-- Items lie one after the other. -/
theorem Sheet.row (x : Sheet) {lo hi : Nat} (h : TokenRow c words lo x.tokens hi) :
    PlacedRow c words lo ((x.map Item.tree).map Part.ofItem) hi := by
  induction x generalizing lo with
  | nil => exact .nil h.le
  | cons first others ih =>
    obtain ⟨a, hfirst, hothers⟩ := h.exists_mid
    exact (first.row hfirst).append (ih hothers)

/-- A sheet goes from the start of its file to the stop of its last item. -/
theorem Sheet.wellPlaced {x : Sheet} {hi : Nat} (hc : c.offset = 0)
    (h : TokenRow c words 0 x.tokens hi) :
    ∀ q, (Part.sheet (x.tree c.file)).Contains q → q.WellPlaced c words := by
  rcases List.eq_nil_or_concat' x with rfl | ⟨xs, i, rfl⟩
  · exact Part.wellPlaced_of_children ⟨rfl, rfl⟩ (.nil (Nat.le_refl _))
      ⟨[], c.ahead, ⟨[], rfl, hc.symm, rfl⟩, True.intro⟩
  · rw [Sheet.tokens, List.flatMap_append, List.flatMap_singleton] at h
    obtain ⟨a, hxs, hitem⟩ := h.exists_mid
    obtain ⟨ha, hne, -, hplaced⟩ := InRow.singleton_iff.1 (i.row hitem)
    have hi' := hplaced _ (.refl _)
    have hspan : (Sheet.tree c.file (xs ++ [i])).info.span =
        ⟨⟨0, c.file⟩, (Part.ofItem i.tree).info.span.stop⟩ := by
      cases i with
      | rule r => simp [Sheet.tree, Part.ofItem, Part.info, Item.tree, Item.stop, Rule.tree]
      | assignment a =>
        cases a <;> simp [Sheet.tree, Part.ofItem, Part.info, Item.tree, Item.stop, Assignment.tree]
    have hstart : (Part.sheet (Sheet.tree c.file (xs ++ [i]))).start = 0 :=
      congrArg (·.start.offset.toNat) hspan
    have hstop : (Part.sheet (Sheet.tree c.file (xs ++ [i]))).stop = (Part.ofItem i.tree).stop :=
      congrArg (·.stop.offset.toNat) hspan
    refine Part.wellPlaced_of_children ?_ ?_ ?_
    · rw [Part.info, hspan]
      exact ⟨rfl, hi'.file_eq.2⟩
    · rw [hstart, hstop, Part.children, Sheet.tree, List.map_append, List.map_append]
      exact (Sheet.row xs hxs).append
        (InRow.singleton_iff.2 ⟨ha, hne, Nat.le_refl _, hplaced⟩)
    · -- The text of the sheet is that of its last item and all that comes before it.
      obtain ⟨text, rest, ⟨before, hahead, hb, hb'⟩, -⟩ := hi'.reads
      refine ⟨before ++ text, rest, ⟨[], ?_, ?_, ?_⟩, True.intro⟩
      · rw [hahead, List.nil_append, List.append_assoc]
      · rw [hstart, hc]
        rfl
      · rw [hstart, hstop, hb', hb, hc, Text.byteLength_append]
        omega

/-- All parts of the sheet that the tokens of a source derive are well placed. -/
theorem Sheet.wellPlaced_of_tokenize {x : Sheet} {last : Token} {source file : String}
    (hlen : Text.byteLength source.toList < 2 ^ 32)
    (h : Token.tokenize source file = .ok (x.tokens ++ [last])) :
    ∀ p, (Part.sheet (x.tree file)).Contains p → p.WellPlaced (.ofSource source file) x.tokens := by
  have hlen' : 0 + Text.byteLength source.toList < 2 ^ 32 := by omega
  obtain ⟨words, last', hwords, htiled⟩ := (Token.splits_of_scan_eq_ok h).exists_tiled hlen'
  obtain ⟨rfl, -⟩ := List.append_inj' hwords rfl
  exact Sheet.wellPlaced rfl htiled.row

end Derivation

namespace Parse

/-- The spans of a source's sheet nest and cover their text. -/
theorem wellPlaced_of_sheet {source file : String} {s : Sheet}
    (hlen : Text.byteLength source.toList < 2 ^ 32) (h : sheet source file = .ok s) :
    ∃ words last, Token.tokenize source file = .ok (words ++ [last]) ∧
      ∀ p, (Part.sheet s).Contains p → p.WellPlaced (.ofSource source file) words := by
  obtain ⟨x, last, htokens, rfl⟩ := sheet_eq_ok_iff.1 h
  exact ⟨x.tokens, last, htokens, Derivation.Sheet.wellPlaced_of_tokenize hlen htokens⟩

/-- A product with a sum in parentheses, a guard in brackets, an else branch behind a comment, and a
comment at the end, which the sheet does not cover. -/
def nestedSource : String :=
  "--a: (1 + 2) * 3;\np, .q \x7b if [--a] \x7b c: (--a); \x7d /* é */ else \x7b d: #fff; \x7d " ++
    "\x7d // é"

/-- The spans are those of the nodes in the order of the text, a node before its parts. -/
theorem wellPlaced_of_sheet_nested :
    Text.byteLength nestedSource.toList < 2 ^ 32 ∧
      ∃ s, sheet nestedSource "s" = .ok s ∧
        (s.infos.map fun i ↦ (i.span.start.offset.toNat, i.span.stop.offset.toNat)) =
          [(0, 77), (0, 17), (6, 16), (6, 11), (6, 7), (10, 11), (15, 16), (18, 77), (26, 75),
            (30, 33), (37, 46), (41, 44), (58, 75), (65, 73), (68, 72)] ∧
        ∃ words last, Token.tokenize nestedSource "s" = .ok (words ++ [last]) ∧
          ∀ p, (Part.sheet s).Contains p → p.WellPlaced (.ofSource nestedSource "s") words := by
  have hlen : Text.byteLength nestedSource.toList < 2 ^ 32 := by decide +kernel
  have hspans : (sheet nestedSource "s").toOption.map (fun s ↦
      s.infos.map fun i ↦ (i.span.start.offset.toNat, i.span.stop.offset.toNat)) =
        some [(0, 77), (0, 17), (6, 16), (6, 11), (6, 7), (10, 11), (15, 16), (18, 77), (26, 75),
          (30, 33), (37, 46), (41, 44), (58, 75), (65, 73), (68, 72)] := by
    decide +kernel
  cases hs : sheet nestedSource "s" with
  | error e =>
    rw [hs] at hspans
    cases hspans
  | ok s =>
    rw [hs] at hspans
    exact ⟨hlen, s, rfl, Option.some.inj hspans, wellPlaced_of_sheet hlen hs⟩

end Parse

end TypedCss

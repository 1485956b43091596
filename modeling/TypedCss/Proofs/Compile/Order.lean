import TypedCss.Compile
import TypedCss.Proofs.Grammar.Nodes
import TypedCss.Proofs.Grammar.Source
import TypedCss.Proofs.Token.Tiling

/-!
# Diagnostics in the order of the text

What is reported on a tree that was read stands at the starts of its tokens, in the order of the
tokens and at most once at each (`Derivation.Sheet.reportedIn`). The starts of the tokens of a
source increase, and so do the offsets of its diagnostics (`check_pairwise_offset`).

An operation starts where its left operand does. That no position is reported twice is due to the
types: an operation is reported only if both operands have one, and nothing is reported in an
expression that has a type (`Expr.InOrder.typed`).
-/

namespace TypedCss

/-- The positions where tokens start. -/
def Token.starts (ts : List Token) : List Position := ts.map (·.span.start)

@[simp] theorem Token.starts_cons (t : Token) (ts : List Token) :
    starts (t :: ts) = t.span.start :: starts ts := rfl

@[simp] theorem Token.starts_append (ts us : List Token) :
    starts (ts ++ us) = starts ts ++ starts us :=
  List.map_append

/-- `ReportedIn es ts` says that errors stand at the starts of tokens, in their order and at most
one at each. -/
def Error.ReportedIn (es : List Error) (ts : List Token) : Prop :=
  (es.map position).Sublist (Token.starts ts)

namespace Error.ReportedIn

variable {es fs : List Error} {ts us : List Token}

/-- No error stands nowhere. -/
theorem nil (ts : List Token) : ReportedIn [] ts := List.nil_sublist _

/-- What is reported in two parts, one after the other, is reported in the whole. -/
theorem append (h : ReportedIn es ts) (k : ReportedIn fs us) :
    ReportedIn (es ++ fs) (ts ++ us) := by
  rw [ReportedIn, List.map_append, Token.starts_append]
  exact List.Sublist.append h k

/-- Further tokens may be among the others. -/
theorem mono (h : ReportedIn es ts) (hsub : ts.Sublist us) : ReportedIn es us :=
  List.Sublist.trans h (hsub.map _)

/-- The note on a clean node stands at its start. -/
theorem of_note (t : Token) (stop : Position) (cause? : Option Cause) :
    ReportedIn ((⟨⟨t.span.start, stop⟩, []⟩ : Info).note cause?).diagnostics [t] := by
  cases cause? with
  | none => exact nil [t]
  | some cause => exact List.Sublist.refl _

end Error.ReportedIn

/-! ### Expressions -/

/-- `e.InOrder scope ts` says of an expression that was read from tokens what checking it reports,
and where. -/
structure Expr.InOrder (scope : Scope (Option ValueType)) (e : Expr) (ts : List Token) : Prop where
  /-- The expression starts with one of the tokens. -/
  start_mem : e.info.start ∈ Token.starts ts
  /-- Nothing was reported before. -/
  clean : e.info.diagnostics = []
  /-- What is reported stands at the tokens, in their order. -/
  reported : Error.ReportedIn (e.check scope).expr.errors ts
  /-- Nothing is reported in an expression that has a type. -/
  typed : ∀ type, (e.check scope).type = some type → (e.check scope).expr.errors = []

namespace Operator

/-- An operation has a type only if its operands have. -/
theorem exists_of_typeOf?_eq_some {op : Operator} {s t : Option ValueType} {type : ValueType}
    (h : op.typeOf? s t = some type) :
    (∃ s', s = some s') ∧ (∃ t', t = some t') ∧ op.cause? s t = none := by
  match s, t with
  | some s, some t =>
    refine ⟨⟨s, rfl⟩, ⟨t, rfl⟩, ?_⟩
    simp only [typeOf?] at h
    simp [cause?, h]
  | none, none | none, some t | some s, none => cases h

/-- Something is wrong with an operation only if its operands have types. -/
theorem exists_of_cause?_eq_some {op : Operator} {s t : Option ValueType} {cause : Cause}
    (h : op.cause? s t = some cause) : (∃ s', s = some s') ∧ ∃ t', t = some t' := by
  match s, t with
  | some s, some t => exact ⟨⟨s, rfl⟩, t, rfl⟩
  | none, none | none, some t | some s, none => cases h

end Operator

namespace Expr.InOrder

variable {scope : Scope (Option ValueType)} {e left right : Expr} {ts us : List Token}

/-- More tokens do not change the order of those there are. -/
theorem mono (h : e.InOrder scope ts) (hsub : ts.Sublist us) : e.InOrder scope us where
  start_mem := (hsub.map _).subset h.start_mem
  clean := h.clean
  reported := h.reported.mono hsub
  typed := h.typed

/-- An operation is reported only if nothing is reported in its operands. -/
theorem operation (op : Operator) (sign : Token) (hl : left.InOrder scope ts)
    (hr : right.InOrder scope us) :
    (Grammar.operation op left right).InOrder scope (ts ++ sign :: us) := by
  have hmem : left.info.start ∈ Token.starts (ts ++ sign :: us) := by
    rw [Token.starts_append]
    exact List.mem_append_left _ hl.start_mem
  have herrors : ((Grammar.operation op left right).check scope).expr.errors =
      ((⟨⟨left.span.start, right.span.stop⟩, []⟩ : Info).note
        (op.cause? (left.check scope).type (right.check scope).type)).diagnostics ++
      ((left.check scope).expr.errors ++ (right.check scope).expr.errors) := by
    rw [Grammar.operation, check_pair]
    simp [errors, listErrors]
  have htype : ((Grammar.operation op left right).check scope).type =
      op.typeOf? (left.check scope).type (right.check scope).type := by
    rw [Grammar.operation, check_pair]
  refine ⟨hmem, rfl, ?_, fun type h ↦ ?_⟩
  · rw [herrors]
    cases hc : op.cause? (left.check scope).type (right.check scope).type with
    | none => exact hl.reported.append (hr.reported.mono (List.sublist_cons_self sign us))
    | some cause =>
      obtain ⟨⟨s, hs⟩, t, ht⟩ := Operator.exists_of_cause?_eq_some hc
      rw [hl.typed s hs, hr.typed t ht]
      exact List.singleton_sublist.2 hmem
  · rw [htype] at h
    obtain ⟨⟨s, hs⟩, ⟨t, ht⟩, hc⟩ := Operator.exists_of_typeOf?_eq_some h
    rw [herrors, hc, hl.typed s hs, hr.typed t ht]
    rfl

end Expr.InOrder

namespace Derivation

variable (scope : Scope (Option ValueType))

/-- A variable alone can be reported, at its own token. -/
theorem Primary.inOrder (p : Primary) : p.tree.InOrder scope [p.token] := by
  have hliteral : ∀ (v : Literal) (t : Token),
      (Expr.literal v ⟨t.span, []⟩).InOrder scope [t] :=
    fun v t ↦ ⟨List.mem_singleton_self _, rfl, .nil [t], fun _ _ ↦ rfl⟩
  have hreference : ∀ (name : String) (t : Token),
      (Expr.reference name ⟨t.span, []⟩).InOrder scope [t] := by
    intro name t
    refine ⟨List.mem_singleton_self _, rfl, ?_, ?_⟩
    · rw [Expr.check_reference]
      exact .of_note t t.span.stop _
    · rw [Expr.check_reference]
      intro type h
      cases hs : scope.lookup name with
      | none =>
        rw [hs] at h
        cases h
      | some binding => rfl
  cases p with
  | number t | pixel t | percentage t | color t | yes t | no t => exact hliteral _ t.token
  | variableName t | identifier t => exact hreference _ t.token

mutual

/-- The parentheses of a group are among its tokens, and nothing is reported at them. -/
theorem Operand.inOrder (x : Operand) : x.tree.InOrder scope x.tokens := by
  match x with
  | .primary p => exact p.inOrder scope
  | .group opening inner closing =>
    refine (Expression.inOrder inner).mono ?_
    exact (List.sublist_append_left _ _).cons _

/-- Each further factor is reported after the product before it. -/
theorem Factors.inOrder (fs : Factors) {left : Expr} {ts : List Token}
    (hl : left.InOrder scope ts) : (fs.join left).InOrder scope (ts ++ fs.tokens) := by
  match fs with
  | .nil => exact hl.mono (List.sublist_append_left _ _)
  | .cons star next others =>
    have h := Factors.inOrder others (hl.operation .multiply star.token (Operand.inOrder next))
    rw [List.append_assoc, List.cons_append] at h
    exact h

theorem Product.inOrder (x : Product) : x.tree.InOrder scope x.tokens := by
  match x with
  | .mk first others => exact Factors.inOrder others (Operand.inOrder first)

/-- Each further product is reported after the sum before it. -/
theorem Terms.inOrder (xs : Terms) {left : Expr} {ts : List Token}
    (hl : left.InOrder scope ts) : (xs.join left).InOrder scope (ts ++ xs.tokens) := by
  match xs with
  | .nil => exact hl.mono (List.sublist_append_left _ _)
  | .cons sign next others =>
    have h := Terms.inOrder others (hl.operation sign.operator sign.token (Product.inOrder next))
    rw [List.append_assoc, List.cons_append] at h
    exact h

theorem Expression.inOrder (x : Expression) : x.tree.InOrder scope x.tokens := by
  match x with
  | .mk first others => exact Terms.inOrder others (Product.inOrder first)

end

/-! ### Statements -/

/-- What is reported in an expression stands at its tokens. -/
theorem Expression.reportedIn (x : Expression) :
    Error.ReportedIn (x.tree.check scope).expr.errors x.tokens :=
  (x.inOrder scope).reported

variable (c : Checker)

/-- Only its value is reported in an assignment. -/
theorem Assignment.reportedIn (x : Assignment) :
    Error.ReportedIn (x.tree.check c).1.errors x.tokens := by
  cases x with
  | ofVariableName name sign value semicolon | ofIdentifier name sign value semicolon =>
    all_goals
      refine (value.reportedIn c.scope).mono ?_
      exact ((List.sublist_append_left _ _).cons _).cons _

/-- A declaration is reported at its property, which comes before its value. -/
theorem Declaration.reportedIn (x : Declaration) :
    Error.ReportedIn (x.tree.check c).1.errors x.tokens := by
  have hvalue : Error.ReportedIn (x.value.tree.check c.scope).expr.errors
      (x.colon.token :: (x.value.tokens ++ [x.semicolon.token])) :=
    (x.value.reportedIn c.scope).mono ((List.sublist_append_left _ _).cons _)
  rw [TypedCss.Declaration.check_eq]
  exact (Error.ReportedIn.of_note x.property.token _ _).append hvalue

theorem Guard.reportedIn (x : Guard) :
    Error.ReportedIn (x.tree.check scope).expr.errors x.tokens := by
  cases x with
  | bracketed opening value closing =>
    exact (value.reportedIn scope).mono ((List.sublist_append_left _ _).cons _)
  | plain value => exact value.reportedIn scope

mutual

/-- A conditional is reported at its word, before its guard and its branches. -/
theorem Stmt.reportedIn (x : Stmt) (c : Checker) :
    Error.ReportedIn (x.tree.check c).1.errors x.tokens := by
  match x with
  | .declaration d => exact d.reportedIn c
  | .assignment a => exact a.reportedIn c
  | .conditional word guard body otherwise =>
    -- The guard is checked after the body, but its reports are collected before those of the body.
    obtain ⟨last, -, hcheck⟩ := TypedCss.Stmt.exists_fst_check_conditional c guard.tree body.tree
      otherwise.tree ⟨⟨word.span.start, otherwise.stop body.stop⟩, []⟩
    rw [Stmt.tree, hcheck, TypedCss.Stmt.errors, List.append_assoc, List.append_assoc]
    exact (Error.ReportedIn.of_note word.token _ _).append
      ((guard.reportedIn c.scope).append
        ((Block.reportedIn body c.enter).append (Otherwise.reportedIn otherwise last)))

theorem Block.reportedIn (x : Block) (c : Checker) :
    Error.ReportedIn (Body.errors (Body.check c x.tree).1) x.tokens := by
  match x with
  | .mk opening body closing =>
    exact (Stmts.reportedIn body c).mono ((List.sublist_append_left _ _).cons _)

/-- The statements of a block are reported one after the other. -/
theorem Stmts.reportedIn (x : Stmts) (c : Checker) :
    Error.ReportedIn (Body.errors (Body.check c x.tree).1) x.tokens := by
  match x with
  | .nil => exact .nil _
  | .cons first others =>
    exact (Stmt.reportedIn first c).append (Stmts.reportedIn others _)

theorem Otherwise.reportedIn (x : Otherwise) (c : Checker) :
    Error.ReportedIn (x.tree.check c).1.errors x.tokens := by
  match x with
  | .absent => exact .nil _
  | .present word body =>
    exact (Block.reportedIn body c.enter).mono (List.sublist_cons_self _ _)

end

/-! ### Sheets -/

/-- A rule is reported in its body only. -/
theorem Item.reportedIn (x : Item) : Error.ReportedIn (x.tree.check c).1.errors x.tokens := by
  cases x with
  | assignment a => exact a.reportedIn c
  | rule r =>
    refine (r.body.reportedIn c.enter).mono ?_
    exact (List.sublist_append_right _ _).trans (List.sublist_append_right _ _)

theorem Item.reportedIn_checkAll (xs : List Item) : ∀ c : Checker,
    Error.ReportedIn ((TypedCss.Item.checkAll c (xs.map tree)).1.flatMap TypedCss.Item.errors)
      (xs.flatMap tokens) := by
  induction xs with
  | nil => exact fun _ ↦ .nil _
  | cons x xs ih => exact fun c ↦ (x.reportedIn c).append (ih _)

/-- What is reported on a sheet that was read stands at the starts of its tokens, in their order,
and at most once at each. -/
theorem Sheet.reportedIn (file : String) (x : Sheet) :
    Error.ReportedIn (x.tree file).check.1.errors x.tokens :=
  Item.reportedIn_checkAll x .start

end Derivation

/-! ### Sources -/

/-- The diagnostics of a source come in the order of the text, one at each place. -/
theorem check_pairwise_offset {source : String} {config : Config} {s : Sheet} {es : List Error}
    (hlen : Text.byteLength source.toList < 2 ^ 32)
    (hs : Parse.sheet source config.fileName = .ok s) (h : check source config = .error es) :
    es.Pairwise (fun e f ↦ e.position.offset < f.position.offset) ∧
      ∀ e ∈ es, e.position.offset.toNat < Text.byteLength source.toList := by
  obtain ⟨x, last, htokens, rfl⟩ := Parse.sheet_eq_ok_iff.1 hs
  obtain ⟨words, last', hwords, htiled⟩ :=
    (Token.splits_of_scan_eq_ok htokens).exists_tiled
      (show 0 + Text.byteLength source.toList < 2 ^ 32 by omega)
  obtain ⟨rfl, -⟩ := List.append_inj' hwords rfl
  obtain rfl : (x.tree config.fileName).check.1.errors = es := by
    rw [check, hs] at h
    simp only at h
    split at h
    · exact Except.error.inj h
    · cases h
  have hreported := x.reportedIn config.fileName
  constructor
  · have hstarts : (Token.starts x.tokens).Pairwise fun p q ↦ p.offset < q.offset :=
      List.pairwise_map.2 (htiled.pairwise_start.imp fun h ↦ UInt32.lt_iff_toNat_lt.2 h)
    have hpositions : ((x.tree config.fileName).check.1.errors.map Error.position).Pairwise
        fun p q ↦ p.offset < q.offset := hstarts.sublist hreported
    rwa [List.pairwise_map] at hpositions
  · intro e he
    obtain ⟨t, ht, hstart⟩ := List.mem_map.1 (hreported.subset (List.mem_map_of_mem he))
    rw [← hstart]
    have hlt : t.start < t.stop := htiled.start_lt_stop t ht
    have hle := htiled.stop_le ht
    rw [TextCursor.ofSource, Nat.zero_add] at hle
    exact Nat.lt_of_lt_of_le hlt hle

/-- Two conditionals, one in the else branch of the other, with mistakes in the guard of the first,
in its body, in the guard of the second, and in the name and the value of a declaration. -/
def mistakenSource : String :=
  "p \x7b if (1 + 2px) * 3 \x7b width: --x; \x7d else \x7b if 2 \x7b size: --y; \x7d \x7d \x7d"

/-- What is reported on it. -/
def mistakes : List Error :=
  [⟨.operandTypeMismatch .scalar .pixel, ⟨8, "stdin"⟩⟩, ⟨.undefinedVariable "--x", ⟨30, "stdin"⟩⟩,
    ⟨.invalidConditionType .scalar, ⟨44, "stdin"⟩⟩, ⟨.unknownProperty "size", ⟨51, "stdin"⟩⟩,
    ⟨.undefinedVariable "--y", ⟨57, "stdin"⟩⟩]

theorem check_pairwise_offset_mistakes :
    Text.byteLength mistakenSource.toList < 2 ^ 32 ∧
      (∃ s, Parse.sheet mistakenSource Config.standard.fileName = .ok s) ∧
      check mistakenSource .standard = .error mistakes ∧
      mistakes.Pairwise (fun e f ↦ e.position.offset < f.position.offset) ∧
      ∀ e ∈ mistakes, e.position.offset.toNat < Text.byteLength mistakenSource.toList := by
  have hlen : Text.byteLength mistakenSource.toList < 2 ^ 32 := by decide +kernel
  have hreported : (Parse.sheet mistakenSource Config.standard.fileName).toOption.map
      (fun s ↦ (s.check.1.hasErrors, s.check.1.errors)) = some (true, mistakes) := by
    decide +kernel
  obtain ⟨s, hs⟩ : ∃ s, Parse.sheet mistakenSource Config.standard.fileName = .ok s := by
    cases hr : Parse.sheet mistakenSource Config.standard.fileName with
    | error e =>
      rw [hr] at hreported
      cases hreported
    | ok s => exact ⟨s, rfl⟩
  have hcheck : check mistakenSource .standard = .error mistakes := by
    rw [hs] at hreported
    obtain ⟨herrors, hes⟩ := Prod.mk.inj (Option.some.inj hreported)
    rw [check, hs]
    simp only [herrors, hes, ↓reduceIte]
  exact ⟨hlen, ⟨s, hs⟩, hcheck, check_pairwise_offset hlen hs hcheck⟩

end TypedCss

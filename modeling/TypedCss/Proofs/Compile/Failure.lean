import Mathlib.Algebra.Group.Nat.Defs
import TypedCss.Compile
import TypedCss.Proofs.Compile.Order
import TypedCss.Proofs.Evaluation.Clash
import TypedCss.Proofs.Grammar.Nodes
import TypedCss.Proofs.Grammar.Source
import TypedCss.Proofs.Report
import TypedCss.Proofs.Typing.Soundness

/-!
# How compiling fails

A source that is not compiled gives one error of splitting, one of reading, any number of violations
of the typing rules, or one operation without a value (`Failure`); no other errors come from a text.
Each of them stands at a place of the source, so it has a line (`Error.IsShown`). It is shown with
its line unless the arrow below the line would be too wide, as it is behind a long name
(`report?_wideSource`).

Every stage passes on where its errors stand: a token starts at a place of the source, what cannot
be read is refused at a token, and the nodes of a tree start with a token each.
-/

namespace TypedCss

/-! ### Places of a source -/

/-- `e.IsShown source file` says that an error stands between two characters of the source, and
that it is therefore reported with a line, if there is room for its arrow. -/
structure Error.IsShown (source file : String) (e : Error) : Prop where
  /-- The position names the file. -/
  file_eq : e.position.file = file
  /-- The offset is the length of a first part of the source. -/
  boundary : ∃ before after, source.toList = before ++ after ∧
    e.position.offset.toNat = Text.byteLength before
  /-- The position has a line, which the report ends with. There is no report exactly if the arrow
  is too wide. -/
  line : ∃ line, lineAt? source e.position.offset = some line ∧
    (Report.arrowWidth line ≤ Text.maxWidth → ∃ snippet, Report.snippet? line = some snippet ∧
      ∀ shown, e.report? source shown =
        some (Report.headline e.cause ++ "\n-> " ++ shown ++ "\n" ++ snippet)) ∧
    (Text.maxWidth < Report.arrowWidth line → ∀ shown, e.report? source shown = none)

/-- In a source shorter than `2 ^ 32` bytes, an error at a place is shown. -/
theorem Error.isShown_of_hasPlace {source file : String} {e : Error}
    (hlen : Text.byteLength source.toList < 2 ^ 32)
    (h : (TextCursor.ofSource source file).HasPlace e.position) : e.IsShown source file := by
  obtain ⟨before, after, hs, hp⟩ := h
  have hs : source.toList = before ++ after := hs
  have hle : Text.byteLength before ≤ Text.byteLength source.toList := by
    rw [hs, Text.byteLength_append]
    omega
  -- An offset has 32 bits, which hold all offsets of the source.
  have hoff : e.position.offset.toNat = Text.byteLength before := by
    rw [hp]
    show (Position.ofNat file (0 + Text.byteLength before)).offset.toNat = _
    rw [Nat.zero_add]
    exact Position.toNat_offset_ofNat (Nat.lt_of_le_of_lt hle hlen)
  have hline : ∃ line, lineAt? source e.position.offset = some line := by
    rw [lineAt?]
    rw [if_neg (by omega)]
    exact ⟨_, rfl⟩
  obtain ⟨line, hl⟩ := hline
  refine ⟨by rw [hp]; rfl, ⟨before, after, hs, hoff⟩, line, hl, fun hw ↦ ?_,
    fun hw shown ↦ report?_eq_none hl shown hw⟩
  obtain ⟨margin, arrow, hsnippet, -, -⟩ := Report.exists_snippet? hl hw
  exact ⟨_, hsnippet, fun shown ↦ report?_eq_some hl shown hsnippet⟩

/-! ### Reading -/

/-- The causes for which a source cannot be read as a sheet. -/
inductive Cause.IsUnread : Cause → Prop where
  /-- A character starts no token. -/
  | unrecognisedToken (token : String) : IsUnread (.unrecognisedToken token)
  /-- Another token was needed. -/
  | unexpectedToken (token : String) : IsUnread (.unexpectedToken token)
  /-- Something else was needed. -/
  | unexpectedTokenDetailed (token message : String) :
    IsUnread (.unexpectedTokenDetailed token message)
  /-- A hash is no color. -/
  | invalidColor (token : String) : IsUnread (.invalidColor token)

/-- A source that cannot be read has one error at a place of the source. -/
theorem Parse.sheet_eq_error {source file : String} {e : Error}
    (h : Parse.sheet source file = .error e) :
    e.cause.IsUnread ∧ (TextCursor.ofSource source file).HasPlace e.position := by
  rw [Parse.sheet] at h
  split at h
  · rename_i e' ht
    cases h
    obtain ⟨⟨token, hc⟩, hp⟩ := Token.hasPlace_of_scan_eq_error ht
    rw [hc]
    exact ⟨.unrecognisedToken token, hp⟩
  · rename_i tokens ht
    have hsplits := Token.splits_of_scan_eq_ok ht
    obtain ⟨words, last, rfl, hlast, hexact⟩ := Grammar.exists_readExactly file hsplits
    obtain ⟨t, ht, hr⟩ := Grammar.refusal_of_sheet_eq_error hlast h
    have hplace := hsplits.hasPlace t ht
    cases hr with
    | mismatch => exact ⟨.unexpectedToken _, hplace⟩
    | unexpected message => exact ⟨.unexpectedTokenDetailed _ message, hplace⟩
    | color hk hc => exact ⟨.invalidColor _, hplace⟩
    | number hk hn =>
      -- A numeral of a source is a number, so none of its tokens is refused for this.
      have hw : t ∈ words := by
        refine (List.mem_append.1 ht).resolve_right fun hl ↦ ?_
        rw [List.mem_singleton.1 hl, hlast] at hk
        simp at hk
      obtain ⟨x, hx⟩ := hexact.number_of_numeral t hw hk
      cases hn.symm.trans hx

/-- A source that is read is the meaning of a derivation from its tokens. -/
theorem Parse.sheet_eq_ok {source file : String} {s : Sheet} (h : Parse.sheet source file = .ok s) :
    ∃ x : Derivation.Sheet, x.tree file = s ∧
      ∀ t ∈ x.tokens, (TextCursor.ofSource source file).HasPlace t.span.start := by
  obtain ⟨x, last, ht, rfl⟩ := sheet_eq_ok_iff.1 h
  have hsplits := Token.splits_of_scan_eq_ok ht
  exact ⟨x, rfl, fun t hx ↦ hsplits.hasPlace t (List.mem_append_left _ hx)⟩

/-! ### Checking and evaluating -/

/-- A position where a node of a sheet that was read starts is a place of the source. -/
theorem hasPlace_of_mem_infos {source file : String} {x : Derivation.Sheet} {i : Info}
    (hx : ∀ t ∈ x.tokens, (TextCursor.ofSource source file).HasPlace t.span.start)
    (hi : i ∈ (x.tree file).infos) : (TextCursor.ofSource source file).HasPlace i.start := by
  rcases (x.infos_tree file i hi).2 with hs | ⟨t, ht, hs⟩
  · rw [hs]
    exact TextCursor.hasPlace_position _
  · rw [hs]
    exact hx t ht

/-- What is reported on a source that was read is a violation of the typing rules, and not that an
operation lacks operands. -/
theorem errors_check_tree {source file : String} {x : Derivation.Sheet} {e : Error}
    (hx : ∀ t ∈ x.tokens, (TextCursor.ofSource source file).HasPlace t.span.start)
    (he : e ∈ (x.tree file).check.1.errors) :
    e.cause.IsNoted True ∧ (TextCursor.ofSource source file).HasPlace e.position := by
  rcases Sheet.mem_errors_check (fun _ ↦ x.isBinary_tree file) he with he | ⟨hc, i, hi, hp⟩
  · -- Nothing was reported before, since a tree that was read is clean.
    rw [Sheet.errors_eq_flatMap] at he
    obtain ⟨i, hi, he⟩ := List.mem_flatMap.1 he
    rw [(x.infos_tree file i hi).1] at he
    cases he
  · rw [hp]
    exact ⟨hc, hasPlace_of_mem_infos hx hi⟩

/-- An evaluation of a checked sheet fails at an operation without a value only, and the operation
starts with one of the tokens. -/
theorem start_of_evaluate_tree_eq_error {file : String} {x : Derivation.Sheet} {e : Error}
    (hc : (x.tree file).check.1.hasErrors = false)
    (he : (x.tree file).check.1.evaluate = .error e) :
    (∃ op left right, e.cause = .unfoldableOperation op left right) ∧
      e.position ∈ Token.starts x.tokens := by
  have hitems : (Item.checkAll .start (x.tree file).items).1.any Item.hasErrors = false :=
    (Bool.or_eq_false_iff.1 hc).2
  rw [Sheet.check_eq_self hc] at he
  rcases Item.evaluateAll_sound _ (c := .start) .empty hitems with ⟨out, ho, -⟩ | ⟨clash, hs, -⟩
  · rw [Sheet.evaluate, ho] at he
    cases he
  · rw [Sheet.evaluate_of_stopsAt hs] at he
    cases he
    obtain ⟨t, ht, hstart⟩ := (x.startsIn_items file _ (Item.info_mem_of_stopsAt hs)).start
    refine ⟨⟨_, _, _, rfl⟩, ?_⟩
    rw [Token.starts, List.mem_map]
    exact ⟨t, ht, hstart.symm⟩

/-- An evaluation of a checked source fails at an operation without a value only. -/
theorem evaluate_tree_eq_error {source file : String} {x : Derivation.Sheet} {e : Error}
    (hx : ∀ t ∈ x.tokens, (TextCursor.ofSource source file).HasPlace t.span.start)
    (hc : (x.tree file).check.1.hasErrors = false)
    (he : (x.tree file).check.1.evaluate = .error e) :
    (∃ op left right, e.cause = .unfoldableOperation op left right) ∧
      (TextCursor.ofSource source file).HasPlace e.position := by
  obtain ⟨hcause, hp⟩ := start_of_evaluate_tree_eq_error hc he
  obtain ⟨t, ht, hstart⟩ := List.mem_map.1 hp
  exact ⟨hcause, hstart ▸ hx t ht⟩

/-! ### Compiling -/

/-- The lists of errors that compiling gives. -/
inductive Failure (checkOnly : Bool) : List Error → Prop where
  /-- A character of the source starts no token. -/
  | unrecognisedToken (token : String) (p : Position) :
    Failure checkOnly [⟨.unrecognisedToken token, p⟩]
  /-- A token stands where another one was needed. -/
  | unexpectedToken (token : String) (p : Position) :
    Failure checkOnly [⟨.unexpectedToken token, p⟩]
  /-- A token stands where something else was needed. -/
  | unexpectedTokenDetailed (token message : String) (p : Position) :
    Failure checkOnly [⟨.unexpectedTokenDetailed token message, p⟩]
  /-- A hash in an expression is no color. -/
  | invalidColor (token : String) (p : Position) : Failure checkOnly [⟨.invalidColor token, p⟩]
  /-- The typing rules are violated, at least once; no operation lacks operands. -/
  | violations (es : List Error) (hne : es ≠ []) (hs : ∀ e ∈ es, e.cause.isSemantic = true)
    (ha : ∀ e ∈ es, ∀ op n, e.cause ≠ .operandArity op n) : Failure checkOnly es
  /-- Two values have no arithmetic, and the source was to be evaluated. -/
  | unfoldableOperation (op left right : String) (p : Position) (h : checkOnly = false) :
    Failure checkOnly [⟨.unfoldableOperation op left right, p⟩]

theorem failure_of_isUnread {checkOnly : Bool} {e : Error} (h : e.cause.IsUnread) :
    Failure checkOnly [e] := by
  obtain ⟨cause, p⟩ := e
  cases h with
  | unrecognisedToken token => exact .unrecognisedToken token p
  | unexpectedToken token => exact .unexpectedToken token p
  | unexpectedTokenDetailed token message => exact .unexpectedTokenDetailed token message p
  | invalidColor token => exact .invalidColor token p

/-- Every failure of compiling has one of the forms, and each of its errors has a line of the source,
with which it is shown if there is room for its arrow. -/
theorem compile_eq_error {source : String} {config : Config} {es : List Error}
    (hlen : Text.byteLength source.toList < 2 ^ 32) (h : compile source config = .error es) :
    Failure config.checkOnly es ∧ ∀ e ∈ es, e.IsShown source config.fileName := by
  rw [compile, check] at h
  -- The errors are those of the first stage that gives any: reading, checking, evaluating.
  cases hs : Parse.sheet source config.fileName with
  | error e =>
    rw [hs] at h
    cases h
    obtain ⟨hc, hp⟩ := Parse.sheet_eq_error hs
    refine ⟨failure_of_isUnread hc, fun e he ↦ ?_⟩
    obtain rfl := List.mem_singleton.1 he
    exact Error.isShown_of_hasPlace hlen hp
  | ok s =>
    rw [hs] at h
    obtain ⟨x, rfl, hx⟩ := Parse.sheet_eq_ok hs
    cases hc : (x.tree config.fileName).check.1.hasErrors with
    | true =>
      simp only [hc, ↓reduceIte] at h
      cases h
      have herrors := fun e he ↦ errors_check_tree hx (e := e) he
      exact ⟨.violations _ (Sheet.errors_ne_nil hc) (fun e he ↦ (herrors e he).1.semantic)
        fun e he ↦ (herrors e he).1.not_arity trivial,
        fun e he ↦ Error.isShown_of_hasPlace hlen (herrors e he).2⟩
    | false =>
      simp only [hc, Bool.false_eq_true, ↓reduceIte] at h
      split at h
      · cases h
      · rename_i hcheck
        split at h
        · rename_i e he
          cases h
          obtain ⟨⟨op, left, right, hcause⟩, hp⟩ := evaluate_tree_eq_error hx hc he
          obtain ⟨cause, p⟩ := e
          obtain rfl : cause = _ := hcause
          refine ⟨.unfoldableOperation op left right p (Bool.eq_false_iff.2 hcheck), fun e he ↦ ?_⟩
          obtain rfl := List.mem_singleton.1 he
          exact Error.isShown_of_hasPlace hlen hp
        · cases h

/-- A sum of colors is read and checked, and fails when it is evaluated. -/
theorem compile_eq_error_colors :
    Text.byteLength "p \x7b color: #fff + #000; \x7d".toList < 2 ^ 32 ∧
      compile "p \x7b color: #fff + #000; \x7d" .standard =
        .error [⟨.unfoldableOperation "+" "#fff" "#000", ⟨11, "stdin"⟩⟩] ∧
      Failure Config.standard.checkOnly
        [⟨.unfoldableOperation "+" "#fff" "#000", ⟨11, "stdin"⟩⟩] ∧
      ∀ e ∈ [(⟨.unfoldableOperation "+" "#fff" "#000", ⟨11, "stdin"⟩⟩ : Error)],
        e.IsShown "p \x7b color: #fff + #000; \x7d" Config.standard.fileName := by
  have hlen : Text.byteLength "p \x7b color: #fff + #000; \x7d".toList < 2 ^ 32 := by
    decide +kernel
  have h : compile "p \x7b color: #fff + #000; \x7d" .standard =
      .error [⟨.unfoldableOperation "+" "#fff" "#000", ⟨11, "stdin"⟩⟩] := by
    decide +kernel
  exact ⟨hlen, h, compile_eq_error hlen h⟩

/-! ### Lines that are too wide -/

/-- A name with a number of letters, and a character that starts no token. -/
def wideSource (n : ℕ) : String := String.ofList (List.replicate n 'a' ++ ['@'])

theorem toList_wideSource (n : ℕ) : (wideSource n).toList = List.replicate n 'a' ++ ['@'] :=
  String.toList_ofList

theorem byteLength_wideSource (n : ℕ) : Text.byteLength (wideSource n).toList = n + 1 := by
  have hascii : ∀ c ∈ List.replicate n 'a' ++ ['@'], c.toNat < 128 := by
    intro c hc
    rcases List.mem_append.1 hc with hc | hc
    · rw [List.eq_of_mem_replicate hc]
      decide
    · rw [List.mem_singleton.1 hc]
      decide
  rw [toList_wideSource, Text.byteLength_eq_length hascii, List.length_append, List.length_replicate,
    List.length_singleton]

/-- The character behind the name is an error. -/
theorem compile_wideSource {n : ℕ} (hn : 0 < n) (config : Config) :
    compile (wideSource n) config =
      .error [⟨.unrecognisedToken "@", .ofNat config.fileName n⟩] := by
  have hname : Text.IsName (List.replicate n 'a') := by
    obtain ⟨k, rfl⟩ := Nat.exists_eq_succ_of_ne_zero hn.ne'
    refine ⟨'a', List.replicate k 'a', rfl, rfl, fun c hc ↦ ?_⟩
    rw [List.eq_of_mem_replicate hc]
    rfl
  have hstart : Text.byteLength (List.replicate n 'a') = n := by
    have hlength := byteLength_wideSource n
    rw [toList_wideSource, Text.byteLength_append] at hlength
    exact Nat.add_right_cancel hlength
  have hstray : Lexeme.read? ['@'] = none := by decide
  have htokens : Token.tokenize (wideSource n) config.fileName =
      .error ⟨.unrecognisedToken "@", .ofNat config.fileName n⟩ := by
    have hend : Text.Stops Text.isNamePart ['@'] := Text.stops_cons.2 rfl
    have hread := Lexeme.read?_name hname hend
    rw [← toList_wideSource] at hread
    rw [Token.tokenize, Token.scan_of_read?_eq_some hread, Token.scan_of_read?_eq_none rfl hstray]
    simp [TextCursor.position, TextCursor.ofSource, Lexeme.text, hstart, Except.map]
  rw [compile, check, Parse.sheet, htokens]

/-- Behind as many letters as an arrow can be wide there is no room for the arrow. -/
theorem report?_wideSource {n : ℕ} (hlow : Text.maxWidth ≤ n) (hhigh : n < 2 ^ 32) (cause : Cause)
    (file shown : String) : (⟨cause, .ofNat file n⟩ : Error).report? (wideSource n) shown = none := by
  have hoffset : (Position.ofNat file n).offset.toNat = n := Position.toNat_offset_ofNat hhigh
  have hn : '\n' ∉ (wideSource n).toList := by
    rw [toList_wideSource, List.mem_append, List.mem_replicate]
    simp
  have hline : lineAt? (wideSource n) (Position.ofNat file n).offset =
      some ⟨1, (wideSource n).toList, n⟩ := by
    rw [lineAt?_of_not_mem hn (by rw [hoffset, byteLength_wideSource]; exact Nat.lt_succ_self n),
      hoffset]
  have hspaces : Report.spaces ⟨1, (wideSource n).toList, n⟩ = 0 := by
    rw [Report.spaces, toList_wideSource]
    cases n <;> rfl
  refine Error.report?_eq_none hline shown ?_
  rw [Report.arrowWidth, hspaces]
  exact Nat.lt_succ_of_le hlow

/-- The failure of a source of less than `2 ^ 32` bytes that has no report. -/
theorem compile_eq_error_wide :
    Text.byteLength (wideSource 65535).toList < 2 ^ 32 ∧
      ∃ es, compile (wideSource 65535) .standard = .error es ∧
        ∃ e ∈ es, e.report? (wideSource 65535) Config.standard.fileName = none :=
  ⟨by rw [byteLength_wideSource]; decide, _, compile_wideSource (by decide) .standard, _,
    List.mem_singleton_self _, report?_wideSource (Nat.le_refl _) (by decide) ..⟩

end TypedCss

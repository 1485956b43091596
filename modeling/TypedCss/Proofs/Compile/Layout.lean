import TypedCss.Proofs.Compile.Failure
import TypedCss.Proofs.Evaluation.Independence
import TypedCss.Proofs.Token.Numbering
import TypedCss.Proofs.Typing.Relabeling

/-!
# The layout of a source is irrelevant

What a source is compiled to depends on what its tokens say, and not on where they stand or on the
name of the file. Where two sources agree in the contents of their tokens, either both are compiled
to the same text, or both fail with the same causes, each at the same token of its source
(`compile_layout`).

All that compiling does after splitting commutes with moving tokens (`compileRead_relabel`). So the
tokens of both sources are had by moving the same numbered tokens, and what is compiled is what the
numbered tokens are compiled to, moved.
-/

namespace TypedCss

/-! ### Compiling what was read -/

/-- What compiling does with what was read. -/
def compileRead (read : Except Error Sheet) (checkOnly : Bool) (indent : Nat) :
    Except (List Error) (Option String) :=
  match read with
  | .error e => .error [e]
  | .ok s =>
    if s.check.1.hasErrors then .error s.check.1.errors
    else if checkOnly then .ok none
    else
      match s.check.1.evaluate with
      | .error e => .error [e]
      | .ok t => .ok (some (t.css indent))

/-- Compiling is reading, and compiling what was read. -/
theorem compile_eq_compileRead (source : String) (config : Config) :
    compile source config =
      compileRead (Parse.sheet source config.fileName) config.checkOnly config.indent := by
  rw [compile, check, compileRead.eq_def]
  cases Parse.sheet source config.fileName with
  | error e => rfl
  | ok s =>
    dsimp only
    generalize s.check.1.hasErrors = hasErrors
    cases hasErrors <;> rfl

/-- A moved sheet is compiled to the same text as the sheet, or fails with the moved errors. -/
theorem compileRead_relabel (r : Relocation) (read : Except Error Sheet) (checkOnly : Bool)
    (indent : Nat) :
    compileRead ((read.map (Sheet.relabel (Info.move r))).mapError (Error.move r.start)) checkOnly
        indent =
      (compileRead read checkOnly indent).mapError (List.map (Error.move r.start)) := by
  cases read with
  | error e => rfl
  | ok s =>
    show compileRead (.ok (s.relabel (Info.move r))) checkOnly indent = _
    rw [compileRead, compileRead, Sheet.check_relabel]
    simp only [Sheet.hasErrors_relabel, Sheet.errors_relabel]
    cases s.check.1.hasErrors with
    | true => rfl
    | false =>
      cases checkOnly with
      | true => rfl
      | false =>
        simp only [Bool.false_eq_true, ↓reduceIte]
        rw [Sheet.evaluate_relabel (Info.relabels_move r)]
        cases s.check.1.evaluate with
        | error e => rfl
        | ok t => exact congrArg (Except.ok <| some ·) (t.css_relabel (Info.move r) indent)

/-- Each error of compiling what was read from tokens stands where one of the tokens starts. -/
theorem position_mem_of_compileRead {words : List Token} {last : Token} {file : String}
    {checkOnly : Bool} {indent : Nat} {es : List Error} (hwords : ∀ t ∈ words, t.kind ≠ .eof)
    (hlast : last.kind = .eof)
    (h : compileRead (Grammar.sheet (words ++ [last]) file).1 checkOnly indent = .error es) :
    ∀ e ∈ es, e.position ∈ Token.starts (words ++ [last]) := by
  cases hread : (Grammar.sheet (words ++ [last]) file).1 with
  | error e =>
    obtain ⟨t, ht, hr⟩ := Grammar.refusal_of_sheet_eq_error hlast hread
    rw [hread] at h
    cases h
    rintro _ he
    obtain rfl := List.mem_singleton.1 he
    exact List.mem_map.2 ⟨t, ht, hr.position_eq.symm⟩
  | ok s =>
    obtain ⟨x, rfl, rfl⟩ := (Grammar.sheet_eq_ok_iff hwords hlast).1 hread
    rw [hread, compileRead] at h
    rw [Token.starts_append]
    cases hc : (x.tree file).check.1.hasErrors with
    | true =>
      simp only [hc, ↓reduceIte] at h
      cases h
      intro e he
      exact List.mem_append_left _ ((x.reportedIn file).subset (List.mem_map_of_mem he))
    | false =>
      simp only [hc, Bool.false_eq_true, ↓reduceIte] at h
      split at h
      · cases h
      · split at h
        · rename_i e he
          cases h
          intro e' he'
          obtain rfl := List.mem_singleton.1 he'
          exact List.mem_append_left _ (start_of_evaluate_tree_eq_error hc he).2
        · cases h

/-! ### Two sources -/

/-- `Counterpart ts us e f` says that two errors have the same cause, and stand at the starts of
tokens with the same index in two lists. -/
structure Error.Counterpart (ts us : List Token) (e f : Error) : Prop where
  /-- The causes are the same. -/
  cause_eq : e.cause = f.cause
  /-- The tokens have the same index. -/
  token : ∃ (n : Nat) (t u : Token), ts[n]? = some t ∧ us[n]? = some u ∧ e.position = t.span.start ∧
    f.position = u.span.start

/-- Tokens are read as the sheet that their numbers are read as, moved to where they stand. -/
theorem Grammar.sheet_eq_numbered (words : List Token) {last : Token} (file : String)
    (hlast : last.kind = .eof) :
    (sheet (words ++ [last]) file).1 =
      ((sheet (Token.numbered (words ++ [last])) "").1.map
        (Sheet.relabel (Info.move (.to file (words ++ [last]))))).mapError
          (Error.move (Relocation.to file (words ++ [last])).start) := by
  have hmove := Token.map_move_numbered file (words ++ [last])
  rw [Token.numbered_concat, List.map_append, List.map_singleton] at hmove
  have hend : (⟨last.kind, last.value, .empty (.nth (words.length + 1))⟩ : Token).kind = .eof :=
    hlast
  rw [Token.numbered_concat, ← sheet_relabel hend rfl rfl, hmove]

/-- A source is compiled to what its numbered tokens are compiled to, with the errors where the
tokens are. -/
theorem compile_eq_numbered {source : String} {config : Config} {ts : List Token}
    (h : Token.tokenize source config.fileName = .ok ts) :
    compile source config =
      (compileRead (Grammar.sheet (Token.numbered ts) "").1 config.checkOnly config.indent).mapError
        (List.map (Error.move (Relocation.to config.fileName ts).start)) := by
  obtain ⟨words, last, rfl, hlast, -⟩ := Token.exists_words_of_tokenize h
  have hread : Parse.sheet source config.fileName =
      (Grammar.sheet (words ++ [last]) config.fileName).1 := by
    rw [Parse.sheet, h]
  rw [compile_eq_compileRead, hread, Grammar.sheet_eq_numbered words config.fileName hlast,
    compileRead_relabel]

/-- The errors of the numbered tokens are at the starts of these. -/
theorem exists_nth_of_compileRead {source file : String} {ts : List Token} {checkOnly : Bool}
    {indent : Nat} {es : List Error} (hts : Token.tokenize source file = .ok ts)
    (h : compileRead (Grammar.sheet (Token.numbered ts) "").1 checkOnly indent = .error es) :
    ∀ e ∈ es, ∃ n < ts.length, e.position = .nth (n + 1) := by
  obtain ⟨words, last, rfl, hlast, hfits⟩ := Token.exists_words_of_tokenize hts
  have hend : (⟨last.kind, last.value, .empty (.nth (words.length + 1))⟩ : Token).kind = .eof :=
    hlast
  rw [Token.numbered_concat] at h
  have hwords := Token.kind_ne_eof_of_mem_numbered hfits.kind_ne_eof
  intro e he
  have hmem := position_mem_of_compileRead hwords hend h e he
  rw [← Token.numbered_concat] at hmem
  obtain ⟨t, ht, hstart⟩ := List.mem_map.1 hmem
  obtain ⟨n, hn⟩ := List.mem_iff_getElem?.1 ht
  rw [Token.getElem?_numbered, Option.map_eq_some_iff] at hn
  obtain ⟨u, hu, rfl⟩ := hn
  exact ⟨n, (List.getElem?_eq_some_iff.1 hu).1, hstart.symm⟩

/-- Sources with the same contents of their tokens are compiled to the same, or fail with the same
causes at the same tokens. -/
theorem compile_layout {a b : String} {first second : Config} {ts us : List Token}
    (ha : Token.tokenize a first.fileName = .ok ts) (hb : Token.tokenize b second.fileName = .ok us)
    (hcontent : ts.map Token.content = us.map Token.content)
    (hcheck : first.checkOnly = second.checkOnly) (hindent : first.indent = second.indent) :
    (∃ css, compile a first = .ok css ∧ compile b second = .ok css) ∨
      ∃ es fs, compile a first = .error es ∧ compile b second = .error fs ∧
        List.Forall₂ (Error.Counterpart ts us) es fs := by
  rw [compile_eq_numbered ha, compile_eq_numbered hb, ← hcheck, ← hindent,
    ← Token.numbered_eq_of_content hcontent]
  cases hc : compileRead (Grammar.sheet (Token.numbered ts) "").1 first.checkOnly first.indent with
  | ok css => exact .inl ⟨css, rfl, rfl⟩
  | error es =>
    refine .inr ⟨_, _, rfl, rfl, ?_⟩
    rw [List.forall₂_map_left_iff, List.forall₂_map_right_iff, List.forall₂_same]
    intro e he
    obtain ⟨n, hn, hp⟩ := exists_nth_of_compileRead ha hc e he
    have hn' : n < us.length := by
      have hlength := congrArg List.length hcontent
      rw [List.length_map, List.length_map] at hlength
      omega
    refine ⟨rfl, n, ts[n], us[n], List.getElem?_eq_getElem hn, List.getElem?_eq_getElem hn', ?_, ?_⟩
    · rw [Error.move, hp, Relocation.start_to_nth (List.getElem?_eq_getElem hn)]
    · rw [Error.move, hp, Relocation.start_to_nth (List.getElem?_eq_getElem hn')]

/-- A source on one line, with two mistakes. -/
def tightSource : String := "a\x7bwidth:--x;if 2\x7b\x7d\x7d"

/-- The same over several lines, with comments. -/
def looseSource : String := "/* é */ a \x7b\n  width : --x ; // x\n\n  if 2 \x7b \x7d\n\x7d\n"

theorem compile_layout_loose : ∃ ts us,
    Token.tokenize tightSource "a" = .ok ts ∧ Token.tokenize looseSource "b" = .ok us ∧
      ts.map Token.content = us.map Token.content ∧
      compile tightSource ⟨"a", false, 4⟩ = .error [⟨.undefinedVariable "--x", ⟨8, "a"⟩⟩,
        ⟨.invalidConditionType .scalar, ⟨12, "a"⟩⟩] ∧
      ((∃ css, compile tightSource ⟨"a", false, 4⟩ = .ok css ∧
          compile looseSource ⟨"b", false, 4⟩ = .ok css) ∨
        ∃ es fs, compile tightSource ⟨"a", false, 4⟩ = .error es ∧
          compile looseSource ⟨"b", false, 4⟩ = .error fs ∧
            List.Forall₂ (Error.Counterpart ts us) es fs) := by
  have h : (do
      let ts ← (Token.tokenize tightSource "a").toOption
      let us ← (Token.tokenize looseSource "b").toOption
      pure (decide (ts.map Token.content = us.map Token.content))) = some true := by
    decide +kernel
  have hcompile : compile tightSource ⟨"a", false, 4⟩ = .error
      [⟨.undefinedVariable "--x", ⟨8, "a"⟩⟩, ⟨.invalidConditionType .scalar, ⟨12, "a"⟩⟩] := by
    decide +kernel
  cases ha : Token.tokenize tightSource "a" with
  | error e =>
    rw [ha] at h
    cases h
  | ok ts =>
    cases hb : Token.tokenize looseSource "b" with
    | error e =>
      rw [ha, hb] at h
      cases h
    | ok us =>
      rw [ha, hb] at h
      have hcontent : ts.map Token.content = us.map Token.content :=
        of_decide_eq_true (Option.some.inj h)
      exact ⟨ts, us, rfl, rfl, hcontent, hcompile,
        @compile_layout _ _ ⟨"a", false, 4⟩ ⟨"b", false, 4⟩ ts us ha hb hcontent rfl rfl⟩

end TypedCss

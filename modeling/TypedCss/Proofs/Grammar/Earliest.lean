import TypedCss.Proofs.Grammar.Source
import TypedCss.Proofs.Grammar.Viable.Sheet
import TypedCss.Proofs.Token.Numbering

/-!
# The earliest token that cannot stand

Where reading a list of tokens gives an error, it stands at the first token that cannot stand where
it does. The tokens before it begin a sheet (`begins_of_items_eq_error`), and whatever follows it,
reading gives the same error there, since readers look no further than where they stop
(`items_movedUpTo`).

So no reader refuses a token late, after one that was wrong already, and none refuses it early,
because of one that comes after it.
-/

namespace TypedCss

open Token (AllFit content)

/-- `d.StandsAt tokens k` says that the cursor `d` stands at the token `k` of a list. -/
structure TokenCursor.StandsAt (tokens : List Token) (k : Nat) (d : TokenCursor) : Prop where
  /-- The tokens before are passed. -/
  passed : d.passed.reverse = tokens.take k
  /-- The token is the current one. -/
  current : tokens[k]? = some d.current

namespace Grammar

/-- `Earliest tokens k e` says that the error `e` is about the token `k` of a list, and that this is
the first token that cannot stand where it does. -/
structure Earliest (tokens : List Token) (k : Nat) (e : Error) : Prop where
  /-- The error has the position of the token. -/
  position : tokens[k]?.map (·.span.start) = some e.position
  /-- The tokens before are completed to a sheet by others, whichever token ends the list. -/
  viable : ∃ more, AllFit more ∧ ∀ (last : Token) (file : String), last.kind = .eof →
    ∃ s, (sheet (tokens.take k ++ more ++ [last]) file).1 = .ok s
  /-- Every list with the same contents up to the token is refused at that token, for the same
  reason. -/
  refused : ∀ (words : List Token) (last : Token) (file : String),
    (∀ t ∈ words, t.kind ≠ .eof) → last.kind = .eof →
    ((words ++ [last]).take (k + 1)).map content = (tokens.take (k + 1)).map content →
    ∃ e' d, sheet (words ++ [last]) file = (.error e', d) ∧ d.StandsAt (words ++ [last]) k ∧
      e'.cause = e.cause ∧ e'.position = d.position

theorem sheet_eq_error_iff {tokens : List Token} {file : String} {e : Error} {d : TokenCursor} :
    sheet tokens file = (.error e, d) ↔
      items .standard (.ofTokens tokens file) = (.error e, d) := by
  rw [sheet]
  split
  · rename_i h
    rw [h]
    simp
  · rename_i h
    rw [h]
    simp

section

variable {words : List Token} {last : Token} {file : String} {e : Error} {d : TokenCursor}

/-- Where a list of tokens is refused, what was passed begins a sheet, and the error is about the
current token. -/
theorem exists_begins_of_sheet_eq_error (hlast : last.kind = .eof)
    (h : sheet (words ++ [last]) file = (.error e, d)) : ∃ ts, words = ts ++ d.ahead ∧
      d.passed = ts.reverse ∧ d.last.toToken = last ∧ Begins Derivation.Sheet.tokens ts ∧
        d.current.Refusal e := by
  rw [sheet_eq_error_iff, ofTokens_append words file hlast] at h
  obtain ⟨ts, hts, hbegins⟩ := begins_of_items_eq_error h
  refine ⟨ts, hts.ahead, ?_, ?_, hbegins, (refusal_of_items_eq_error h).2⟩
  · rw [hts.passed, List.append_nil]
  · rw [hts.last, EndToken.toToken, ← hlast]

/-- Where a list of tokens is refused, the cursor stands at a token of the list. -/
theorem standsAt_of_sheet_eq_error (hlast : last.kind = .eof)
    (h : sheet (words ++ [last]) file = (.error e, d)) :
    d.StandsAt (words ++ [last]) d.index ∧ e.position = d.position := by
  obtain ⟨ts, rfl, hpassed, hend, -, hrefusal⟩ := exists_begins_of_sheet_eq_error hlast h
  have hindex : d.index = ts.length := by rw [TokenCursor.index, hpassed, List.length_reverse]
  refine ⟨⟨?_, ?_⟩, hrefusal.position_eq⟩
  · rw [hindex, hpassed, List.reverse_reverse, List.append_assoc, List.take_left]
  · rw [hindex, List.append_assoc, List.getElem?_append_right (Nat.le_refl _), Nat.sub_self,
      TokenCursor.current, hend]
    cases d.ahead <;> rfl

/-- Where a list of tokens is refused, the tokens before can be completed. -/
theorem exists_sheet_eq_ok_of_error (hwords : ∀ t ∈ words, t.kind ≠ .eof)
    (hlast : last.kind = .eof) (h : sheet (words ++ [last]) file = (.error e, d)) :
    ∃ more, AllFit more ∧ ∀ (stop : Token) (name : String), stop.kind = .eof →
      ∃ s, (sheet ((words ++ [last]).take d.index ++ more ++ [stop]) name).1 = .ok s := by
  obtain ⟨⟨htake, -⟩, -⟩ := standsAt_of_sheet_eq_error hlast h
  obtain ⟨ts, hts, hpassed, -, ⟨x, more, hmore, hx⟩, -⟩ := exists_begins_of_sheet_eq_error hlast h
  refine ⟨more, hmore, fun stop name hstop ↦ ⟨x.tree name, ?_⟩⟩
  rw [← htake, hpassed, List.reverse_reverse, ← hx]
  refine (sheet_eq_ok_iff ?_ hstop).2 ⟨x, rfl, rfl⟩
  rw [hx]
  refine List.forall_mem_append.2 ⟨fun t ht ↦ hwords t ?_, hmore.kind_ne_eof⟩
  rw [hts]
  exact List.mem_append_left _ ht

/-- The words of a list are its tokens that are no ends. -/
theorem getElem?_words (hwords : ∀ t ∈ words, t.kind ≠ .eof) (hlast : last.kind = .eof) (i : Nat) :
    words[i]? = (words ++ [last])[i]?.filter (·.kind != .eof) := by
  rcases Nat.lt_trichotomy i words.length with hi | rfl | hi
  · rw [List.getElem?_append_left hi, List.getElem?_eq_getElem hi]
    simp [Option.filter, hwords _ (List.getElem_mem hi)]
  · simp [Option.filter, hlast]
  · rw [List.getElem?_eq_none (Nat.le_of_lt hi), List.getElem?_eq_none]
    · rfl
    · rw [List.length_append, List.length_singleton]
      exact hi

/-- The tokens of a list are had from those of another one that are numbered, as far as the contents
of the lists agree. -/
theorem ofTokens_numbered_movedUpTo {words' : List Token} {last' : Token} {k : Nat}
    (hwords : ∀ t ∈ words, t.kind ≠ .eof) (hlast : last.kind = .eof)
    (hwords' : ∀ t ∈ words', t.kind ≠ .eof) (hlast' : last'.kind = .eof) (file : String)
    (h : ((words' ++ [last']).take (k + 1)).map content =
      ((words ++ [last]).take (k + 1)).map content) :
    TokenCursor.MovedUpTo (.to file (words' ++ [last'])) k []
      (.ofTokens (Token.numbered (words ++ [last])) "") (.ofTokens (words' ++ [last']) file) := by
  have hget : ∀ i ≤ k, (Token.numbered (words ++ [last]))[i]?.map
      (Token.move (.to file (words' ++ [last']))) = (words' ++ [last'])[i]? := by
    intro i hi
    have hi : i < k + 1 := Nat.lt_succ_of_le hi
    refine Token.getElem?_numbered_move file ?_
    rw [← List.getElem?_take_of_lt hi, ← List.getElem?_map, ← h, List.getElem?_map,
      List.getElem?_take_of_lt hi]
  generalize Relocation.to file (words' ++ [last']) = r at hget ⊢
  have hend : (⟨last.kind, last.value, .empty (.nth (words.length + 1))⟩ : Token).kind = .eof :=
    hlast
  have hnumbered := Token.kind_ne_eof_of_mem_numbered hwords
  rw [Token.numbered_concat] at hget ⊢
  rw [ofTokens_append _ "" hend, ofTokens_append _ file hlast']
  refine ⟨rfl, fun i hi ↦ ?_, fun hk ↦ ?_⟩
  · have hi : i ≤ k := by rwa [TokenCursor.index, List.length_nil, Nat.zero_add] at hi
    rw [getElem?_words hwords' hlast', getElem?_words hnumbered hend, ← hget i hi,
      Option.filter_map]
    rfl
  · have hk : words.length ≤ k := by
      rwa [TokenCursor.index, List.length_nil, Nat.zero_add, Token.length_numbered] at hk
    have hstop := hget words.length hk
    rw [List.getElem?_append_right (Nat.le_of_eq (Token.length_numbered words)),
      Token.length_numbered, Nat.sub_self, List.getElem?_cons_zero, Option.map_some] at hstop
    rcases List.mem_append.1 (List.mem_of_getElem? hstop.symm) with hmem | hmem
    · exact (hwords' _ hmem hend).elim
    · obtain rfl := List.mem_singleton.1 hmem
      rfl

/-- A list with the same contents as one that is refused, up to the token that is refused, is
refused there for the same reason. -/
theorem exists_sheet_eq_error_of_content {words' : List Token} {last' : Token}
    (hwords : ∀ t ∈ words, t.kind ≠ .eof) (hlast : last.kind = .eof)
    (hwords' : ∀ t ∈ words', t.kind ≠ .eof) (hlast' : last'.kind = .eof)
    (h : sheet (words ++ [last]) file = (.error e, d)) (name : String)
    (hcontent : ((words' ++ [last']).take (d.index + 1)).map content =
      ((words ++ [last]).take (d.index + 1)).map content) :
    ∃ e' d', sheet (words' ++ [last']) name = (.error e', d') ∧ d'.index = d.index ∧
      e'.cause = e.cause := by
  have hmoved := TokenCursor.Moved.of_upTo fun n _ ↦
    ofTokens_numbered_movedUpTo (k := n) hwords hlast hwords hlast file rfl
  have hupTo := ofTokens_numbered_movedUpTo hwords hlast hwords' hlast' name hcontent
  -- What is read of the numbered tokens is refused where the list is, and where the other one is.
  simp only [sheet_eq_error_iff] at h ⊢
  obtain ⟨hresult, hd⟩ := items_moved .standard hmoved
  rw [h] at hresult hd
  cases hi : items .standard (.ofTokens (Token.numbered (words ++ [last])) "") with
  | mk result d₀ =>
  rw [hi] at hresult hd
  have hindex : d₀.index = d.index := ((hd.upTo 0).index_eq).symm
  cases result with
  | ok is => cases hresult
  | error e₀ =>
    obtain rfl : e = e₀.move _ := Except.error.inj hresult
    have hread := items_movedUpTo .standard hupTo
    rw [hi] at hread
    obtain ⟨hresult', hd'⟩ := hread (Nat.le_of_eq hindex)
    exact ⟨e₀.move _, _, Prod.ext hresult' rfl, hd'.index_eq.trans hindex, rfl⟩

end

/-- Where reading the tokens of a source gives an error, it stands at the first token that cannot
stand where it does, and the error is about that token. -/
theorem sheet_earliest {source file name : String} {tokens : List Token} {e : Error}
    {d : TokenCursor} (h : Token.tokenize source file = .ok tokens)
    (hs : sheet tokens name = (.error e, d)) : ∃ k, d.StandsAt tokens k ∧ Earliest tokens k e := by
  obtain ⟨words, last, rfl, hlast, hfits⟩ := Token.exists_words_of_tokenize h
  have hwords := hfits.kind_ne_eof
  obtain ⟨hstands, hposition⟩ := standsAt_of_sheet_eq_error hlast hs
  refine ⟨d.index, hstands, ?_, exists_sheet_eq_ok_of_error hwords hlast hs, ?_⟩
  · rw [hstands.current, hposition]
    rfl
  · intro words' last' file' hwords' hlast' hcontent
    obtain ⟨e', d', hs', hindex, hcause⟩ :=
      exists_sheet_eq_error_of_content hwords hlast hwords' hlast' hs file' hcontent
    obtain ⟨hstands', hposition'⟩ := standsAt_of_sheet_eq_error hlast' hs'
    rw [hindex] at hstands'
    exact ⟨e', d', hs', hstands', hcause, hposition'⟩

/-- An operand that is missing in an open parenthesis is found missing at the token in its place. -/
theorem sheet_earliest_operand : ∃ tokens e d,
    Token.tokenize "a { b: (1 + ; }" "s" = .ok tokens ∧ sheet tokens "s" = (.error e, d) ∧
      e.position = ⟨12, "s"⟩ ∧ ∃ k, d.StandsAt tokens k ∧ Earliest tokens k e := by
  have h : ((Token.tokenize "a { b: (1 + ; }" "s").toOption.bind fun tokens ↦
      match (sheet tokens "s").1 with
      | .error e => some e.position
      | .ok _ => none) = some ⟨12, "s"⟩ := by
    decide +kernel
  cases ht : Token.tokenize "a { b: (1 + ; }" "s" with
  | error e =>
    rw [ht] at h
    cases h
  | ok tokens =>
    rw [ht] at h
    cases hs : sheet tokens "s" with | mk result d =>
    cases result with
    | ok s =>
      simp only [Except.toOption, Option.bind_some, hs] at h
      cases h
    | error e =>
      simp only [Except.toOption, Option.bind_some, hs] at h
      exact ⟨tokens, e, d, rfl, hs, Option.some.inj h, sheet_earliest ht hs⟩

end Grammar

end TypedCss

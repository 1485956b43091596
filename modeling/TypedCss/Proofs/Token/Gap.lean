import TypedCss.Proofs.Token.Scan

/-!
# Which texts are gaps

What a gap is, said without reading anything, as `TokenKind.Fits` and `TokenKind.Ends` say it of
words. `Lexeme.GapEnds` gives the three forms of gaps and what may follow each of them, and
`Lexeme.read?_gap_iff` says that it decides which gap a text begins with.

Whether a lexeme ends somewhere is decided by the character that follows it or by none, never by one
being there. So a lexeme is read the same if the text is cut off further on
(`Lexeme.read?_of_append`).
-/

namespace TypedCss

namespace Text

/-! ### Closing comments -/

/-- A comment is closed by the first `*/` after its beginning. -/
theorem exists_of_closeComment? {cs text rest : List Char}
    (h : closeComment? cs = some (text, rest)) :
    ∃ body, text = body ++ ['*', '/'] ∧ ¬['*', '/'] <:+: body ++ ['*'] := by
  induction cs generalizing text with
  | nil => cases h
  | cons c cs ih =>
    unfold closeComment? at h
    split at h
    · cases h
      exact ⟨[], rfl, by decide⟩
    · rename_i hne
      obtain ⟨⟨text', rest'⟩, hb, he⟩ := Option.map_eq_some_iff.1 h
      cases he
      obtain ⟨body, rfl, hbody⟩ := ih hb
      refine ⟨c :: body, rfl, fun hinfix ↦ ?_⟩
      rw [List.cons_append, List.infix_cons_iff] at hinfix
      refine hinfix.elim (fun hprefix ↦ ?_) hbody
      -- A `*/` at the front would have closed the comment there.
      obtain ⟨hc, hslash⟩ := List.cons_prefix_cons.1 hprefix
      have hcs := append_of_closeComment? hb
      cases body with
      | nil => exact absurd (List.cons_prefix_cons.1 hslash).1 (by decide)
      | cons d body =>
        obtain ⟨hd, -⟩ := List.cons_prefix_cons.1 hslash
        exact hne _ hc.symm (hcs.trans (by rw [← hd]; rfl))

/-- A comment that has no `*/` in it is closed by the one behind it. -/
theorem closeComment?_append_close {body : List Char} (h : ¬['*', '/'] <:+: body ++ ['*'])
    (rest : List Char) :
    closeComment? (body ++ '*' :: '/' :: rest) = some (body ++ ['*', '/'], rest) := by
  induction body with
  | nil => rfl
  | cons c cs ih =>
    rw [List.cons_append, List.infix_cons_iff, not_or] at h
    rw [List.cons_append, closeComment?, ih h.2]
    · rfl
    · -- A `*/` at the front would be one of the body.
      rintro ds rfl hd
      cases cs with
      | nil => cases hd
      | cons d cs =>
        obtain ⟨rfl, -⟩ := List.cons.inj hd
        exact h.1 ⟨cs ++ ['*'], rfl⟩

/-- A comment cannot be closed exactly if no `*/` follows its beginning. -/
theorem closeComment?_eq_none_iff {cs : List Char} :
    closeComment? cs = none ↔ ¬['*', '/'] <:+: cs := by
  induction cs with
  | nil => simp [closeComment?]
  | cons c cs ih =>
    rw [closeComment?.eq_def, List.infix_cons_iff, not_or]
    dsimp only
    split
    · rename_i rest
      have hfront : ['*', '/'] <+: '*' :: '/' :: rest := ⟨rest, rfl⟩
      simp [hfront]
    · rename_i hne
      rw [Option.map_eq_none_iff, ih]
      refine ⟨fun h ↦ ⟨fun hfront ↦ ?_, h⟩, And.right⟩
      obtain ⟨rest, he⟩ := hfront
      obtain ⟨rfl, rfl⟩ := List.cons.inj he
      exact hne rest rfl rfl

/-- A run that stops before a longer text stops before a shorter one. -/
theorem Stops.of_append {p : Char → Bool} {rest more : List Char} (h : Stops p (rest ++ more)) :
    Stops p rest := by
  cases rest with
  | nil => exact stops_nil
  | cons c cs => exact stops_cons.2 (stops_cons.1 h)

end Text

namespace Lexeme

open Text (Stops)

/-- `GapEnds text rest` says that `text` is a gap that ends where `rest` follows. -/
inductive GapEnds : List Char → List Char → Prop where
  /-- Blanks, and nothing blank after them. -/
  | blanks {text rest : List Char} (hne : text ≠ []) (h : ∀ c ∈ text, Text.isBlank c = true)
    (ends : Stops Text.isBlank rest) : GapEnds text rest
  /-- A comment within a line, up to the end of the line. -/
  | lineComment {body rest : List Char} (h : ∀ c ∈ body, (c != '\n') = true)
    (ends : Stops (· != '\n') rest) : GapEnds ('/' :: '/' :: body) rest
  /-- A comment up to the first `*/`. -/
  | blockComment {body : List Char} (rest : List Char) (h : ¬['*', '/'] <:+: body ++ ['*']) :
    GapEnds ('/' :: '*' :: (body ++ ['*', '/'])) rest

/-- A gap ends where less follows. -/
theorem GapEnds.of_append {text rest more : List Char} (h : GapEnds text (rest ++ more)) :
    GapEnds text rest := by
  cases h with
  | blanks hne h ends => exact .blanks hne h ends.of_append
  | lineComment h ends => exact .lineComment h ends.of_append
  | blockComment _ h => exact .blockComment rest h

theorem gapEnds_of_read? {cs text rest : List Char} (h : read? cs = some (.gap text, rest)) :
    GapEnds text rest := by
  obtain ⟨p, -, hr⟩ := List.exists_of_findSome?_eq_some h
  unfold Pattern.read? at hr
  split at hr
  · split at hr
    · cases hr
    · rename_i hne
      cases hr
      exact .blanks (by simpa using hne) (fun c hc ↦ List.mem_takeWhile_imp hc)
        (Text.stops_dropWhile _ cs)
  · obtain ⟨⟨closed, after⟩, hb, he⟩ := Option.map_eq_some_iff.1 hr
    cases he
    obtain ⟨body, rfl, hbody⟩ := Text.exists_of_closeComment? hb
    exact .blockComment rest hbody
  · rename_i cs
    cases hr
    exact .lineComment (fun c hc ↦ List.mem_takeWhile_imp (p := (· != '\n')) hc)
      (Text.stops_dropWhile _ cs)
  -- All else is a word.
  all_goals first | (split at hr <;> cases hr) | cases hr

theorem read?_of_gapEnds {text rest : List Char} (h : GapEnds text rest) :
    read? (text ++ rest) = some (.gap text, rest) := by
  have hslash : Pattern.all.filter (·.starts '/') = [.blockComment, .lineComment] := rfl
  cases h with
  | blanks hne h ends =>
    obtain ⟨b, text, rfl⟩ := List.exists_cons_of_ne_nil hne
    have htail : ∀ c ∈ text, Text.isBlank c = true := fun c hc ↦ h c (List.mem_cons_of_mem b hc)
    rw [List.cons_append, Token.read?_of_isBlank (h b (List.mem_cons_self ..)),
      Text.takeWhile_append htail ends, Text.dropWhile_append htail ends]
  | lineComment h ends =>
    rw [List.cons_append, List.cons_append, read?_cons, hslash]
    simp [Pattern.read?, Text.takeWhile_append h ends, Text.dropWhile_append h ends]
  | @blockComment body _ h =>
    rw [List.cons_append, List.cons_append, List.append_assoc, read?_cons, hslash]
    simp [Pattern.read?, Text.closeComment?_append_close h]

/-- A text begins with a gap exactly if the gap ends where the rest follows. -/
theorem read?_gap_iff {cs text rest : List Char} :
    read? cs = some (.gap text, rest) ↔ cs = text ++ rest ∧ GapEnds text rest := by
  constructor
  · intro h
    exact ⟨read?_append h, gapEnds_of_read? h⟩
  · rintro ⟨rfl, h⟩
    exact read?_of_gapEnds h

end Lexeme

/-- A word ends where less follows. -/
theorem TokenKind.Ends.of_append {kind : TokenKind} {value rest more : List Char}
    (h : kind.Ends value (rest ++ more)) : kind.Ends value rest := by
  cases kind with
  | identifier | variableName | hash | ifWord | elseWord | trueWord | falseWord =>
    all_goals exact Text.Stops.of_append h
  | number =>
    obtain ⟨hd, hf, hp, hu⟩ := h
    refine ⟨hd.of_append, hf.imp_right fun hf d cs he ↦ ?_, fun cs he ↦ ?_, fun cs he ↦ ?_⟩ <;>
      subst he
    · exact hf d (cs ++ more) rfl
    · exact hp (cs ++ more) rfl
    · exact hu (cs ++ more) rfl
  | colon =>
    cases rest with
    | nil => exact fun he ↦ by cases he
    | cons c cs => exact h
  | dash =>
    rintro c cs rfl
    exact h c (cs ++ more) rfl
  | eof | pixel | percentage | openBracket | closeBracket | openCurly | closeCurly | openParen
  | closeParen | colonEquals | semicolon | comma | dot | plus | star => all_goals trivial

/-- A lexeme is read the same if the text is cut off after it. -/
theorem Lexeme.read?_of_append {l : Lexeme} {cs rest more : List Char}
    (h : read? cs = some (l, rest ++ more)) : read? (l.text ++ rest) = some (l, rest) := by
  cases l with
  | gap text => exact read?_of_gapEnds (gapEnds_of_read? h).of_append
  | word kind value unit =>
    obtain ⟨-, hf, hunit, he⟩ := read?_word_iff.1 h
    refine read?_word_iff.2 ⟨?_, hf, hunit, he.of_append⟩
    rw [text, List.append_assoc]

end TypedCss

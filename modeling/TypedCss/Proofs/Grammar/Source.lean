import TypedCss.Parse
import TypedCss.Proofs.Grammar.Exact
import TypedCss.Proofs.Grammar.Relocation.Sheet
import TypedCss.Proofs.Token.Seam

/-!
# Reading sources

A source is read as a sheet if its tokens, up to the end, have a derivation
(`Parse.sheet_eq_ok_iff`), and these tokens fit their kinds (`Token.allFit_of_tokenize`).

Items are read one after the other, and readers do not look back at what was passed before they
began. So behind another source and a newline a source is read as it is alone, but further on
(`Parse.sheet_newline_eq`); if both can be read, the items of both are (`Parse.sheet_newline`).
-/

namespace TypedCss

/-- The last token of a source is the end, and the tokens before it fit their kinds. -/
theorem Token.allFit_of_tokenize {source file : String} {words : List Token} {last : Token}
    (h : tokenize source file = .ok (words ++ [last])) : last.kind = .eof ∧ AllFit words := by
  obtain ⟨words', he, hw⟩ := (splits_of_scan_eq_ok h).exists_words
  obtain ⟨rfl, hlast⟩ := List.append_inj' he rfl
  rw [List.singleton_inj.1 hlast]
  exact ⟨rfl, hw⟩

/-- The tokens of a source are words that fit their kinds, and an end. -/
theorem Token.exists_words_of_tokenize {source file : String} {tokens : List Token}
    (h : tokenize source file = .ok tokens) :
    ∃ words last, tokens = words ++ [last] ∧ last.kind = .eof ∧ AllFit words := by
  obtain ⟨words, rfl, hw⟩ := (splits_of_scan_eq_ok h).exists_words
  exact ⟨words, _, rfl, rfl, hw⟩

/-- The start of moved tokens, whichever file they are in. -/
theorem Grammar.ofTokens_moved (r : Relocation) (words : List Token) {last : Token}
    (file file' : String) (hlast : last.kind = .eof) :
    TokenCursor.Moved r (.ofTokens (words ++ [last]) file)
      (.ofTokens (words.map (Token.move r) ++ [last.move r]) file') := by
  have hend : (last.move r).kind = .eof := hlast
  rw [ofTokens_append words file hlast, ofTokens_append _ file' hend]
  exact ⟨rfl, rfl, rfl⟩

/-- Moved tokens are read as the moved sheet, or refused with the moved error, if the start of one
file is moved to the start of the other. -/
theorem Grammar.sheet_relabel {r : Relocation} {words : List Token} {last : Token}
    {file file' : String} (hlast : last.kind = .eof) (hstart : r.start ⟨0, file⟩ = ⟨0, file'⟩)
    (hstop : r.stop ⟨0, file⟩ = ⟨0, file'⟩) :
    (Grammar.sheet (words.map (Token.move r) ++ [last.move r]) file').1 =
      ((Grammar.sheet (words ++ [last]) file).1.map (Sheet.relabel (Info.move r))).mapError
        (Error.move r.start) := by
  have hend : (last.move r).kind = .eof := hlast
  obtain ⟨hresult, hm⟩ := items_moved .standard (ofTokens_moved r words file file' hlast)
  rw [sheet, sheet]
  cases hi : items .standard (.ofTokens (words ++ [last]) file) with | mk result d =>
  cases hi' : items .standard (.ofTokens (words.map (Token.move r) ++ [last.move r]) file') with
  | mk result' d' =>
  rw [hi, hi'] at hresult hm
  obtain rfl : result' = _ := hresult
  cases result with
  | error e => rfl
  | ok is =>
    have hlastPosition : d'.lastPosition = r.stop d.lastPosition := by
      obtain ⟨-, x, hx, -⟩ := exists_of_items_eq_ok hi
      obtain ⟨-, x', hx', -⟩ := exists_of_items_eq_ok hi'
      by_cases hp : d.passed = []
      · -- Nothing was passed, so both sheets stop where their files start.
        have hp' : d'.passed = [] := by rw [hm.passed, hp, List.map_nil]
        have hfile : d.file = file := by rw [hx.file, ofTokens_append words file hlast]
        have hfile' : d'.file = file' := by rw [hx'.file, ofTokens_append _ file' hend]
        rw [TokenCursor.lastPosition, TokenCursor.lastPosition, hp, hp', hfile, hfile']
        exact hstop.symm
      · exact (hm.upTo 0).lastPosition_eq hp
    show Except.ok (Sheet.mk (is.map (Item.relabel (Info.move r)))
      ⟨d'.spanFrom ⟨0, file'⟩, []⟩) = _
    rw [TokenCursor.spanFrom, hlastPosition, ← hstart]
    rfl

/-- One sheet behind another one: the items of `s`, and then those of `t`, moved. It stops where the
last of its items does. -/
def Sheet.join (r : Relocation) (s t : Sheet) : Sheet where
  items := s.items ++ t.items.map (Item.relabel (Info.move r))
  info := ⟨⟨s.info.span.start,
    if t.items.isEmpty then s.info.span.stop else r.stop t.info.span.stop⟩, []⟩

namespace Grammar

/-- Where items were read, a token was passed. -/
theorem passed_ne_nil_of_items {c d : TokenCursor} {i : Item} {is : List Item}
    (h : items .standard c = (.ok (i :: is), d)) : d.passed ≠ [] := by
  obtain ⟨-, x, hx, hitems⟩ := exists_of_items_eq_ok h
  cases x with
  | nil => cases hitems
  | cons y ys =>
    obtain ⟨ts, t, hy, -⟩ := Item.exists_tokens_eq y
    rw [hx.passed, Derivation.Sheet.tokens, List.flatMap_cons, hy]
    simp

/-- Where no item was read, no token was passed. -/
theorem eq_of_items_eq_nil {c d : TokenCursor} (h : items .standard c = (.ok [], d)) : d = c := by
  obtain ⟨-, x, hx, hitems⟩ := exists_of_items_eq_ok h
  obtain rfl := List.map_eq_nil_iff.1 hitems
  exact hx.eq_of_nil

section

variable {r : Relocation} (x : Derivation.Sheet) {b c e : TokenCursor}

/-- Behind the tokens of a sheet, moved tokens are read as the moved items behind those of the
sheet, or refused with the moved error. -/
theorem items_append (hx : c.Passes x.tokens e)
    (hm : ∀ n, b.MovedUpTo r n x.tokens.reverse e) : (items .standard c).1 =
      ((items .standard b).1.map fun is ↦ x.map Derivation.Item.tree ++
        is.map (Item.relabel (Info.move r))).mapError (Error.move r.start) := by
  obtain ⟨hresult, -⟩ := items_movedUpTo .standard (hm _) (Nat.le_refl _)
  rw [items_passes x hx, hresult]
  cases (items .standard b).1 <;> rfl

/-- Then the last token that was passed is one of the moved tokens, if there are items in them. -/
theorem lastPosition_append (hx : c.Passes x.tokens e)
    (hm : ∀ n, b.MovedUpTo r n x.tokens.reverse e) {is : List TypedCss.Item} {d : TokenCursor}
    (hi : items .standard b = (.ok is, d)) : (items .standard c).2.lastPosition =
      if is.isEmpty then e.lastPosition else r.stop d.lastPosition := by
  obtain ⟨hresult, hd⟩ := items_movedUpTo .standard (hm _) (Nat.le_refl _)
  rw [hi] at hresult hd
  rw [items_passes x hx]
  show (items .standard e).2.lastPosition = _
  cases is with
  | nil =>
    have he : (items .standard e).2 = e := eq_of_items_eq_nil (Prod.ext hresult rfl)
    rw [he, List.isEmpty_nil, if_pos rfl]
  | cons i is => exact hd.lastPosition_eq (passed_ne_nil_of_items hi)

end

/-- The same of whole sheets. -/
theorem sheet_append {r : Relocation} (x : Derivation.Sheet) {words : List Token} {last : Token}
    {file : String} (hlast : last.kind = .eof) :
    (sheet (x.tokens ++ (words.map (Token.move r) ++ [last.move r])) file).1 =
      ((sheet (words ++ [last]) file).1.map ((x.tree file).join r)).mapError
        (Error.move r.start) := by
  have hend : (last.move r).kind = .eof := hlast
  rw [sheet, sheet, ← List.append_assoc, ofTokens_append _ file hend, ofTokens_append _ file hlast]
  have hx : TokenCursor.Passes
      ⟨file, [], x.tokens ++ words.map (Token.move r), ⟨(last.move r).value, (last.move r).span⟩⟩
      x.tokens
      ⟨file, x.tokens.reverse, words.map (Token.move r),
        ⟨(last.move r).value, (last.move r).span⟩⟩ :=
    ⟨rfl, (List.append_nil _).symm, rfl, rfl⟩
  have hm (n : Nat) : TokenCursor.MovedUpTo r n x.tokens.reverse
      ⟨file, [], words, ⟨last.value, last.span⟩⟩
      ⟨file, x.tokens.reverse, words.map (Token.move r),
        ⟨(last.move r).value, (last.move r).span⟩⟩ :=
    ⟨rfl, fun _ _ ↦ List.getElem?_map, fun _ ↦ rfl⟩
  have hresult := items_append x hx hm
  have hstop := @lastPosition_append _ x _ _ _ hx hm
  rw [lastPosition_eq_of_sheet rfl hx] at hstop
  generalize items .standard ⟨file, [], x.tokens ++ _, _⟩ = joined at hresult hstop ⊢
  generalize items .standard ⟨file, [], words, _⟩ = alone at hresult hstop ⊢
  obtain ⟨_, d'⟩ := joined
  obtain ⟨result, d⟩ := alone
  subst hresult
  cases result with
  | error e => rfl
  | ok is =>
    show Except.ok (Sheet.mk _ ⟨d'.spanFrom ⟨0, file⟩, []⟩) = _
    rw [TokenCursor.spanFrom, hstop rfl]
    rfl

end Grammar

namespace Parse

/-- A source is read as a sheet exactly if its tokens before the end derive from the grammar; the
sheet is the meaning of their derivation. -/
theorem sheet_eq_ok_iff {source file : String} {s : Sheet} :
    sheet source file = .ok s ↔ ∃ (x : Derivation.Sheet) (last : Token),
      Token.tokenize source file = .ok (x.tokens ++ [last]) ∧ x.tree file = s := by
  rw [sheet]
  constructor
  · intro h
    split at h
    · cases h
    · rename_i tokens ht
      obtain ⟨words, last, rfl, -, hexact⟩ :=
        Grammar.exists_readExactly file (Token.splits_of_scan_eq_ok ht)
      obtain ⟨x, rfl, hx⟩ := (hexact.sheet_iff s).1 h
      exact ⟨x, last, ht, hx⟩
  · rintro ⟨x, last, ht, rfl⟩
    obtain ⟨hlast, hfits⟩ := Token.allFit_of_tokenize ht
    rw [ht]
    exact (Grammar.sheet_eq_ok_iff hfits.kind_ne_eof hlast).2 ⟨x, rfl, rfl⟩

/-- A source behind another one and a newline is read as its items behind those of the other source,
further on by as many bytes as come before it, or it is refused with its own error, further on. -/
theorem sheet_newline_eq {a file : String} {s : Sheet} (ha : sheet a file = .ok s) (b : String) :
    sheet (a ++ "\n" ++ b) file =
      ((sheet b file).map (s.join (.shift (Text.byteLength a.toList + 1)))).mapError
        (Error.move (Relocation.shift (Text.byteLength a.toList + 1)).start) := by
  obtain ⟨x, last, hx, rfl⟩ := sheet_eq_ok_iff.1 ha
  rw [sheet, sheet, Token.tokenize_newline hx]
  cases hb : Token.tokenize b file with
  | error e => rfl
  | ok tokens =>
    obtain ⟨words, stop, rfl, hstop, -⟩ := Token.exists_words_of_tokenize hb
    refine Eq.trans ?_ (Grammar.sheet_append x hstop)
    simp [Token.shiftAll, Except.map, Except.mapError]

/-- Two sources with a newline between them are read as the items of the first, and then those of
the second, further on by as many bytes as come before it. -/
theorem sheet_newline {a b file : String} {s t : Sheet} (ha : sheet a file = .ok s)
    (hb : sheet b file = .ok t) : ∃ info, sheet (a ++ "\n" ++ b) file = .ok ⟨s.items ++ t.items.map
      (Item.relabel (Info.move (.shift (Text.byteLength a.toList + 1)))), info⟩ := by
  rw [sheet_newline_eq ha, hb]
  exact ⟨_, rfl⟩

end Parse

end TypedCss

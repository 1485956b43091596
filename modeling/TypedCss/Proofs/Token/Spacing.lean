import TypedCss.Proofs.Printing.Spelling
import TypedCss.Proofs.Token.Numbering

/-!
# Tokens with spaces between them

The tokens of a text can be written in a row, each as its value with the unit of its kind, and one
space between two of them. Before a space every word ends, so each of them is read as the token that
was written (`spells_spaced`), and the row is split into tokens that say the same
(`tokenize_spaced`). It takes no more than that the value of each token fits its kind, which is so
for the tokens of every text: a word that is read is one by itself.
-/

namespace TypedCss.Token

/-- A token as it is written: its value, and the unit of its kind. -/
def text (t : Token) : String := t.value ++ String.ofList t.kind.unit

/-- Tokens as they are written in a row, with a space between two of them. -/
def spaced (ts : List Token) : String := " ".intercalate (ts.map text)

/-- A token that is written spells one that says the same. -/
theorem spells_token {t : Token} (h : t.kind.Fits t.value.toList) :
    Spells Text.Breaks t.text.toList fun us ↦ us.map content = [t.content] := by
  have htext : t.text.toList = t.value.toList ++ t.kind.unit := by
    rw [text, String.toList_append, String.toList_ofList]
  rw [htext]
  refine (spells_word h).weaken (fun _ hr ↦ TokenKind.ends_of_breaks hr) ?_
  rintro _ ⟨u, hu, rfl⟩
  rw [String.ofList_toList] at hu
  rw [List.map_singleton, Derivation.Terminal.token, content, content, hu]

/-- Tokens that are written in a row spell tokens that say the same. -/
theorem spells_spaced {ts : List Token} (h : AllFit ts) :
    Spells Text.Breaks (spaced ts).toList fun us ↦ us.map content = ts.map content := by
  induction ts with
  | nil =>
    refine (spells_blanks (List.forall_mem_nil _)).weaken (fun _ _ ↦ trivial) ?_
    rintro _ rfl
    rfl
  | cons t ts ih =>
    have ht := spells_token (h t (List.mem_cons_self ..))
    have ih := ih fun u hu ↦ h u (List.mem_cons_of_mem t hu)
    cases ts with
    | nil =>
      rw [spaced, List.map_singleton, String.intercalate_singleton]
      exact ht
    | cons u us =>
      have hspaced : (spaced (t :: u :: us)).toList =
          t.text.toList ++ ([' '] ++ (spaced (u :: us)).toList) := by
        rw [spaced, List.map_cons, List.map_cons, String.intercalate_cons_cons,
          String.toList_append, String.toList_append, List.append_assoc]
        rfl
      rw [hspaced]
      refine (ht.append ((spells_blank (by decide)).append ih fun _ _ ↦ trivial)
        fun rest _ ↦ Text.breaks_cons.2 (by decide)).weaken (fun _ hr ↦ hr) ?_
      rintro _ ⟨_, _, rfl, ht, _, _, rfl, rfl, hus⟩
      rw [List.map_append, ht, List.map_append, hus]
      rfl

/-- Every text that is split into tokens is split into tokens that say the same as those of the row
in which its tokens are written. -/
theorem tokenize_spaced {source file : String} {tokens : List Token} (name : String)
    (h : tokenize source file = .ok tokens) :
    ∃ words last, tokens = words ++ [last] ∧ last.kind = .eof ∧ (∀ t ∈ words, t.kind ≠ .eof) ∧
      ∃ tokens', tokenize (spaced words) name = .ok tokens' ∧
        tokens'.map content = tokens.map content := by
  obtain ⟨words, rfl, hw⟩ := (splits_of_scan_eq_ok h).exists_words
  obtain ⟨ts, hts, hs⟩ := spells_spaced hw (.ofSource (spaced words) name) [] _ Text.breaks_nil
    (List.append_nil _).symm (.done rfl)
  refine ⟨words, _, rfl, rfl, hw.kind_ne_eof, _, hs.scan_eq_ok, ?_⟩
  rw [List.map_append, List.map_append, hts]
  rfl

/-- A source with dashes at the end of a name, two of them alone and before a name, a fraction with
a unit, a number before a name, and two signs that begin with the same character. -/
def denseSource : String := "a- --/**/--x-1 1.5px50%2p #0-:=:-if"

theorem tokenize_spaced_dense :
    (tokenize denseSource "s").toOption.map (fun ts ↦ spaced ts.dropLast) =
        some "a- - - --x-1 1.5px 50% 2 p #0- := : - if" ∧
      ∃ tokens, tokenize denseSource "s" = .ok tokens ∧
        ∃ words last, tokens = words ++ [last] ∧ last.kind = .eof ∧
          (∀ t ∈ words, t.kind ≠ .eof) ∧
            ∃ tokens', tokenize (spaced words) "t" = .ok tokens' ∧
              tokens'.map content = tokens.map content := by
  have hs : (tokenize denseSource "s").toOption.map (fun ts ↦ spaced ts.dropLast) =
      some "a- - - --x-1 1.5px 50% 2 p #0- := : - if" := by
    decide +kernel
  refine ⟨hs, ?_⟩
  cases h : tokenize denseSource "s" with
  | error e =>
    rw [h] at hs
    cases hs
  | ok tokens => exact ⟨tokens, rfl, tokenize_spaced "t" h⟩

end TypedCss.Token

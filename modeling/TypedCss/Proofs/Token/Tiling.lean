import Mathlib.Algebra.Group.Nat.Defs
import TypedCss.Proofs.Token.Gap

/-!
# Tokens tile their text

The tokens of a text stand in it one after the other, each with the text that its kind and its value
say, and all that is left between them is blanks and comments. So nothing of a text is lost by
splitting it, and no part of it is used twice.

`TextCursor.Tiled` says this of what is left to read at a cursor. It holds at the end of a text, and
it is kept if a gap or a word is put before the rest (`Tiled.before_gap`, `Tiled.before_word`);
`Token.tokenize_tiled` is what follows for a source. Offsets are compared as numbers, which they can
be in a text shorter than `2 ^ 32` bytes.
-/

namespace TypedCss

/-! ### Gaps -/

namespace Text

/-- `IsGap rest gap` says that `gap` is a sequence of runs of blanks and of comments, where `rest`
follows it. -/
inductive IsGap (rest : List Char) : List Char → Prop where
  /-- Nothing. -/
  | nil : IsGap rest []
  /-- A run of blanks, as long as it can be. -/
  | blanks {run more : List Char} (hne : run ≠ []) (h : ∀ c ∈ run, isBlank c = true)
    (ends : Stops isBlank (more ++ rest)) (next : IsGap rest more) : IsGap rest (run ++ more)
  /-- A comment that goes up to a newline or to the end of the text, and does not contain the
  newline. -/
  | lineComment {body more : List Char} (h : ∀ c ∈ body, c ≠ '\n')
    (ends : more ++ rest = [] ∨ (more ++ rest).head? = some '\n') (next : IsGap rest more) :
    IsGap rest ('/' :: '/' :: (body ++ more))
  /-- A comment that is closed where it first can be. -/
  | blockComment {body more : List Char} (h : ¬['*', '/'] <:+: body ++ ['*'])
    (next : IsGap rest more) : IsGap rest ('/' :: '*' :: (body ++ '*' :: '/' :: more))

end Text

/-- A lexeme that is no word goes before a gap and makes a longer one. -/
theorem Lexeme.isGap_of_read? {cs text more rest : List Char}
    (h : read? cs = some (.gap text, more ++ rest)) (next : Text.IsGap rest more) :
    Text.IsGap rest (text ++ more) := by
  obtain ⟨-, hgap⟩ := read?_gap_iff.1 h
  cases hgap with
  | blanks hne hb ends => exact .blanks hne hb ends next
  | lineComment hb ends =>
    refine .lineComment (fun c hc ↦ by simpa using hb c hc) ?_ next
    cases hmore : more ++ rest with
    | nil => exact .inl rfl
    | cons c ds =>
      rw [hmore, Text.stops_cons] at ends
      exact .inr (congrArg some (by simpa using ends))
  | blockComment _ hb =>
    have hcomment := Text.IsGap.blockComment hb next
    simpa using hcomment

/-! ### Parts of a text -/

/-- `c.HasPart start stop part rest` says that `part` stands between two offsets in what is left to
read, and that `rest` follows it. -/
def TextCursor.HasPart (c : TextCursor) (start stop : Nat) (part rest : List Char) : Prop :=
  ∃ before, c.ahead = before ++ (part ++ rest) ∧ start = c.offset + Text.byteLength before ∧
    stop = start + Text.byteLength part

/-- A part stands between the cursor and the end of the text. -/
theorem TextCursor.HasPart.le {c : TextCursor} {part rest : List Char} {start stop : Nat}
    (h : c.HasPart start stop part rest) :
    c.offset ≤ start ∧ start ≤ stop ∧ stop ≤ c.offset + Text.byteLength c.ahead := by
  obtain ⟨before, hc, rfl, rfl⟩ := h
  rw [hc, Text.byteLength_append, Text.byteLength_append]
  omega

/-- A part of what follows is a part of the whole. -/
theorem TextCursor.HasPart.of_skip {c : TextCursor} {text left part rest : List Char}
    {start stop : Nat} (hc : c.ahead = text ++ left)
    (h : (c.skip text left).HasPart start stop part rest) : c.HasPart start stop part rest := by
  obtain ⟨before, hleft, rfl, rfl⟩ := h
  refine ⟨text ++ before, ?_, ?_, rfl⟩
  · rw [hc, List.append_assoc, ← hleft]
    rfl
  · rw [Text.byteLength_append, ← Nat.add_assoc]
    rfl

namespace Token

/-- The offset where a token starts. -/
def start (t : Token) : Nat := t.span.start.offset.toNat

/-- The offset where a token stops. -/
def stop (t : Token) : Nat := t.span.stop.offset.toNat

/-- The stretches up to each of the given tokens: to the first one from an offset, and to each
further one from where the one before it stops. -/
def stretches (offset : Nat) : List Token → List (Nat × Nat)
  | [] => []
  | t :: ts => (offset, t.start) :: stretches t.stop ts

end Token

/-! ### Tiled texts -/

namespace TextCursor

/-- `c.Tiled words last` says that what is left to read consists of the texts of `words` and the
gaps between them, and that `last` is its end. -/
structure Tiled (c : TextCursor) (words : List Token) (last : Token) : Prop where
  /-- The last token is the end, which is empty. -/
  last_eq : last = ⟨.eof, "EOF", .empty (.ofNat c.file (c.offset + Text.byteLength c.ahead))⟩
  /-- The end stands where the text ends. -/
  last_start : last.start = c.offset + Text.byteLength c.ahead
  /-- Tokens stand in the file of the text. -/
  file_eq : ∀ t ∈ words, t.span.start.file = c.file ∧ t.span.stop.file = c.file
  /-- No word is an end, and its value is one that its kind can have. -/
  fits : ∀ t ∈ words, t.kind ≠ .eof ∧ t.kind.Fits t.value.toList
  /-- No word is empty. -/
  start_lt_stop : ∀ t ∈ words, t.start < t.stop
  /-- Words do not overlap, and a later word stands further on. -/
  ordered : words.Pairwise fun t u ↦ t.stop ≤ u.start
  /-- At each word stands its value with the unit of its kind. -/
  part : ∀ t ∈ words, ∃ rest, c.HasPart t.start t.stop (t.value.toList ++ t.kind.unit) rest
  /-- Before the first word, between two words and after the last one stands a gap. -/
  gap : ∀ s ∈ Token.stretches c.offset (words ++ [last]),
    ∃ gap rest, c.HasPart s.1 s.2 gap rest ∧ Text.IsGap rest gap

namespace Tiled

variable {c : TextCursor} {words : List Token} {last : Token}

/-- Words stop before the end of the text. -/
theorem stop_le (h : c.Tiled words last) {t : Token} (ht : t ∈ words) :
    t.stop ≤ c.offset + Text.byteLength c.ahead := by
  obtain ⟨rest, hpart⟩ := h.part t ht
  exact hpart.le.2.2

/-- A later word starts further on. -/
theorem pairwise_start (h : c.Tiled words last) :
    words.Pairwise fun t u ↦ t.start < u.start :=
  h.ordered.imp_of_mem fun ht _ hle ↦ Nat.lt_of_lt_of_le (h.start_lt_stop _ ht) hle

/-- The end of a text tiles it. -/
theorem done (hc : c.ahead = []) (hlen : c.offset < 2 ^ 32) : c.Tiled [] (Token.endOfText c) := by
  have hstart : (Token.endOfText c).start = c.offset := Position.toNat_offset_ofNat hlen
  refine ⟨?_, ?_, List.forall_mem_nil _, List.forall_mem_nil _, List.forall_mem_nil _, .nil,
    List.forall_mem_nil _, ?_⟩
  · rw [hc]
    rfl
  · rw [hstart, hc]
    rfl
  · rintro s hs
    obtain rfl := List.mem_singleton.1 hs
    exact ⟨[], [], ⟨[], hc, rfl, hstart⟩, .nil⟩

/-- The text at a cursor is as long as its first part and what is left after it. -/
theorem offset_skip {text left : List Char} (hc : c.ahead = text ++ left) :
    (c.skip text left).offset + Text.byteLength left =
      c.offset + Text.byteLength c.ahead := by
  rw [hc, Text.byteLength_append, ← Nat.add_assoc]
  rfl

/-- A gap may be put before a tiled text. -/
theorem before_gap {text left : List Char} (hread : Lexeme.read? c.ahead = some (.gap text, left))
    (h : (c.skip text left).Tiled words last) : c.Tiled words last := by
  have hc : c.ahead = text ++ left := Lexeme.read?_append hread
  refine ⟨h.last_eq.trans ?_, h.last_start.trans (offset_skip hc), h.file_eq, h.fits,
    h.start_lt_stop, h.ordered, fun t ht ↦ ?_, ?_⟩
  · rw [← offset_skip hc]
    rfl
  · obtain ⟨rest, hpart⟩ := h.part t ht
    exact ⟨rest, hpart.of_skip hc⟩
  · -- The first stretch begins where the gap does; the others are the same.
    obtain ⟨first, others, hwords⟩ : ∃ first others, words ++ [last] = first :: others :=
      List.exists_cons_of_ne_nil (by simp)
    have hgap := h.gap
    rw [hwords, Token.stretches, List.forall_mem_cons] at hgap ⊢
    obtain ⟨⟨more, rest, ⟨before, hleft, hstart, hstop⟩, hmore⟩, hothers⟩ := hgap
    obtain rfl : before = [] := by
      by_contra hne
      have := Text.byteLength_pos hne
      omega
    obtain rfl : left = more ++ rest := hleft
    refine ⟨⟨text ++ more, rest, ⟨[], ?_, rfl, ?_⟩, Lexeme.isGap_of_read? hread hmore⟩,
      fun s hs ↦ ?_⟩
    · rw [hc, List.append_assoc]
      rfl
    · rw [hstop, Text.byteLength_append, ← Nat.add_assoc]
      rfl
    · obtain ⟨gap, rest, hpart, hg⟩ := hothers s hs
      exact ⟨gap, rest, hpart.of_skip hc, hg⟩

/-- A word may be put before a tiled text. -/
theorem before_word {kind : TokenKind} {value unit left : List Char}
    (hlen : c.offset + Text.byteLength c.ahead < 2 ^ 32)
    (hread : Lexeme.read? c.ahead = some (.word kind value unit, left))
    (h : (c.skip (value ++ unit) left).Tiled words last) :
    c.Tiled (⟨kind, String.ofList value, c.spanOf (Text.byteLength (value ++ unit))⟩ :: words)
      last := by
  have hc : c.ahead = value ++ unit ++ left := Lexeme.read?_append hread
  have hne := Lexeme.length_lt_of_read? hread
  obtain ⟨hfits, rfl, -⟩ := Lexeme.word_of_read? hread
  have hpos : 0 < Text.byteLength (value ++ kind.unit) := by
    refine Text.byteLength_pos fun hnil ↦ ?_
    rw [hc, hnil] at hne
    exact absurd hne (Nat.lt_irrefl _)
  rw [← offset_skip hc] at hlen
  generalize ht : (⟨kind, String.ofList value, c.spanOf (Text.byteLength (value ++ kind.unit))⟩ :
    Token) = t
  have hkind : t.kind = kind := by rw [← ht]
  have hvalue : t.value.toList = value := by rw [← ht, String.toList_ofList]
  -- The word starts at the cursor and stops where the rest begins.
  have hskip : (c.skip (value ++ kind.unit) left).offset =
      c.offset + Text.byteLength (value ++ kind.unit) := rfl
  have hstart : t.start = c.offset := by
    rw [← ht]
    exact Position.toNat_offset_ofNat (show c.offset < 2 ^ 32 by omega)
  have hstop : t.stop = (c.skip (value ++ kind.unit) left).offset := by
    rw [← ht]
    exact Position.toNat_offset_ofNat
      (show (c.skip (value ++ kind.unit) left).offset < 2 ^ 32 by omega)
  have hpart : c.HasPart t.start t.stop (value ++ kind.unit) left := by
    refine ⟨[], hc, by simpa using hstart, ?_⟩
    rw [hstop, hstart, hskip]
  refine ⟨h.last_eq.trans ?_, h.last_start.trans (offset_skip hc), ?_, ?_, ?_, ?_, ?_, ?_⟩
  · rw [← offset_skip hc]
    rfl
  · refine List.forall_mem_cons.2 ⟨?_, h.file_eq⟩
    rw [← ht]
    exact ⟨rfl, rfl⟩
  · refine List.forall_mem_cons.2 ⟨?_, h.fits⟩
    rw [hkind, hvalue]
    refine ⟨?_, hfits⟩
    rintro rfl
    exact hfits
  · refine List.forall_mem_cons.2 ⟨?_, h.start_lt_stop⟩
    omega
  · refine List.pairwise_cons.2 ⟨fun u hu ↦ ?_, h.ordered⟩
    obtain ⟨rest, before, -, hu, -⟩ := h.part u hu
    omega
  · refine List.forall_mem_cons.2 ⟨⟨left, ?_⟩, fun u hu ↦ ?_⟩
    · rw [hkind, hvalue]
      exact hpart
    · obtain ⟨rest, hu⟩ := h.part u hu
      exact ⟨rest, hu.of_skip hc⟩
  · -- No gap stands before the word, and those behind it are where they were.
    rw [List.cons_append, Token.stretches, List.forall_mem_cons, hstart, hstop]
    refine ⟨⟨[], c.ahead, ⟨[], rfl, rfl, rfl⟩, .nil⟩, fun s hs ↦ ?_⟩
    obtain ⟨gap, rest, hs, hg⟩ := h.gap s hs
    exact ⟨gap, rest, hs.of_skip hc, hg⟩

end Tiled

end TextCursor

namespace Token

/-- The tokens of a text that is split tile it. -/
theorem Splits.exists_tiled {c : TextCursor} {tokens : List Token} (h : Splits c tokens)
    (hlen : c.offset + Text.byteLength c.ahead < 2 ^ 32) :
    ∃ words last, tokens = words ++ [last] ∧ c.Tiled words last := by
  induction h with
  | @done c h =>
    refine ⟨[], _, rfl, .done h ?_⟩
    omega
  | @gap c text rest tokens h _ ih =>
    rw [← TextCursor.Tiled.offset_skip (Lexeme.read?_append h)] at hlen
    obtain ⟨words, last, rfl, hw⟩ := ih hlen
    exact ⟨words, last, rfl, hw.before_gap h⟩
  | @word c kind value unit rest tokens h _ ih =>
    have hlen' := hlen
    rw [← TextCursor.Tiled.offset_skip (Lexeme.read?_append h)] at hlen'
    obtain ⟨words, last, rfl, hw⟩ := ih hlen'
    exact ⟨_, last, rfl, hw.before_word hlen h⟩

/-- The tokens of a source stand in it one after the other, with nothing but blanks and comments
between them. -/
theorem tokenize_tiled {source file : String} {tokens : List Token}
    (hlen : Text.byteLength source.toList < 2 ^ 32) (h : tokenize source file = .ok tokens) :
    ∃ words last, tokens = words ++ [last] ∧
      (TextCursor.ofSource source file).Tiled words last := by
  refine (splits_of_scan_eq_ok h).exists_tiled ?_
  rw [TextCursor.ofSource, Nat.zero_add]
  exact hlen

/-- A source with both kinds of comments, a unit and a reserved word between gaps of all kinds. -/
theorem tokenize_tiled_comments :
    Text.byteLength " if/* * */12.5px // é\n;".toList < 2 ^ 32 ∧
      ∃ tokens, tokenize " if/* * */12.5px // é\n;" "s" = .ok tokens ∧
        ∃ words last, tokens = words ++ [last] ∧
          (TextCursor.ofSource " if/* * */12.5px // é\n;" "s").Tiled words last := by
  have hlen : Text.byteLength " if/* * */12.5px // é\n;".toList < 2 ^ 32 := by decide +kernel
  have htokens : tokenize " if/* * */12.5px // é\n;" "s" = .ok
      [⟨.ifWord, "if", ⟨⟨1, "s"⟩, ⟨3, "s"⟩⟩⟩, ⟨.pixel, "12.5", ⟨⟨10, "s"⟩, ⟨16, "s"⟩⟩⟩,
        ⟨.semicolon, ";", ⟨⟨23, "s"⟩, ⟨24, "s"⟩⟩⟩, ⟨.eof, "EOF", .empty ⟨24, "s"⟩⟩] := by
    decide +kernel
  exact ⟨hlen, _, htokens, tokenize_tiled hlen htokens⟩

end Token

end TypedCss

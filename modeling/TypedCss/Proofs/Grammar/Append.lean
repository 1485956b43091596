import TypedCss.Proofs.Grammar.Earliest
import TypedCss.Proofs.Grammar.Spans
import TypedCss.Proofs.Token.Stray

/-!
# One source behind another one

A source that stands behind another one and a newline is split and read as it is alone, but further
on (`Parse.append_newline`). Offsets are words, so moving them might wrap around. Every position
that a source gives rise to is one in its text (`Parse.Mentions.offset_le`), so it does not if both
sources together have room for their offsets.
-/

namespace TypedCss

/-- A position is moved by as many bytes as it is to be, if there is room for its offset. -/
theorem Relocation.offset_shift {n : Nat} {p : Position} (h : p.offset.toNat + n < 2 ^ 32) :
    ((Relocation.shift n).start p).offset.toNat = p.offset.toNat + n := by
  have hn : (UInt32.ofNat n).toNat = n := UInt32.toNat_ofNat_of_lt (show n < 2 ^ 32 by omega)
  show (p.offset + UInt32.ofNat n).toNat = p.offset.toNat + n
  rw [UInt32.toNat_add, hn]
  exact Nat.mod_eq_of_lt h

namespace Parse

/-- `Mentions source file p` says that a token or a node of a source starts or stops at `p`, or that
the source is refused there. -/
inductive Mentions (source file : String) : Position → Prop where
  /-- A token starts. -/
  | tokenStart {tokens : List Token} {t : Token}
    (h : Token.tokenize source file = .ok tokens) (ht : t ∈ tokens) :
    Mentions source file t.span.start
  /-- A token stops. -/
  | tokenStop {tokens : List Token} {t : Token}
    (h : Token.tokenize source file = .ok tokens) (ht : t ∈ tokens) :
    Mentions source file t.span.stop
  /-- A node starts. -/
  | nodeStart {s : Sheet} {i : Info} (h : sheet source file = .ok s) (hi : i ∈ s.infos) :
    Mentions source file i.span.start
  /-- A node stops. -/
  | nodeStop {s : Sheet} {i : Info} (h : sheet source file = .ok s) (hi : i ∈ s.infos) :
    Mentions source file i.span.stop
  /-- The source is refused. -/
  | error {e : Error} (h : sheet source file = .error e) : Mentions source file e.position

section

variable {source file : String} (hlen : Text.byteLength source.toList < 2 ^ 32)
include hlen

/-- Tokens stand in their source. -/
theorem token_le {tokens : List Token} {t : Token} (h : Token.tokenize source file = .ok tokens)
    (ht : t ∈ tokens) : t.start ≤ t.stop ∧ t.stop ≤ Text.byteLength source.toList := by
  have hlen' : 0 + Text.byteLength source.toList < 2 ^ 32 := by omega
  obtain ⟨words, last, rfl, htiled⟩ := (Token.splits_of_scan_eq_ok h).exists_tiled hlen'
  have hend : (TextCursor.ofSource source file).offset +
      Text.byteLength (TextCursor.ofSource source file).ahead = Text.byteLength source.toList :=
    Nat.zero_add _
  rcases List.mem_append.1 ht with ht | ht
  · have hle := htiled.stop_le ht
    exact ⟨Nat.le_of_lt (htiled.start_lt_stop t ht), by omega⟩
  · obtain rfl := List.mem_singleton.1 ht
    -- The end is empty and stands where the text ends.
    have hstart := htiled.last_start
    have hstop : t.stop = t.start := by rw [htiled.last_eq]; rfl
    omega

/-- Nodes stand in their source. -/
theorem node_le {s : Sheet} {i : Info} (h : sheet source file = .ok s) (hi : i ∈ s.infos) :
    i.span.start.offset.toNat ≤ i.span.stop.offset.toNat ∧
      i.span.stop.offset.toNat ≤ Text.byteLength source.toList := by
  obtain ⟨x, last, htokens, rfl⟩ := sheet_eq_ok_iff.1 h
  obtain ⟨p, hp, rfl⟩ := Part.carries_of_mem_sheet _ i hi
  obtain ⟨text, rest, hpart, -⟩ :=
    (Derivation.Sheet.wellPlaced_of_tokenize hlen htokens p hp).reads
  obtain ⟨-, hle, hstop⟩ := hpart.le
  exact ⟨hle, hstop.trans (Nat.le_of_eq (Nat.zero_add _))⟩

/-- A source is refused at a character of it, or at a token. -/
theorem error_le {e : Error} (h : sheet source file = .error e) :
    e.position.offset.toNat ≤ Text.byteLength source.toList := by
  rw [sheet] at h
  cases htokens : Token.tokenize source file with
  | error e' =>
    rw [htokens] at h
    cases h
    obtain ⟨before, c, after, hsource, -, rfl, -⟩ := Token.exists_stray_of_scan_eq_error htokens
    have hbefore : 0 + Text.byteLength before ≤ Text.byteLength source.toList := by
      rw [show source.toList = before ++ c :: after from hsource, Text.byteLength_append]
      omega
    have hoffset : (Position.ofNat file (0 + Text.byteLength before)).offset.toNat =
        0 + Text.byteLength before :=
      Position.toNat_offset_ofNat (Nat.lt_of_le_of_lt hbefore hlen)
    exact (Nat.le_of_eq hoffset).trans hbefore
  | ok tokens =>
    rw [htokens] at h
    obtain ⟨words, last, rfl, hlast, -⟩ := Token.exists_words_of_tokenize htokens
    obtain ⟨hstands, hposition⟩ := Grammar.standsAt_of_sheet_eq_error hlast (Prod.ext h rfl)
    obtain ⟨hle, hstop⟩ := token_le hlen htokens (List.mem_of_getElem? hstands.current)
    rw [hposition]
    exact hle.trans hstop

theorem Mentions.offset_le {p : Position} (h : Mentions source file p) :
    p.offset.toNat ≤ Text.byteLength source.toList := by
  cases h with
  | tokenStart h ht =>
    obtain ⟨hle, hstop⟩ := token_le hlen h ht
    exact hle.trans hstop
  | tokenStop h ht => exact (token_le hlen h ht).2
  | nodeStart h hi =>
    obtain ⟨hle, hstop⟩ := node_le hlen h hi
    exact hle.trans hstop
  | nodeStop h hi => exact (node_le hlen h hi).2
  | error h => exact error_le hlen h

end

/-- A source behind another one and a newline has its own tokens behind those of the other one, or
its own lexical error; and if the other one can be read, its items stand behind the items of that
one, or its own error is given. All of this is further on by as many bytes as come before it. -/
theorem append_newline {a file : String} {words : List Token} {last : Token}
    (ha : Token.tokenize a file = .ok (words ++ [last])) (b : String)
    (hlen : Text.byteLength (a ++ "\n" ++ b).toList < 2 ^ 32) :
    Token.tokenize (a ++ "\n" ++ b) file =
        (Token.shiftAll (Text.byteLength a.toList + 1) (Token.tokenize b file)).map (words ++ ·) ∧
      (∀ s, sheet a file = .ok s → sheet (a ++ "\n" ++ b) file =
        ((sheet b file).map (s.join (.shift (Text.byteLength a.toList + 1)))).mapError
          (Error.move (Relocation.shift (Text.byteLength a.toList + 1)).start)) ∧
      ∀ p, Mentions b file p →
        ((Relocation.shift (Text.byteLength a.toList + 1)).start p).offset.toNat =
          p.offset.toNat + (Text.byteLength a.toList + 1) := by
  refine ⟨Token.tokenize_newline ha b, fun s hs ↦ sheet_newline_eq hs b, fun p hp ↦ ?_⟩
  have htotal : Text.byteLength (a ++ "\n" ++ b).toList =
      Text.byteLength a.toList + 1 + Text.byteLength b.toList := by
    rw [String.toList_append, String.toList_append, Text.byteLength_append, Text.byteLength_append]
    rfl
  have hle := hp.offset_le (by omega)
  exact Relocation.offset_shift (by omega)

/-- A source that can be read, with a comment at its end. -/
def readableSource : String := "--c: 1px; p, .q \x7b if --c \x7b a: --c; \x7d \x7d // é"

/-- A source that is refused, since an operand is missing. -/
def refusedSource : String := "#x \x7b b: (3 + ; \x7d"

/-- The comment ends with the newline, and what is behind it is refused where it is refused alone,
45 bytes further on. -/
theorem append_newline_refused :
    Text.byteLength (readableSource ++ "\n" ++ refusedSource).toList < 2 ^ 32 ∧
      sheet refusedSource "s" =
        .error ⟨.unexpectedTokenDetailed ";" "expected an expression", ⟨13, "s"⟩⟩ ∧
      ∃ words last, Token.tokenize readableSource "s" = .ok (words ++ [last]) ∧
        words.length = 18 ∧
        Token.tokenize (readableSource ++ "\n" ++ refusedSource) "s" =
          (Token.shiftAll 45 (Token.tokenize refusedSource "s")).map (words ++ ·) ∧
        sheet (readableSource ++ "\n" ++ refusedSource) "s" =
          .error ⟨.unexpectedTokenDetailed ";" "expected an expression", ⟨58, "s"⟩⟩ := by
  have hlen : Text.byteLength (readableSource ++ "\n" ++ refusedSource).toList < 2 ^ 32 := by
    decide +kernel
  have hbytes : Text.byteLength readableSource.toList + 1 = 45 := by decide +kernel
  have hlength : (Token.tokenize readableSource "s").toOption.map List.length = some 19 := by
    decide +kernel
  have hreadable : (sheet readableSource "s").toOption.isSome = true := by decide +kernel
  have hrefused : (match sheet refusedSource "s" with | .error e => some e | .ok _ => none) =
      some ⟨.unexpectedTokenDetailed ";" "expected an expression", ⟨13, "s"⟩⟩ := by
    decide +kernel
  cases hb : sheet refusedSource "s" with
  | ok t =>
    rw [hb] at hrefused
    cases hrefused
  | error e =>
    rw [hb] at hrefused
    obtain rfl := Option.some.inj hrefused
    cases ha : sheet readableSource "s" with
    | error e =>
      rw [ha] at hreadable
      cases hreadable
    | ok s =>
      obtain ⟨x, last, htokens, -⟩ := sheet_eq_ok_iff.1 ha
      obtain ⟨hjoined, hsheet, -⟩ := append_newline htokens refusedSource hlen
      have hsheet := hsheet s ha
      rw [hbytes, hb] at hsheet
      rw [hbytes] at hjoined
      rw [htokens] at hlength
      have hwords : (x.tokens ++ [last]).length = 19 := Option.some.inj hlength
      refine ⟨hlen, rfl, x.tokens, last, htokens, ?_, hjoined, hsheet⟩
      rw [List.length_append, List.length_singleton] at hwords
      omega

end Parse

end TypedCss

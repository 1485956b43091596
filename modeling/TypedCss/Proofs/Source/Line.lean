import Mathlib.Data.List.Basic
import TypedCss.Source.Line

/-!
# Where a line stands

Splitting a source gives lines that end with the only newline in them; the last line alone may lack
it. So a line can be told from where it stands in its source, without the list of all lines:
`Line.IsLine before text after` asks that a newline, or nothing, comes before the text, that the
text ends with its first newline, and that it lacks one only at the end of the source. The number
of the line is then the number of newlines before it.

The line that is looked up is the one whose stretch of the source holds the offset
(`exists_of_lineAt?_eq_some`). The offset past all characters is held by no stretch, and belongs to
the last line.
-/

namespace TypedCss

open Text

namespace Line

/-! ### The lines of a source -/

/-- A line with its newline. -/
def IsWhole (text : List Char) : Prop := ∃ body, text = body ++ ['\n'] ∧ '\n' ∉ body

/-- A line that the end of the source cuts short. -/
def IsPartial (text : List Char) : Prop := text ≠ [] ∧ '\n' ∉ text

theorem isWhole_newline : IsWhole ['\n'] := ⟨[], rfl, by simp⟩

theorem IsWhole.cons {text : List Char} {c : Char} (hc : c ≠ '\n') (h : IsWhole text) :
    IsWhole (c :: text) := by
  obtain ⟨body, rfl, hb⟩ := h
  exact ⟨c :: body, rfl, by simp [hc.symm, hb]⟩

theorem IsPartial.cons {text : List Char} {c : Char} (hc : c ≠ '\n') (h : '\n' ∉ text) :
    IsPartial (c :: text) :=
  ⟨by simp, by simp [hc.symm, h]⟩

/-- All lines have their newline, except perhaps the last one. -/
theorem isWhole_of_split {cs : List Char} : ∀ {before after : List (List Char)} {text : List Char},
    split cs = before ++ text :: after →
      (∀ l ∈ before, IsWhole l) ∧ (IsWhole text ∨ IsPartial text ∧ after = []) := by
  induction cs with
  | nil =>
    intro before after text h
    simp [split] at h
  | cons c cs ih =>
    intro before after text h
    by_cases hc : c = '\n'
    · subst hc
      rw [split, if_pos rfl] at h
      cases before with
      | nil =>
        obtain ⟨rfl, -⟩ := List.cons.inj h
        exact ⟨by simp, .inl isWhole_newline⟩
      | cons first others =>
        obtain ⟨rfl, hs⟩ := List.cons.inj h
        obtain ⟨ho, ht⟩ := ih hs
        exact ⟨List.forall_mem_cons.2 ⟨isWhole_newline, ho⟩, ht⟩
    · rw [split, if_neg hc] at h
      -- Any other character goes to the front of the first line of the rest, if there is one.
      cases hs : split cs with
      | nil =>
        rw [hs] at h
        cases before with
        | nil =>
          obtain ⟨rfl, rfl⟩ := List.cons.inj h
          exact ⟨by simp, .inr ⟨.cons hc (by simp), rfl⟩⟩
        | cons first others => simp at h
      | cons line lines =>
        rw [hs] at h
        cases before with
        | nil =>
          obtain ⟨rfl, rfl⟩ := List.cons.inj h
          obtain ⟨-, ht⟩ := ih (show split cs = [] ++ line :: lines from hs)
          refine ⟨by simp, ht.imp (.cons hc) fun hp ↦ ⟨.cons hc hp.1.2, hp.2⟩⟩
        | cons first others =>
          obtain ⟨rfl, rfl⟩ := List.cons.inj h
          obtain ⟨ho, ht⟩ := ih (show split cs = (line :: others) ++ text :: after from hs)
          obtain ⟨hl, ho⟩ := List.forall_mem_cons.1 ho
          exact ⟨List.forall_mem_cons.2 ⟨hl.cons hc, ho⟩, ht⟩

/-- A source without a newline is one line. -/
theorem split_of_not_mem {cs : List Char} (hne : cs ≠ []) (h : '\n' ∉ cs) : split cs = [cs] := by
  induction cs with
  | nil => exact absurd rfl hne
  | cons c cs ih =>
    rw [List.mem_cons, not_or] at h
    rw [split, if_neg (Ne.symm h.1)]
    cases cs with
    | nil => rfl
    | cons d ds => rw [ih (List.cons_ne_nil d ds) h.2]

/-- Lines that have their newlines have as many of them as there are lines. -/
theorem count_flatten {lines : List (List Char)} (h : ∀ l ∈ lines, IsWhole l) :
    lines.flatten.count '\n' = lines.length := by
  induction lines with
  | nil => rfl
  | cons line lines ih =>
    obtain ⟨⟨body, rfl, hb⟩, hl⟩ := List.forall_mem_cons.1 h
    simp [ih hl, List.count_eq_zero.2 hb]

theorem getLast?_flatten {lines : List (List Char)} (h : ∀ l ∈ lines, IsWhole l) :
    lines.flatten = [] ∨ lines.flatten.getLast? = some '\n' := by
  rcases List.eq_nil_or_concat lines with rfl | ⟨others, line, rfl⟩
  · exact .inl rfl
  · obtain ⟨body, rfl, -⟩ := h line (by simp)
    exact .inr (by simp)

/-! ### Standing -/

/-- What it is for a text to be a line of a source: `before` comes before it and `after` after
it. -/
structure IsLine (before text after : List Char) : Prop where
  /-- The line begins the source or follows a newline. -/
  begins : before = [] ∨ before.getLast? = some '\n'
  /-- No newline but the last character. -/
  single : '\n' ∉ text.dropLast
  /-- The line ends the source or ends with a newline. -/
  ends : after = [] ∨ text.getLast? = some '\n'

/-- The lines that a source is split into are lines where they stand. -/
theorem isLine_of_split {cs text : List Char} {before after : List (List Char)}
    (h : split cs = before ++ text :: after) :
    cs = before.flatten ++ text ++ after.flatten ∧ IsLine before.flatten text after.flatten ∧
      before.flatten.count '\n' = before.length ∧ text ≠ [] := by
  obtain ⟨hb, ht⟩ := isWhole_of_split h
  refine ⟨?_, ?_, count_flatten hb, ?_⟩
  · rw [← flatten_split cs, h]
    simp
  · rcases ht with ⟨body, rfl, hn⟩ | ⟨hp, rfl⟩
    · exact ⟨getLast?_flatten hb, by simpa using hn, .inr (by simp)⟩
    · exact ⟨getLast?_flatten hb, fun hm ↦ hp.2 (List.dropLast_subset _ hm), .inl rfl⟩
  · rcases ht with ⟨body, rfl, -⟩ | ⟨hp, -⟩
    · simp
    · exact hp.1

/-! ### Finding -/

variable {number offset : ℕ} {lines : List (List Char)} {line : Line}

theorem find?_eq_some (h : find? number offset lines = some line) :
    ∃ before after, lines = before ++ line.text :: after ∧
      line.number = number + before.length ∧
      byteLength before.flatten + line.column = offset ∧
      line.column < byteLength line.text := by
  induction lines generalizing number offset with
  | nil => cases h
  | cons first rest ih =>
    rw [find?] at h
    split at h
    · obtain rfl := Option.some.inj h
      exact ⟨[], rest, rfl, rfl, by simp, ‹_›⟩
    · obtain ⟨before, after, rfl, hn, hc, hlt⟩ := ih h
      refine ⟨first :: before, after, rfl, ?_, ?_, hlt⟩
      · rw [hn, List.length_cons]
        omega
      · rw [List.flatten_cons, byteLength_append]
        omega

theorem le_of_find?_eq_none (h : find? number offset lines = none) :
    byteLength lines.flatten ≤ offset := by
  induction lines generalizing number offset with
  | nil => exact Nat.zero_le _
  | cons first rest ih =>
    rw [find?] at h
    split at h
    · cases h
    · have := ih h
      rw [List.flatten_cons, byteLength_append]
      omega

end Line

/-! ### Looking up -/

open Line

variable {source : String} {offset : UInt32}

theorem lineAt?_eq_none_iff : lineAt? source offset = none ↔
    byteLength source.toList < offset.toNat := by
  rw [lineAt?]
  split <;> simp [*]

/-- The line that is looked up is a line where it stands. It holds the offset, unless the offset is
past all characters: then the line is the last one, at its end. -/
theorem exists_of_lineAt?_eq_some {line : Line} (h : lineAt? source offset = some line) :
    ∃ before after, source.toList = before ++ line.text ++ after ∧
      IsLine before line.text after ∧ line.number = 1 + before.count '\n' ∧
      byteLength before + line.column = offset.toNat ∧
      (line.column < byteLength line.text ∨
        after = [] ∧ line.column = byteLength line.text ∧
          (line.text = [] → source.toList = [])) := by
  rw [lineAt?] at h
  split at h
  · cases h
  rename_i hle
  have hline := Option.some.inj h
  cases hf : find? 1 offset.toNat (split source.toList) with
  | some found =>
    rw [hf, Option.getD_some] at hline
    subst hline
    obtain ⟨before, after, hs, hn, hc, hlt⟩ := find?_eq_some hf
    obtain ⟨hsource, hstands, hcount, -⟩ := isLine_of_split hs
    exact ⟨before.flatten, after.flatten, hsource, hstands, by rw [hn, hcount], hc, .inl hlt⟩
  | none =>
    rw [hf, Option.getD_none] at hline
    subst hline
    -- No line holds the offset, so it is past all characters.
    have hend : offset.toNat = byteLength source.toList := by
      have := le_of_find?_eq_none hf
      rw [flatten_split] at this
      omega
    rcases List.eq_nil_or_concat (split source.toList) with hs | ⟨before, text, hs⟩
    · have hnil : source.toList = [] := by
        rw [← flatten_split source.toList, hs]
        rfl
      rw [hs, hend, hnil]
      exact ⟨[], [], rfl, ⟨.inl rfl, by simp [atEnd], .inl rfl⟩, rfl, rfl,
        .inr ⟨rfl, rfl, fun _ ↦ rfl⟩⟩
    · rw [List.concat_eq_append] at hs
      obtain ⟨hsource, hstands, hcount, hne⟩ := isLine_of_split hs
      have htext : (atEnd (split source.toList)).text = text := by simp [atEnd, hs]
      have hcolumn : (atEnd (split source.toList)).column = byteLength text := by
        simp [atEnd, hs]
      have hnumber : (atEnd (split source.toList)).number = before.length + 1 := by
        simp [atEnd, hs]
      rw [htext, hcolumn, hnumber]
      refine ⟨before.flatten, [], hsource, hstands, by rw [hcount, Nat.add_comm], ?_,
        .inr ⟨rfl, rfl, fun he ↦ absurd he hne⟩⟩
      rw [hend, hsource]
      simp

/-- In a source without a newline every character is in the first line. -/
theorem lineAt?_of_not_mem (hn : '\n' ∉ source.toList)
    (ho : offset.toNat < byteLength source.toList) :
    lineAt? source offset = some ⟨1, source.toList, offset.toNat⟩ := by
  have hne : source.toList ≠ [] := by
    intro he
    rw [he] at ho
    exact absurd ho (Nat.not_lt_zero _)
  rw [lineAt?, if_neg (by omega), split_of_not_mem hne hn]
  simp [find?, ho]

/-- There are no more lines before an offset than bytes. -/
theorem number_le_of_lineAt?_eq_some {line : Line} (h : lineAt? source offset = some line) :
    line.number ≤ 1 + offset.toNat := by
  obtain ⟨before, -, -, -, hnumber, hoffset, -⟩ := exists_of_lineAt?_eq_some h
  have hcount : before.count '\n' ≤ before.length := List.count_le_length
  have hbytes := length_le_byteLength before
  omega

/-- Looking up a line is exact: an offset has a line unless it is past the end of the source, and
the line is the one that the offset falls into, cut out of the source with the newline that ends
it. The offset of the end belongs to the last line. -/
theorem lineAt?_exact (source : String) (offset : UInt32) :
    (lineAt? source offset = none ↔ byteLength source.toList < offset.toNat) ∧
      ∀ line, lineAt? source offset = some line →
        ∃ before after, source.toList = before ++ line.text ++ after ∧
          IsLine before line.text after ∧ line.number = 1 + before.count '\n' ∧
          byteLength before + line.column = offset.toNat ∧
          (offset.toNat < byteLength source.toList → line.column < byteLength line.text) ∧
          (offset.toNat = byteLength source.toList →
            after = [] ∧ line.column = byteLength line.text ∧ (line.text = [] ↔ source = "")) := by
  refine ⟨lineAt?_eq_none_iff, fun line h ↦ ?_⟩
  obtain ⟨before, after, hs, hline, hn, hc, hwhere⟩ := exists_of_lineAt?_eq_some h
  have hlength : byteLength source.toList =
      byteLength before + byteLength line.text + byteLength after := by
    rw [hs, byteLength_append, byteLength_append]
  refine ⟨before, after, hs, hline, hn, hc, fun hlt ↦ ?_, fun he ↦ ?_⟩
  · rcases hwhere with hlt' | ⟨rfl, hcol, -⟩
    · exact hlt'
    · rw [byteLength_nil] at hlength
      omega
  · rcases hwhere with hlt | ⟨rfl, hcol, hempty⟩
    · omega
    · refine ⟨rfl, hcol, fun ht ↦ String.toList_eq_nil_iff.1 (hempty ht), fun hsource ↦ ?_⟩
      subst hsource
      exact (List.append_eq_nil_iff.1 (List.append_eq_nil_iff.1 hs.symm).1).2

-- A newline at the end of a source does not begin another line.
example : lineAt? "a\n" 2 = some ⟨1, ['a', '\n'], 2⟩ := by decide

end TypedCss

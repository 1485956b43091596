import Mathlib.Data.Bool.AllAny
import Mathlib.Data.List.DropRight
import Mathlib.Data.Nat.Digits.Defs
import TypedCss.Proofs.Source.Line
import TypedCss.Proofs.Token.FirstCharacter
import TypedCss.Report

/-!
# Where the arrow of a report points

The line of a diagnostic is shown without the blanks that it begins with, while the arrow is
shortened by the spaces among them only, up to the first blank that is no space. In a source of
ASCII, where bytes are characters, the arrow therefore stands as many columns to the right of the
character that it is meant for as there are other blanks in the indentation
(`Error.report_arrow`). It stands below that character in lines that are indented by spaces.

A line that was looked up has a snippet unless its arrow is too wide (`Report.exists_snippet?`,
`Report.snippet?_of_lt`); the margin always has its place.
-/

namespace TypedCss

open Text

/-! ### Texts without blanks at their ends -/

namespace Text

/-- Characters up to 127 take one byte each. -/
theorem byteLength_eq_length {cs : List Char} (h : ∀ c ∈ cs, c.toNat < 128) :
    byteLength cs = cs.length := by
  induction cs with
  | nil => rfl
  | cons c cs ih =>
    obtain ⟨hc, hcs⟩ := List.forall_mem_cons.1 h
    have hsize : c.utf8Size = 1 := Char.utf8Size_eq_one_iff.2 (Nat.le_of_lt_succ hc)
    rw [byteLength_cons, hsize, ih hcs, List.length_cons, Nat.add_comm]

/-- A character that is no blank stays where a text is trimmed. -/
theorem trim_append_cons {c : Char} (hc : isBlank c = false) (before after : List Char) :
    trim (before ++ c :: after) =
      before.dropWhile isBlank ++ c :: after.rdropWhile isBlank := by
  have hback : (before.dropWhile isBlank ++ c :: after).reverse =
      after.reverse ++ c :: (before.dropWhile isBlank).reverse := by simp
  rw [trim, (stops_cons.2 hc).dropWhile_append, hback, (stops_cons.2 hc).dropWhile_append]
  simp [List.rdropWhile]

theorem drop_length_takeWhile (p : Char → Bool) (cs : List Char) :
    cs.drop (cs.takeWhile p).length = cs.dropWhile p :=
  calc cs.drop (cs.takeWhile p).length
      = (cs.takeWhile p ++ cs.dropWhile p).drop (cs.takeWhile p).length := by
        rw [List.takeWhile_append_dropWhile]
    _ = cs.dropWhile p := List.drop_left

/-- Spaces are blanks. -/
theorem dropWhile_isBlank_dropWhile_space (cs : List Char) :
    (cs.dropWhile (· == ' ')).dropWhile isBlank = cs.dropWhile isBlank := by
  induction cs with
  | nil => rfl
  | cons c cs ih =>
    by_cases hc : c = ' '
    · subst hc
      exact ih
    · simp [List.dropWhile_cons, hc]

/-- Cutting off spaces leaves as much as cutting off all blanks exactly if all blanks that the text
begins with are spaces. -/
theorem length_dropWhile_space_eq_iff (cs : List Char) :
    (cs.dropWhile (· == ' ')).length = (cs.dropWhile isBlank).length ↔
      ∀ b ∈ cs.takeWhile isBlank, b = ' ' := by
  induction cs with
  | nil => simp
  | cons c cs ih =>
    by_cases hspace : c = ' '
    · subst hspace
      have hb : isBlank ' ' = true := rfl
      simpa [List.dropWhile_cons, List.takeWhile_cons, hb] using ih
    · by_cases hb : isBlank c = true
      · have hle : (cs.dropWhile isBlank).length ≤ cs.length :=
          (List.dropWhile_sublist isBlank).length_le
        simp only [List.dropWhile_cons, List.takeWhile_cons, hb, beq_iff_eq, hspace, ↓reduceIte,
          List.length_cons, List.forall_mem_cons, false_and, iff_false]
        omega
      · simp [hb, hspace]

/-- A newline at the end of a text is cut off with the blanks there. -/
theorem newline_not_mem_rdropWhile {cs : List Char} (h : '\n' ∉ cs.dropLast) :
    '\n' ∉ cs.rdropWhile isBlank := by
  rcases List.eq_nil_or_concat cs with rfl | ⟨others, c, rfl⟩
  · simp
  · rw [List.concat_eq_append] at h ⊢
    rw [List.dropLast_concat] at h
    rw [List.rdropWhile_concat]
    split
    · exact fun hm ↦ h ((List.rdropWhile_prefix isBlank others).subset hm)
    · rename_i hc
      rw [List.mem_append, List.mem_singleton, not_or]
      exact ⟨h, fun he ↦ hc (he ▸ rfl)⟩

end Text

/-! ### The line up to a place -/

/-- What the line of a place has before the place, cut out of all that stands before it. -/
def Line.soFar (cs : List Char) : List Char := cs.rtakeWhile (· != '\n')

/-- What follows the last newline is the line so far. -/
theorem Line.soFar_append {cs left : List Char} (hcs : cs = [] ∨ cs.getLast? = some '\n')
    (hleft : '\n' ∉ left) : Line.soFar (cs ++ left) = left := by
  have hstop : Stops (· != '\n') cs.reverse := by
    rcases hcs with rfl | hlast
    · exact stops_nil
    · intro c hc
      rw [List.head?_reverse, hlast] at hc
      obtain rfl := Option.some.inj hc
      rfl
  have hrun : ∀ c ∈ left.reverse, (c != '\n') = true := by
    intro c hc
    rw [List.mem_reverse] at hc
    rw [bne_iff_ne]
    rintro rfl
    exact hleft hc
  rw [soFar, List.rtakeWhile, List.reverse_append, takeWhile_append hrun hstop,
    List.reverse_reverse]

/-- In a source of ASCII, the line that is looked up for an offset has the character at the offset
behind all that it has before the offset. -/
theorem exists_lineAt?_of_getElem? {source : String} {offset : UInt32} {c : Char}
    (hascii : ∀ c ∈ source.toList, c.toNat < 128)
    (hc : source.toList[offset.toNat]? = some c) :
    ∃ right, '\n' ∉ Line.soFar (source.toList.take offset.toNat) ∧
      '\n' ∉ (c :: right).dropLast ∧
      lineAt? source offset =
        some ⟨1 + (source.toList.take offset.toNat).count '\n',
          Line.soFar (source.toList.take offset.toNat) ++ c :: right,
          (Line.soFar (source.toList.take offset.toNat)).length⟩ := by
  have hlt : offset.toNat < source.toList.length := (List.getElem?_eq_some_iff.1 hc).1
  have hlength := byteLength_eq_length hascii
  obtain ⟨⟨number, text, column⟩, hline⟩ : ∃ line, lineAt? source offset = some line := by
    refine Option.ne_none_iff_exists'.1 fun hn ↦ ?_
    have := lineAt?_eq_none_iff.1 hn
    omega
  obtain ⟨before, after, hs, hstands, hn, hcol, hwhere⟩ := exists_of_lineAt?_eq_some hline
  dsimp only at hs hstands hn hcol hwhere
  have hb : byteLength before = before.length :=
    byteLength_eq_length fun c hc ↦ hascii c (by simp [hs, hc])
  have ht : byteLength text = text.length :=
    byteLength_eq_length fun c hc ↦ hascii c (by simp [hs, hc])
  have hcolumn : column < text.length := by
    rcases hwhere with hlt' | ⟨rfl, he, -⟩
    · omega
    · rw [hs, List.append_nil, List.length_append] at hlt
      omega
  -- The place cuts the line in two, and what is before it has no newline.
  have hoffset : offset.toNat = before.length + column := by omega
  have hhead : source.toList.take offset.toNat = before ++ text.take column := by
    rw [hs, hoffset, List.append_assoc, List.take_length_add_append,
      List.take_append_of_le_length hcolumn.le]
  have hat : text[column]? = some c := by
    rw [← hc, hs, hoffset, List.append_assoc, List.getElem?_append_right (by omega),
      Nat.add_sub_cancel_left, List.getElem?_append_left hcolumn]
  have htext : text = text.take column ++ c :: text.drop (column + 1) := by
    obtain ⟨h, rfl⟩ := List.getElem?_eq_some_iff.1 hat
    rw [List.getElem_cons_drop, List.take_append_drop]
  have hsingle := hstands.single
  rw [htext, List.dropLast_append_of_ne_nil (by simp), List.mem_append, not_or] at hsingle
  have hsoFar : Line.soFar (source.toList.take offset.toNat) = text.take column := by
    rw [hhead, Line.soFar_append hstands.begins hsingle.1]
  refine ⟨text.drop (column + 1), hsoFar ▸ hsingle.1, hsingle.2, ?_⟩
  rw [hline, hsoFar, hhead, List.count_append, List.count_eq_zero.2 hsingle.1, ← htext,
    List.length_take_of_le hcolumn.le, hn, Nat.add_zero]

/-! ### The last two lines -/

namespace Report

/-- `EndsWith report numbered arrow` says that these are the last two lines of a report. -/
def EndsWith (report : String) (numbered arrow : List Char) : Prop :=
  ∃ front, report.toList = front ++ (numbered ++ '\n' :: (arrow ++ ['\n'])) ∧
    front.getLast? = some '\n' ∧ '\n' ∉ numbered ∧ '\n' ∉ arrow

/-- The last two lines of a report can be told from the report. -/
theorem EndsWith.unique {report : String} {numbered arrow numbered' arrow' : List Char}
    (h : EndsWith report numbered arrow) (h' : EndsWith report numbered' arrow') :
    numbered = numbered' ∧ arrow = arrow' := by
  obtain ⟨front, hr, hf, hn, ha⟩ := h
  obtain ⟨front', hr', hf', hn', ha'⟩ := h'
  have hends : front ++ numbered ++ ['\n'] ++ arrow ++ ['\n'] =
      front' ++ numbered' ++ ['\n'] ++ arrow' ++ ['\n'] := by
    simpa using hr.symm.trans hr'
  have hlines := List.append_cancel_right hends
  obtain rfl : arrow = arrow' := by
    rw [← Line.soFar_append (.inr List.getLast?_concat) ha, hlines,
      Line.soFar_append (.inr List.getLast?_concat) ha']
  have hnumbered : front ++ numbered = front' ++ numbered' :=
    List.append_cancel_right (List.append_cancel_right hlines)
  refine ⟨?_, rfl⟩
  rw [← Line.soFar_append (.inr hf) hn, hnumbered, Line.soFar_append (.inr hf') hn']

/-- What stands before the text of a shown line. -/
def label (number : ℕ) : List Char := (toString number).toList ++ [' ', '|', ' ']

/-- The arrow without its tip: what stands below the label, and a number of dashes. -/
def shaft (number dashes : ℕ) : List Char :=
  List.replicate ((toString number).length + 1) ' ' ++
    '|' :: ' ' :: List.replicate dashes '-'

theorem length_shaft (number dashes : ℕ) :
    (shaft number dashes).length = (label number).length + dashes := by
  simp only [shaft, label, List.length_append, List.length_cons, List.length_nil,
    List.length_replicate, String.length_toList]
  omega

theorem newline_not_mem_label (number : ℕ) : '\n' ∉ label number := by
  have h : '\n' ∉ Nat.toDigits 10 number := fun hm ↦
    absurd (Nat.isDigit_of_mem_toDigits (by decide) (by decide) hm) (by decide)
  simpa [label] using h

/-- A shaft is made of blanks, bars and dashes. -/
theorem mem_shaft {number dashes : ℕ} {c : Char} (h : c ∈ shaft number dashes) :
    c = ' ' ∨ c = '|' ∨ c = '-' := by
  simp only [shaft, List.mem_append, List.mem_cons, List.mem_replicate] at h
  tauto

/-- The margin of a line that was looked up is never too wide: its number has ten digits at most. -/
theorem width_margin_le {source : String} {offset : UInt32} {line : Line}
    (h : lineAt? source offset = some line) : (toString line.number).length + 2 ≤ maxWidth := by
  have hnumber := number_le_of_lineAt?_eq_some h
  have hoffset := offset.toNat_lt
  have hdigits : (toString line.number).length ≤ 10 :=
    Nat.repr_length line.number 10 (by decide) (by omega)
  rw [maxWidth]
  omega

/-- A line that was looked up has a snippet if its arrow is not too wide. -/
theorem exists_snippet? {source : String} {offset : UInt32} {line : Line}
    (h : lineAt? source offset = some line) (hw : arrowWidth line ≤ maxWidth) :
    ∃ margin arrow, snippet? line = some (layout line margin arrow) ∧
      margin.toList = List.replicate ((toString line.number).length + 1) ' ' ++ ['|'] ∧
      arrow.toList = List.replicate (arrowWidth line - 1) '-' ++ ['^'] := by
  refine ⟨String.ofList (List.replicate ((toString line.number).length + 1) ' ') ++ "|",
    String.ofList (List.replicate (arrowWidth line - 1) '-') ++ "^", ?_, by simp, by simp⟩
  rw [snippet?, padLeft?_of_le (width_margin_le h), padLeft?_of_le hw]
  rfl

/-- There is no snippet with an arrow that is too wide. -/
theorem snippet?_of_lt {line : Line} (hw : maxWidth < arrowWidth line) : snippet? line = none := by
  rw [snippet?, padLeft?_eq_none_iff.2 hw]
  cases padLeft? ' ' ((toString line.number).length + 2) "|" <;> rfl

section

variable {c : Char} (hb : isBlank c = false) (number : ℕ) (left right : List Char)

include hb

/-- A character that is no blank ends the spaces before it. -/
theorem stops_space : Stops (· == ' ') (c :: right) := by
  rw [stops_cons, beq_eq_false_iff_ne]
  rintro rfl
  exact absurd hb (by decide)

/-- The arrow below a character that is no blank has a dash for every character before it but the
spaces that the line begins with. -/
theorem arrowWidth_eq : arrowWidth ⟨number, left ++ c :: right, left.length⟩ =
    (left.dropWhile (· == ' ')).length + 1 := by
  rw [arrowWidth, spaces, (stops_space hb right).takeWhile_append, ← drop_length_takeWhile,
    List.length_drop]

/-- A line with a character that is no blank is shown trimmed, behind its label. -/
theorem toList_layout (margin arrow : String) :
    (layout ⟨number, left ++ c :: right, left.length⟩ margin arrow).toList =
      margin.toList ++ '\n' ::
        ((label number ++ left.dropWhile isBlank ++ c :: right.rdropWhile isBlank) ++ '\n' ::
          (margin.toList ++ ' ' :: arrow.toList ++ ['\n'])) := by
  have hshown : trim ((left ++ c :: right).dropWhile (· == ' ')) =
      left.dropWhile isBlank ++ c :: right.rdropWhile isBlank := by
    rw [(stops_space hb right).dropWhile_append, trim_append_cons hb,
      dropWhile_isBlank_dropWhile_space]
  simp [layout, spaces, drop_length_takeWhile, hshown, label]

/-- The line of a character that is no blank, and the arrow below it, are the last two lines. -/
theorem endsWith_layout {margin arrow : String} {dashes : ℕ} (front : String)
    (hleft : '\n' ∉ left) (hright : '\n' ∉ (c :: right).dropLast)
    (hmargin : margin.toList = List.replicate ((toString number).length + 1) ' ' ++ ['|'])
    (harrow : arrow.toList = List.replicate dashes '-' ++ ['^']) :
    EndsWith (front ++ layout ⟨number, left ++ c :: right, left.length⟩ margin arrow)
      (label number ++ left.dropWhile isBlank ++ c :: right.rdropWhile isBlank)
      (shaft number dashes ++ ['^']) := by
  have hrest : '\n' ∉ right.rdropWhile isBlank := by
    cases right with
    | nil => simp
    | cons d right => exact newline_not_mem_rdropWhile fun h ↦ hright (.tail _ h)
  have hnewline : c ≠ '\n' := by
    rintro rfl
    exact absurd hb (by decide)
  refine ⟨front.toList ++ margin.toList ++ ['\n'], ?_, List.getLast?_concat, ?_, ?_⟩
  · rw [String.toList_append, toList_layout hb, hmargin, harrow]
    simp [shaft]
  · simp only [List.mem_append, List.mem_cons, not_or]
    exact ⟨⟨newline_not_mem_label _, fun h ↦ hleft ((List.dropWhile_sublist _).subset h)⟩,
      hnewline.symm, hrest⟩
  · intro h
    rcases List.mem_append.1 h with h | h
    · rcases mem_shaft h with h | h | h <;> cases h
    · simp at h

end

end Report

/-! ### The arrow -/

section

variable {e : Error} {source : String} {line : Line}
  (hline : lineAt? source e.position.offset = some line) (file : String)

include hline

/-- The report on a line with a snippet ends with the snippet. -/
theorem Error.report?_eq_some {snippet : String} (h : Report.snippet? line = some snippet) :
    e.report? source file =
      some (Report.headline e.cause ++ "\n-> " ++ file ++ "\n" ++ snippet) := by
  rw [report?, hline]
  exact congrArg (Option.map _) h

/-- There is no report with an arrow that is too wide. -/
theorem Error.report?_eq_none (hw : maxWidth < Report.arrowWidth line) :
    e.report? source file = none := by
  rw [report?, hline]
  exact congrArg (Option.map _) (Report.snippet?_of_lt hw)

end

/-- The report on a character of a source of ASCII ends with the line that the character stands in,
shown from its first character that is no blank on, and with an arrow that leaves off the spaces at
the start of the line only. So the arrow stands in the column of the character exactly if the line
has no other blanks before it; then the character above its tip is the one at the offset. There is
no report if the arrow would be too wide. -/
theorem Error.report_arrow (e : Error) (source file : String) {c : Char}
    (hascii : ∀ c ∈ source.toList, c.toNat < 128)
    (hc : source.toList[e.position.offset.toNat]? = some c) (hb : isBlank c = false) :
    let head := source.toList.take e.position.offset.toNat
    let left := Line.soFar head
    let label := Report.label (1 + head.count '\n')
    let dashes := (left.dropWhile (· == ' ')).length
    (maxWidth ≤ dashes → e.report? source file = none) ∧
      (dashes < maxWidth → ∃ text rest shaft, e.report? source file = some text ∧
        Report.EndsWith text (label ++ left.dropWhile isBlank ++ c :: rest) (shaft ++ ['^']) ∧
        '^' ∉ shaft ∧ shaft.length = label.length + dashes ∧
        (shaft.length = (label ++ left.dropWhile isBlank).length ↔
          ∀ b ∈ left.takeWhile isBlank, b = ' ') ∧
        ((∀ b ∈ left.takeWhile isBlank, b = ' ') →
          (label ++ left.dropWhile isBlank ++ c :: rest)[shaft.length]? = some c)) := by
  intro head left label dashes
  obtain ⟨right, hleft, hright, hline⟩ := exists_lineAt?_of_getElem? hascii hc
  have hwidth : Report.arrowWidth ⟨1 + head.count '\n', left ++ c :: right, left.length⟩ =
      dashes + 1 := Report.arrowWidth_eq hb _ left right
  refine ⟨fun hw ↦ report?_eq_none hline file (hwidth ▸ Nat.lt_succ_of_le hw), fun hw ↦ ?_⟩
  obtain ⟨margin, arrow, hsnippet, hmargin, harrow⟩ :=
    Report.exists_snippet? hline (hwidth ▸ Nat.succ_le_of_lt hw)
  rw [hwidth, Nat.add_sub_cancel] at harrow
  have hcolumns : (Report.shaft (1 + head.count '\n') dashes).length =
      (label ++ left.dropWhile isBlank).length ↔ ∀ b ∈ left.takeWhile isBlank, b = ' ' := by
    rw [Report.length_shaft, List.length_append, Nat.add_left_cancel_iff,
      length_dropWhile_space_eq_iff]
  refine ⟨_, right.rdropWhile isBlank, Report.shaft (1 + head.count '\n') dashes,
    report?_eq_some hline file hsnippet,
    Report.endsWith_layout hb _ left right _ hleft hright hmargin harrow, ?_,
    Report.length_shaft _ _, hcolumns, fun h ↦ ?_⟩
  · intro h
    rcases Report.mem_shaft h with h | h | h <;> cases h
  · rw [hcolumns.2 h, List.getElem?_append_right (Nat.le_refl _), Nat.sub_self]
    rfl

/-- A source with a misspelt property, in a line that is indented by spaces. -/
def Report.spaced : String := "p \x7b\n  widht: 1px;\n\x7d\n"

/-- The same source with a tab in the place of the spaces. -/
def Report.tabbed : String := "p \x7b\n\twidht: 1px;\n\x7d\n"

/-- The report on the misspelt property behind the tab. -/
def Report.tabbedReport : String :=
  "Error: UnknownPropertyError (unknown property `widht`)\n-> a.css\n" ++
    "  |\n2 | widht: 1px;\n  | -^\n"

/-- The diagnostic that is placed at the misspelt property. -/
def Report.misspeltAt (offset : UInt32) : Error := ⟨.unknownProperty "widht", ⟨offset, "a.css"⟩⟩

/-- In a line that is indented by spaces, the arrow stands below the character. -/
theorem Error.report_arrow_spaces :
    (∀ c ∈ Report.spaced.toList, c.toNat < 128) ∧
      Report.spaced.toList[6]? = some 'w' ∧ isBlank 'w' = false ∧
      ∃ text numbered shaft, (Report.misspeltAt 6).report? Report.spaced "a.css" = some text ∧
        Report.EndsWith text numbered (shaft ++ ['^']) ∧
        '^' ∉ shaft ∧ numbered[shaft.length]? = some 'w' := by
  have hascii : ∀ c ∈ Report.spaced.toList, c.toNat < 128 :=
    List.all_iff_forall_prop.1 (by decide +kernel)
  have hc : Report.spaced.toList[6]? = some 'w' := by decide +kernel
  have hb : isBlank 'w' = false := by decide +kernel
  obtain ⟨text, rest, shaft, htext, hends, htip, -, -, hat⟩ :=
    (Error.report_arrow (Report.misspeltAt 6) Report.spaced "a.css" hascii hc hb).2
      (by decide +kernel)
  exact ⟨hascii, hc, hb, text, _, shaft, htext, hends, htip,
    hat (List.all_iff_forall_prop.1 (by decide +kernel))⟩

/-- In a line that is indented by a tab, the arrow does not stand below the character: the tab is
left off the shown line, but not off the arrow. -/
theorem Error.report_arrow_tab :
    (∀ c ∈ Report.tabbed.toList, c.toNat < 128) ∧
      Report.tabbed.toList[5]? = some 'w' ∧ isBlank 'w' = false ∧
      ¬ ∃ text numbered shaft, (Report.misspeltAt 5).report? Report.tabbed "a.css" = some text ∧
        Report.EndsWith text numbered (shaft ++ ['^']) ∧
        '^' ∉ shaft ∧ numbered[shaft.length]? = some 'w' := by
  refine ⟨List.all_iff_forall_prop.1 (by decide +kernel), by decide +kernel, by decide +kernel, ?_⟩
  rintro ⟨text, numbered, shaft, htext, hends, -, hat⟩
  have hreport : (Report.misspeltAt 5).report? Report.tabbed "a.css" = some Report.tabbedReport := by
    decide +kernel
  obtain rfl := Option.some.inj (htext.symm.trans hreport)
  have hlines : Report.EndsWith Report.tabbedReport "2 | widht: 1px;".toList
      ("  | -".toList ++ ['^']) :=
    ⟨"Error: UnknownPropertyError (unknown property `widht`)\n-> a.css\n  |\n".toList,
      by decide +kernel, by decide +kernel, by decide +kernel, by decide +kernel⟩
  obtain ⟨rfl, hshaft⟩ := hends.unique hlines
  obtain rfl : shaft = "  | -".toList := List.append_cancel_right hshaft
  exact absurd hat (by decide +kernel)

end TypedCss

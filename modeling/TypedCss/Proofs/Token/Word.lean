import TypedCss.Proofs.Token.FirstCharacter

/-!
# Which texts are words

What a word is, said without reading anything. `TokenKind.Fits` gives the texts that a kind of
token can have, and `TokenKind.Ends` what may stand after one: every word is as long as it can be.
`Lexeme.read?_word_iff` says that these two decide which word a text begins with.
-/

namespace TypedCss

/-! ### Names and numerals -/

namespace Text

/-- A letter or an underscore, and then letters, digits, underscores and dashes. -/
def IsName (cs : List Char) : Prop :=
  ∃ c part, cs = c :: part ∧ isNameStart c = true ∧ ∀ d ∈ part, isNamePart d = true

/-- One digit or more. -/
def IsDigits (cs : List Char) : Prop := cs ≠ [] ∧ ∀ c ∈ cs, c.isDigit = true

/-- A point and digits. -/
def IsFraction (cs : List Char) : Prop := ∃ ds, cs = '.' :: ds ∧ IsDigits ds

/-- Digits, and maybe a point and digits. -/
def IsNumeral (cs : List Char) : Prop :=
  ∃ whole fraction, cs = whole ++ fraction ∧ IsDigits whole ∧
    (fraction = [] ∨ IsFraction fraction)

end Text

/-! ### Kinds -/

namespace TokenKind

/-- The text of a kind that has only one. -/
def symbol? : TokenKind → Option (List Char)
  | openBracket => some ['[']
  | closeBracket => some [']']
  | openCurly => some ['\x7b']
  | closeCurly => some ['\x7d']
  | openParen => some ['(']
  | closeParen => some [')']
  | colon => some [':']
  | colonEquals => some [':', '=']
  | semicolon => some [';']
  | comma => some [',']
  | dot => some ['.']
  | plus => some ['+']
  | dash => some ['-']
  | star => some ['*']
  | _ => none

/-- The unit that follows the text of a kind. -/
def unit : TokenKind → List Char
  | pixel => ['p', 'x']
  | percentage => ['%']
  | _ => []

/-- Whether a text can be that of a token of a kind. No text is the end of a text. -/
def Fits : TokenKind → List Char → Prop
  | eof, _ => False
  | identifier, cs => Text.IsName cs ∧ reserved? (String.ofList cs) = none
  | variableName, cs => ∃ name, cs = '-' :: '-' :: name ∧ Text.IsName name
  | hash, cs => ∃ part, cs = '#' :: part ∧ part ≠ [] ∧ ∀ c ∈ part, Text.isNamePart c = true
  | number, cs | pixel, cs | percentage, cs => Text.IsNumeral cs
  | ifWord, cs => reserved? (String.ofList cs) = some ifWord
  | elseWord, cs => reserved? (String.ofList cs) = some elseWord
  | trueWord, cs => reserved? (String.ofList cs) = some trueWord
  | falseWord, cs => reserved? (String.ofList cs) = some falseWord
  | kind, cs => kind.symbol? = some cs

/-- Whether a numeral ends where `rest` follows: it goes on with a digit, with a fraction if it has
none, and with a unit. -/
def NumeralEnds (value rest : List Char) : Prop :=
  Text.Stops Char.isDigit rest ∧ ('.' ∈ value ∨ ∀ d cs, rest = '.' :: d :: cs → d.isDigit = false) ∧
    (∀ cs, rest ≠ 'p' :: 'x' :: cs) ∧ ∀ cs, rest ≠ '%' :: cs

/-- Whether a token of a kind and with a text ends where `rest` follows. -/
def Ends : TokenKind → List Char → List Char → Prop
  | identifier, _, rest | variableName, _, rest | hash, _, rest | ifWord, _, rest
  | elseWord, _, rest | trueWord, _, rest | falseWord, _, rest => Text.Stops Text.isNamePart rest
  | number, value, rest => NumeralEnds value rest
  | colon, _, rest => rest.head? ≠ some '='
  | dash, _, rest => ∀ c cs, rest = '-' :: c :: cs → Text.isNameStart c = false
  | _, _, _ => True

end TokenKind

/-! ### Reading words -/

namespace TokenKind

/-- What reserved words are: names, of the four kinds that cannot be used as one. -/
theorem of_reserved?_eq_some {cs : List Char} {kind : TokenKind}
    (h : reserved? (String.ofList cs) = some kind) :
    Text.IsName cs ∧
      (kind = .ifWord ∨ kind = .elseWord ∨ kind = .trueWord ∨ kind = .falseWord) := by
  have name {word : String} (hw : String.ofList cs = word)
      (hn : ∃ c part, word.toList = c :: part ∧ Text.isNameStart c = true ∧
        part.all Text.isNamePart = true) : Text.IsName cs := by
    obtain ⟨c, part, hl, hc, hp⟩ := hn
    refine ⟨c, part, ?_, hc, List.all_eq_true.1 hp⟩
    rw [← hl, ← hw, String.toList_ofList]
  unfold reserved? at h
  split at h
  · rename_i hw
    exact ⟨name hw ⟨'i', ['f'], rfl, by decide, by decide⟩, by simp_all⟩
  · rename_i hw
    exact ⟨name hw ⟨'e', ['l', 's', 'e'], rfl, by decide, by decide⟩, by simp_all⟩
  · rename_i hw
    exact ⟨name hw ⟨'t', ['r', 'u', 'e'], rfl, by decide, by decide⟩, by simp_all⟩
  · rename_i hw
    exact ⟨name hw ⟨'T', ['R', 'U', 'E'], rfl, by decide, by decide⟩, by simp_all⟩
  · rename_i hw
    exact ⟨name hw ⟨'f', ['a', 'l', 's', 'e'], rfl, by decide, by decide⟩, by simp_all⟩
  · rename_i hw
    exact ⟨name hw ⟨'F', ['A', 'L', 'S', 'E'], rfl, by decide, by decide⟩, by simp_all⟩
  · cases h

end TokenKind

namespace Lexeme

open Text

variable {rest : List Char}

/-- A name is read as a whole; what it is depends on whether it is reserved. -/
theorem read?_name {cs : List Char} (h : IsName cs) (hr : Stops isNamePart rest) :
    read? (cs ++ rest) = some
      (.word ((TokenKind.reserved? (String.ofList cs)).getD .identifier) cs [], rest) := by
  obtain ⟨c, part, rfl, hc, hp⟩ := h
  rw [List.cons_append, read?_cons, Pattern.filter_starts_of_isNameStart hc]
  simp [Pattern.read?, hc, takeWhile_append hp hr, dropWhile_append hp hr]

theorem read?_variableName {name : List Char} (h : IsName name) (hr : Stops isNamePart rest) :
    read? ('-' :: '-' :: (name ++ rest)) =
      some (.word .variableName ('-' :: '-' :: name) [], rest) := by
  obtain ⟨c, part, rfl, hc, hp⟩ := h
  have hs : Pattern.all.filter (·.starts '-') = [.variableName, .fixed .dash ['-']] := rfl
  rw [List.cons_append, read?_cons, hs]
  simp [Pattern.read?, hc, takeWhile_append hp hr, dropWhile_append hp hr]

theorem read?_hash {part : List Char} (hne : part ≠ []) (hp : ∀ c ∈ part, isNamePart c = true)
    (hr : Stops isNamePart rest) :
    read? ('#' :: (part ++ rest)) = some (.word .hash ('#' :: part) [], rest) := by
  have hs : Pattern.all.filter (·.starts '#') = [.hash] := rfl
  rw [read?_cons, hs]
  have hempty : ¬ part.isEmpty = true := by simpa using hne
  simp only [List.findSome?_cons, Pattern.read?, takeWhile_append hp hr, dropWhile_append hp hr,
    if_neg hempty]

/-- A colon is not read as one where an equals sign follows. -/
theorem read?_colon (h : rest.head? ≠ some '=') :
    read? (':' :: rest) = some (.word .colon [':'] [], rest) := by
  have hs : Pattern.all.filter (·.starts ':') =
    [.fixed .colonEquals [':', '='], .fixed .colon [':']] := rfl
  have hn : (Pattern.fixed .colonEquals [':', '=']).read? (':' :: rest) = none := by
    cases rest with
    | nil => rfl
    | cons c rest =>
      have hc : '=' ≠ c := by
        rintro rfl
        exact h rfl
      simp [Pattern.read?, List.isPrefixOf, hc]
  rw [read?_cons, hs]
  simp only [List.findSome?_cons, hn]
  rfl

/-- A dash is not read as one where the name of a variable follows. -/
theorem read?_dash (h : ∀ c cs, rest = '-' :: c :: cs → isNameStart c = false) :
    read? ('-' :: rest) = some (.word .dash ['-'] [], rest) := by
  have hs : Pattern.all.filter (·.starts '-') = [.variableName, .fixed .dash ['-']] := rfl
  have hn : Pattern.variableName.read? ('-' :: rest) = none := by
    unfold Pattern.read?
    split <;> simp_all
  rw [read?_cons, hs]
  simp only [List.findSome?_cons, hn]
  rfl

/-! ### Reading numerals -/

/-- A fraction is cut off where no digit follows; without one, nothing is cut off. -/
theorem cutFraction_append {fraction : List Char} (h : fraction = [] ∨ IsFraction fraction)
    (hr : Stops Char.isDigit rest)
    (hd : fraction = [] → ∀ d cs, rest = '.' :: d :: cs → d.isDigit = false) :
    cutFraction (fraction ++ rest) = (fraction, rest) := by
  rcases h with rfl | ⟨ds, rfl, hne, hds⟩
  · unfold cutFraction
    split
    · rename_i d cs he
      rw [List.nil_append] at he
      rw [hd rfl d cs he, he]
      simp
    · simp
  · cases ds with
    | nil => exact absurd rfl hne
    | cons d ds =>
      have hds' : ∀ c ∈ ds, c.isDigit = true := fun c hc ↦ hds c (List.mem_cons_of_mem d hc)
      simp [cutFraction, hds d (List.mem_cons_self ..), takeWhile_append hds' hr,
        dropWhile_append hds' hr]

/-- The kind of a number tells its unit. -/
theorem cutUnit_append {kind : TokenKind}
    (hk : kind = .number ∨ kind = .pixel ∨ kind = .percentage)
    (hr : kind = .number → (∀ cs, rest ≠ 'p' :: 'x' :: cs) ∧ ∀ cs, rest ≠ '%' :: cs) :
    Pattern.cutUnit (kind.unit ++ rest) = (kind, kind.unit, rest) := by
  rcases hk with rfl | rfl | rfl
  · obtain ⟨hp, hq⟩ := hr rfl
    simp only [TokenKind.unit, List.nil_append]
    unfold Pattern.cutUnit
    split
    · exact absurd rfl (hp _)
    · exact absurd rfl (hq _)
    · rfl
  · rfl
  · rfl

theorem read?_numeral {kind : TokenKind} (hk : kind = .number ∨ kind = .pixel ∨ kind = .percentage)
    {value : List Char} (h : IsNumeral value)
    (hr : kind = .number → TokenKind.NumeralEnds value rest) :
    read? (value ++ (kind.unit ++ rest)) = some (.word kind value kind.unit, rest) := by
  obtain ⟨whole, fraction, rfl, ⟨hne, hw⟩, hf⟩ := h
  obtain ⟨c, whole, rfl⟩ := List.exists_cons_of_ne_nil hne
  have hc : c.isDigit = true := hw c (List.mem_cons_self ..)
  have hw' : ∀ d ∈ whole, d.isDigit = true := fun d hd ↦ hw d (List.mem_cons_of_mem c hd)
  have hunit : Stops Char.isDigit (kind.unit ++ rest) := by
    rcases hk with rfl | rfl | rfl
    · exact (hr rfl).1
    · exact stops_cons.2 rfl
    · exact stops_cons.2 rfl
  have hstop : Stops Char.isDigit (fraction ++ (kind.unit ++ rest)) := by
    rcases hf with rfl | ⟨ds, rfl, -⟩
    · exact hunit
    · exact stops_cons.2 rfl
  -- Without a fraction of its own, the numeral has no point and ends before one.
  have hpoint : fraction = [] → ∀ d cs, kind.unit ++ rest = '.' :: d :: cs → d.isDigit = false := by
    rintro rfl d cs he
    rcases hk with rfl | rfl | rfl
    · refine (hr rfl).2.1.resolve_left (fun hm ↦ ?_) d cs he
      rw [List.append_nil] at hm
      exact absurd (hw '.' hm) (by decide)
    · cases he
    · cases he
  have hs := Pattern.filter_starts_of_isDigit hc
  have hcut := cutUnit_append hk fun hn ↦ ⟨(hr hn).2.2.1, (hr hn).2.2.2⟩
  rw [List.append_assoc, List.cons_append, read?_cons, hs]
  simp only [List.findSome?_cons, Pattern.read?, hc, ↓reduceIte, takeWhile_append hw' hstop,
    dropWhile_append hw' hstop, cutFraction_append hf hunit hpoint, hcut, List.cons_append]

/-! ### Exactly the words -/

/-- A word is read where it ends. -/
theorem read?_word {kind : TokenKind} {value : List Char} (hf : kind.Fits value)
    (he : kind.Ends value rest) :
    read? (value ++ (kind.unit ++ rest)) = some (.word kind value kind.unit, rest) := by
  cases kind with
  | eof => exact hf.elim
  | identifier =>
    have h := read?_name hf.1 he
    rw [hf.2] at h
    exact h
  | ifWord | elseWord | trueWord | falseWord =>
    all_goals
      have h := read?_name (TokenKind.of_reserved?_eq_some hf).1 he
      rw [hf] at h
      exact h
  | variableName =>
    obtain ⟨name, rfl, hn⟩ := hf
    exact read?_variableName hn he
  | hash =>
    obtain ⟨part, rfl, hne, hp⟩ := hf
    exact read?_hash hne hp he
  | number => exact read?_numeral (.inl rfl) hf fun _ ↦ he
  | pixel => exact read?_numeral (.inr (.inl rfl)) hf (by simp)
  | percentage => exact read?_numeral (.inr (.inr rfl)) hf (by simp)
  | colon =>
    obtain rfl := Option.some.inj hf
    exact read?_colon he
  | dash =>
    obtain rfl := Option.some.inj hf
    exact read?_dash he
  | openBracket | closeBracket | openCurly | closeCurly | openParen | closeParen | colonEquals
  | semicolon | comma | dot | plus | star =>
    all_goals
      obtain rfl := Option.some.inj hf
      rfl

/-- What `cutFraction` cuts off is a fraction or nothing, and it is all that can be cut off. -/
theorem cutFraction_cases {cs : List Char} (h : Stops Char.isDigit cs) :
    ((cutFraction cs).1 = [] ∨ IsFraction (cutFraction cs).1) ∧
      Stops Char.isDigit (cutFraction cs).2 ∧
      ('.' ∈ (cutFraction cs).1 ∨
        ∀ d ds, (cutFraction cs).2 = '.' :: d :: ds → d.isDigit = false) := by
  unfold cutFraction
  split
  · rename_i d cs
    split
    · rename_i hd
      refine ⟨.inr ⟨_, rfl, by simp, ?_⟩, stops_dropWhile _ cs, .inl (List.mem_cons_self ..)⟩
      rintro c (_ | ⟨_, hc⟩)
      · exact hd
      · exact List.mem_takeWhile_imp hc
    · rename_i hd
      refine ⟨.inl rfl, h, .inr ?_⟩
      rintro e ds he
      obtain ⟨-, rfl, -⟩ : '.' = '.' ∧ d = e ∧ cs = ds := by simpa using he
      exact Bool.eq_false_iff.2 hd
  · rename_i hne
    exact ⟨.inl rfl, h, .inr fun d ds he ↦ absurd he (hne d ds)⟩

/-- The number at the front of a text is a numeral that ends where it is cut off. -/
theorem numeral_of_cut {c : Char} (hc : c.isDigit = true) (cs : List Char) :
    let fraction := cutFraction (cs.dropWhile Char.isDigit)
    let unit := Pattern.cutUnit fraction.2
    let value := c :: cs.takeWhile Char.isDigit ++ fraction.1
    unit.1.Fits value ∧ unit.2.1 = unit.1.unit ∧ unit.1.Ends value unit.2.2 := by
  intro fraction unit value
  obtain ⟨hf, hstop, hpoint⟩ := cutFraction_cases (stops_dropWhile Char.isDigit cs)
  have hv : IsNumeral value := by
    refine ⟨c :: cs.takeWhile Char.isDigit, fraction.1, rfl, ⟨by simp, ?_⟩, hf⟩
    rintro d (_ | ⟨_, hd⟩)
    · exact hc
    · exact List.mem_takeWhile_imp hd
  have hcut : ∀ rest, Stops Char.isDigit rest →
      ('.' ∈ value ∨ ∀ d ds, rest = '.' :: d :: ds → d.isDigit = false) →
      let unit := Pattern.cutUnit rest
      unit.1.Fits value ∧ unit.2.1 = unit.1.unit ∧ unit.1.Ends value unit.2.2 := by
    intro rest hr hd
    unfold Pattern.cutUnit
    split
    · exact ⟨hv, rfl, trivial⟩
    · exact ⟨hv, rfl, trivial⟩
    · rename_i hp hq
      exact ⟨hv, rfl, hr, hd, fun ds he ↦ hp ds he, fun ds he ↦ hq ds he⟩
  exact hcut fraction.2 hstop (hpoint.imp_left (List.mem_append_right _))

theorem symbol?_of_mem_all {kind : TokenKind} {value : List Char}
    (h : Pattern.fixed kind value ∈ Pattern.all) : kind.symbol? = some value := by
  simp only [Pattern.all, List.mem_cons, reduceCtorEq, Pattern.fixed.injEq, List.not_mem_nil,
    or_false, false_or] at h
  rcases h with h | h | h | h | h | h | h | h | h | h | h | h | h | h <;>
    obtain ⟨rfl, rfl⟩ := h <;> rfl

/-- A sign that is read is not the beginning of a longer word. -/
theorem symbol_of_read? {kind : TokenKind} {cs value : List Char}
    (hs : kind.symbol? = some value) (h : read? cs = some (.word kind value [], rest)) :
    kind.Fits value ∧ [] = kind.unit ∧ kind.Ends value rest := by
  have happ := read?_append h
  rw [text, List.append_nil] at happ
  cases kind with
  | colon =>
    -- Before an equals sign the longer sign would have been read.
    obtain rfl := Option.some.inj hs
    refine ⟨hs, rfl, fun he ↦ ?_⟩
    obtain ⟨ds, rfl⟩ := List.head?_eq_some_iff.1 he
    have hlong : read? (':' :: '=' :: ds) = some (.word .colonEquals [':', '='] [], ds) := rfl
    rw [happ] at h
    cases h.symm.trans hlong
  | dash =>
    -- Before a dash and a name the name of a variable would have been read.
    obtain rfl := Option.some.inj hs
    refine ⟨hs, rfl, fun c ds he ↦ Bool.eq_false_iff.2 fun hc ↦ ?_⟩
    have hn : IsName (c :: ds.takeWhile isNamePart) :=
      ⟨c, _, rfl, hc, fun d hd ↦ List.mem_takeWhile_imp hd⟩
    have hlong := read?_variableName hn (stops_dropWhile isNamePart ds)
    rw [List.cons_append, List.takeWhile_append_dropWhile] at hlong
    rw [happ, he] at h
    cases h.symm.trans hlong
  | openBracket | closeBracket | openCurly | closeCurly | openParen | closeParen | colonEquals
  | semicolon | comma | dot | plus | star => all_goals exact ⟨hs, rfl, trivial⟩
  | eof | identifier | variableName | hash | number | pixel | percentage | ifWord | elseWord
  | trueWord | falseWord => all_goals cases hs

/-- A name fits the kind that it is read as, and ends where no character of a name follows. -/
theorem word_of_name {value : List Char} {kind : TokenKind} (hn : IsName value)
    (hs : Stops isNamePart rest)
    (hk : (TokenKind.reserved? (String.ofList value)).getD .identifier = kind) :
    kind.Fits value ∧ [] = kind.unit ∧ kind.Ends value rest := by
  cases hres : TokenKind.reserved? (String.ofList value) with
  | none =>
    rw [hres] at hk
    obtain rfl := hk
    exact ⟨⟨hn, hres⟩, rfl, hs⟩
  | some word =>
    rw [hres] at hk
    obtain rfl : word = kind := hk
    rcases (TokenKind.of_reserved?_eq_some hres).2 with rfl | rfl | rfl | rfl
    all_goals exact ⟨hres, rfl, hs⟩

/-- A word that is read fits its kind and ends where it does. -/
theorem word_of_read? {kind : TokenKind} {cs value unit : List Char}
    (h : read? cs = some (.word kind value unit, rest)) :
    kind.Fits value ∧ unit = kind.unit ∧ kind.Ends value rest := by
  obtain ⟨p, hp, hr⟩ := List.exists_of_findSome?_eq_some h
  unfold Pattern.read? at hr
  split at hr
  -- Blanks and comments are gaps.
  · split at hr <;> cases hr
  · obtain ⟨_, -, he⟩ := Option.map_eq_some_iff.1 hr
    cases he
  · cases hr
  -- The name of a variable.
  · rename_i c cs
    split at hr
    · rename_i hc
      cases hr
      exact ⟨⟨_, rfl, c, _, rfl, hc, fun d hd ↦ List.mem_takeWhile_imp hd⟩, rfl,
        stops_dropWhile _ cs⟩
    · cases hr
  -- A number with its unit.
  · rename_i c cs
    split at hr
    · rename_i hc
      cases hr
      exact numeral_of_cut hc cs
    · cases hr
  -- A hash.
  · rename_i cs
    split at hr
    · cases hr
    · rename_i hne
      cases hr
      exact ⟨⟨_, rfl, by simpa using hne, fun d hd ↦ List.mem_takeWhile_imp hd⟩, rfl,
        stops_dropWhile _ cs⟩
  -- A name, reserved or not.
  · rename_i c cs
    split at hr
    · rename_i hc
      cases hr
      exact word_of_name ⟨c, _, rfl, hc, fun d hd ↦ List.mem_takeWhile_imp hd⟩
        (stops_dropWhile isNamePart cs) rfl
    · cases hr
  -- A sign.
  · rename_i kind' text
    split at hr
    · obtain ⟨hl, -⟩ := Prod.mk.inj (Option.some.inj hr)
      cases hl
      exact symbol_of_read? (symbol?_of_mem_all hp) h
    · cases hr
  · cases hr

/-- A text begins with a word exactly if the word fits its kind and ends there. -/
theorem read?_word_iff {kind : TokenKind} {cs value unit : List Char} :
    read? cs = some (.word kind value unit, rest) ↔
      cs = value ++ (unit ++ rest) ∧ kind.Fits value ∧ unit = kind.unit ∧ kind.Ends value rest := by
  constructor
  · intro h
    have happ := read?_append h
    rw [text, List.append_assoc] at happ
    exact ⟨happ, word_of_read? h⟩
  · rintro ⟨rfl, hf, rfl, he⟩
    exact read?_word hf he

end Lexeme

end TypedCss

import TypedCss.Proofs.Printing.Parentheses

/-!
# Reading undoes printing

The text of a printable sheet is spelled by the grammar, part by part: selectors, declarations,
rules. So it is read as a sheet, and only spans and diagnostics tell it from the one that was
printed (`Parse.sheet_css`).
-/

namespace TypedCss

open TypedCss.Derivation (Terminal Expression)
open Token (spells_text spells_sign spells_blank spells_blanks spells_flatMap)

/-! ### Selectors -/

/-- A selector is spelled by the grammar. -/
theorem spells_selector {s : Selector} (h : s.IsPrintable) :
    Token.Spells Text.Breaks s.text.toList fun ts ↦
      ∃ x : Derivation.Selector, x.tokens = ts ∧ x.tree = s := by
  cases s with
  | tag name =>
    refine (spells_text (IsIdentifier.fits h) rfl).weaken (fun _ hr ↦ hr) ?_
    rintro _ ⟨t, rfl, rfl⟩
    exact ⟨.tag t, rfl, rfl⟩
  | «class» name =>
    have hdot : TokenKind.dot.symbol? = some ['.'] := rfl
    have htext : (Selector.class name).text.toList = ['.'] ++ name.toList := String.toList_append
    rw [htext]
    refine ((spells_sign hdot).append (spells_text (IsIdentifier.fits h) rfl)
      fun _ _ ↦ trivial).weaken (fun _ hr ↦ hr) ?_
    rintro _ ⟨_, _, rfl, ⟨dot, rfl⟩, t, rfl, rfl⟩
    exact ⟨.class dot t, rfl, rfl⟩
  | id name =>
    obtain ⟨hne, hpart⟩ := h
    have htext : ("#" ++ name).toList = '#' :: name.toList := String.toList_append
    have hfits : TokenKind.hash.Fits ("#" ++ name).toList := ⟨name.toList, htext, hne, hpart⟩
    refine (spells_text hfits rfl).weaken (fun _ hr ↦ hr) ?_
    rintro _ ⟨t, ht, rfl⟩
    refine ⟨.id t, rfl, congrArg Selector.id ?_⟩
    rw [ht, htext, List.dropWhile_cons_of_pos rfl, Text.dropWhile_mark hpart, String.ofList_toList]

/-- A list with something between its members is the first member and the others with it before
them. -/
theorem intercalate_cons {α : Type} (sep x : List α) (xs : List (List α)) :
    sep.intercalate (x :: xs) = x ++ xs.flatMap (sep ++ ·) := by
  induction xs generalizing x with
  | nil => simp
  | cons y ys ih => simp [ih]

/-- The selectors after the first one, with their commas, are spelled by the grammar. -/
theorem spells_moreSelectors {ss : List Selector} (h : ∀ s ∈ ss, s.IsPrintable) :
    Token.Spells Text.Breaks (ss.flatMap fun s ↦ [','] ++ ([' '] ++ s.text.toList)) fun ts ↦
      ∃ xs : List (Terminal .comma × Derivation.Selector),
        Derivation.selectorsTokens xs = ts ∧ xs.map (·.2.tree) = ss.map id := by
  have hcomma : TokenKind.comma.symbol? = some [','] := rfl
  refine spells_flatMap _ _ _ _ (fun s hs ↦ ?_) fun s _ rest ↦ Text.breaks_cons.2 (by decide)
  refine ((spells_sign hcomma).append ((spells_blank (by decide)).append
    (spells_selector (h s hs)) fun _ _ ↦ trivial) fun _ _ ↦ trivial).weaken (fun _ hr ↦ hr) ?_
  rintro _ ⟨_, _, rfl, ⟨comma, rfl⟩, _, _, rfl, rfl, x, rfl, hx⟩
  exact ⟨(comma, x), rfl, hx⟩

/-- Selectors with commas between them are spelled by the grammar. -/
theorem spells_selectors {s : Selector} {ss : List Selector} (h : ∀ t ∈ s :: ss, t.IsPrintable) :
    Token.Spells Text.Breaks (", ".intercalate ((s :: ss).map Selector.text)).toList fun ts ↦
      ∃ (x : Derivation.Selector) (xs : List (Terminal .comma × Derivation.Selector)),
        x.tokens ++ Derivation.selectorsTokens xs = ts ∧
          x.tree :: xs.map (·.2.tree) = s :: ss := by
  have htext : (", ".intercalate ((s :: ss).map Selector.text)).toList =
      s.text.toList ++ ss.flatMap fun t ↦ [','] ++ ([' '] ++ t.text.toList) := by
    rw [String.toList_intercalate, List.map_cons, List.map_cons, intercalate_cons, List.flatMap_map,
      List.flatMap_map]
    rfl
  rw [htext]
  refine ((spells_selector (h s (List.mem_cons_self ..))).append
    (spells_moreSelectors fun t ht ↦ h t (List.mem_cons_of_mem s ht)) fun rest hr ↦ ?_).weaken
    (fun _ hr ↦ hr) ?_
  · cases ss with
    | nil => exact hr
    | cons t ts => exact Text.breaks_cons.2 (by decide)
  · rintro _ ⟨_, _, rfl, ⟨x, rfl, hx⟩, xs, rfl, hxs⟩
    rw [List.map_id] at hxs
    exact ⟨x, xs, rfl, by rw [hx, hxs]⟩

/-! ### Declarations -/

/-- A declaration on its line is spelled by the grammar. -/
theorem spells_declaration {d : Declaration} (h : d.IsPrintable) (indent : Nat) :
    Token.Spells (fun _ ↦ True) (d.css indent).toList fun ts ↦
      ∃ x : Derivation.Declaration, x.tokens = ts ∧ x.tree.shape = d.shape := by
  have hcolon : TokenKind.colon.symbol? = some [':'] := rfl
  have hsemicolon : TokenKind.semicolon.symbol? = some [';'] := rfl
  obtain ⟨hproperty, hvalue⟩ := h
  have hvalue := (Expr.spelled hvalue).2.2
  rw [Expr.SpelledBy, Expr.textAt_of_le d.value.level_pos] at hvalue
  have htext : (d.css indent).toList = List.replicate indent ' ' ++ (d.property.toList ++
      ([':'] ++ ([' '] ++ (d.value.text.toList ++ ([';'] ++ ['\n']))))) := by
    simp [Declaration.css]
  have hindent : ∀ b ∈ List.replicate indent ' ', Text.isBlank b = true := by
    intro b hb
    rw [List.eq_of_mem_replicate hb]
    decide
  rw [htext]
  -- Three parts are words that have to end: the sign after the property is a break, so is the one
  -- after the value, and the colon needs something else than `=` after it.
  refine ((spells_blanks hindent).append ((spells_text hproperty.fits rfl).append
    ((spells_sign hcolon).append ((spells_blank (by decide)).append (Token.Spells.append hvalue
    ((spells_sign hsemicolon).append (spells_blank (by decide)) fun _ _ ↦ trivial)
    fun rest _ ↦ ?_) fun _ _ ↦ trivial) fun rest _ ↦ ?_) fun rest _ ↦ ?_)
    fun _ _ ↦ trivial).weaken (fun _ hr ↦ hr) ?_
  · exact Text.breaks_cons.2 (by decide)
  · exact TokenKind.ends_of_breaks (Text.breaks_cons.2 (by decide))
  · exact Text.breaks_cons.2 (by decide)
  · rintro _ ⟨_, _, rfl, rfl, _, _, rfl, ⟨property, hp, rfl⟩, _, _, rfl, ⟨colon, rfl⟩, _, _, rfl,
      rfl, _, _, rfl, ⟨x, rfl, hx, -⟩, _, _, rfl, ⟨semicolon, rfl⟩, rfl⟩
    refine ⟨⟨property, colon, x, semicolon⟩, by simp [Derivation.Declaration.tokens], ?_⟩
    rw [Derivation.Declaration.tree, Declaration.shape, Declaration.shape, hp, hx]

/-! ### Rules -/

/-- Declarations as the statements of a block. -/
def Derivation.Stmts.ofDeclarations : List Derivation.Declaration → Derivation.Stmts
  | [] => .nil
  | x :: xs => .cons (.declaration x) (ofDeclarations xs)

theorem Derivation.Stmts.tokens_ofDeclarations (xs : List Derivation.Declaration) :
    (Derivation.Stmts.ofDeclarations xs).tokens = xs.flatMap Derivation.Declaration.tokens := by
  induction xs with
  | nil => rfl
  | cons x xs ih => rw [ofDeclarations, tokens, Stmt.tokens, ih, List.flatMap_cons]

theorem Derivation.Stmts.tree_ofDeclarations (xs : List Derivation.Declaration) :
    (Derivation.Stmts.ofDeclarations xs).tree = xs.map fun x ↦ .declaration x.tree := by
  induction xs with
  | nil => rfl
  | cons x xs ih => rw [ofDeclarations, tree, Stmt.tree, ih, List.map_cons]

/-- A list whose members are all of one form is made of what they are made of. -/
theorem exists_map_eq {α β : Type} {form : β → α} (view : α → Option β) {p : β → Prop}
    (hview : ∀ b, view (form b) = some b) {as : List α} (h : ∀ a ∈ as, ∃ b, a = form b ∧ p b) :
    ∃ bs : List β, as = bs.map form ∧ (∀ b ∈ bs, p b) ∧ as.filterMap view = bs := by
  induction as with
  | nil => exact ⟨[], rfl, List.forall_mem_nil _, rfl⟩
  | cons a as ih =>
    obtain ⟨b, rfl, hb⟩ := h a (List.mem_cons_self ..)
    obtain ⟨bs, rfl, hbs, hmap⟩ := ih fun c hc ↦ h c (List.mem_cons_of_mem _ hc)
    refine ⟨b :: bs, rfl, List.forall_mem_cons.2 ⟨hb, hbs⟩, ?_⟩
    rw [List.filterMap_cons, hview, hmap]

/-- A rule is spelled by the grammar. -/
theorem spells_rule {r : Rule} (h : r.IsPrintable) (indent : Nat) :
    Token.Spells (fun _ ↦ True) (r.css indent).toList fun ts ↦
      ∃ x : Derivation.Rule, x.tokens = ts ∧ x.tree.shape = r.shape := by
  obtain ⟨selectors, body, info⟩ := r
  obtain ⟨hne, hselectors, hbody⟩ := h
  obtain ⟨s, ss, rfl⟩ := List.exists_cons_of_ne_nil hne
  obtain ⟨ds, rfl, hds, hmap⟩ := exists_map_eq Stmt.declaration? (fun _ ↦ rfl)
    fun s hs ↦ (hbody s hs).exists_eq
  have hopen : TokenKind.openCurly.symbol? = some ['\x7b'] := rfl
  have hclose : TokenKind.closeCurly.symbol? = some ['\x7d'] := rfl
  have hbody : Token.Spells (fun _ ↦ True) (ds.flatMap fun d ↦ (d.css indent).toList) fun ts ↦
      ∃ xs : List Derivation.Declaration, xs.flatMap Derivation.Declaration.tokens = ts ∧
        xs.map (·.tree.shape) = ds.map Declaration.shape :=
    spells_flatMap _ _ _ _ (fun d hd ↦ spells_declaration (hds d hd) indent) fun _ _ _ ↦ trivial
  have htext : (Rule.css indent ⟨s :: ss, ds.map .declaration, info⟩).toList =
      (", ".intercalate ((s :: ss).map Selector.text)).toList ++ ([' '] ++ (['\x7b'] ++
        (['\n'] ++ ((ds.flatMap fun d ↦ (d.css indent).toList) ++ (['\x7d'] ++ ['\n']))))) := by
    rw [Rule.css, Rule.declarations, hmap]
    simp only [String.toList_append, String.toList_join, List.flatMap_map, List.append_assoc]
    rfl
  rw [htext]
  refine ((spells_selectors hselectors).append ((spells_blank (by decide)).append
    ((spells_sign hopen).append ((spells_blank (by decide)).append (hbody.append
    ((spells_sign hclose).append (spells_blank (by decide)) fun _ _ ↦ trivial)
    fun _ _ ↦ trivial) fun _ _ ↦ trivial) fun _ _ ↦ trivial) fun _ _ ↦ trivial)
    fun rest _ ↦ Text.breaks_cons.2 (by decide)).weaken (fun _ hr ↦ hr) ?_
  rintro _ ⟨_, _, rfl, ⟨x, xs, rfl, hx⟩, _, _, rfl, rfl, _, _, rfl, ⟨opening, rfl⟩, _, _, rfl, rfl,
    _, _, rfl, ⟨ys, rfl, hys⟩, _, _, rfl, ⟨closing, rfl⟩, rfl⟩
  refine ⟨⟨x, xs, .mk opening (.ofDeclarations ys) closing⟩, ?_, ?_⟩
  · simp [Derivation.Rule.tokens, Derivation.Block.tokens,
      Derivation.Stmts.tokens_ofDeclarations]
  · have hbody : Stmt.listShape (Derivation.Stmts.ofDeclarations ys).tree =
        Stmt.listShape (ds.map .declaration) := by
      rw [Derivation.Stmts.tree_ofDeclarations, Stmt.listShape_eq_map, Stmt.listShape_eq_map,
        List.map_map, List.map_map]
      have hstmts := congrArg (List.map Stmt.declaration) hys
      rwa [List.map_map, List.map_map] at hstmts
    rw [Derivation.Rule.tree, Derivation.Block.tree, Rule.shape, Rule.shape, hx, hbody]

/-! ### Sheets -/

/-- A sheet is spelled by the grammar. -/
theorem spells_sheet {s : Sheet} (h : s.IsPrintable) (indent : Nat) :
    Token.Spells (fun _ ↦ True) (s.css indent).toList fun ts ↦
      ∃ x : Derivation.Sheet, x.tokens = ts ∧ x.map (·.tree.shape) = s.items.map Item.shape := by
  obtain ⟨items, info⟩ := s
  obtain ⟨rs, rfl, hrs, hmap⟩ := exists_map_eq Item.rule? (fun _ ↦ rfl)
    fun i hi ↦ (h i hi).exists_eq
  have htext : (Sheet.css indent ⟨rs.map .rule, info⟩).toList =
      rs.flatMap fun r ↦ (r.css indent).toList := by
    rw [Sheet.css, Sheet.rules, hmap, String.toList_join, List.flatMap_map]
  rw [htext]
  have hrules : Token.Spells (fun _ ↦ True) (rs.flatMap fun r ↦ (r.css indent).toList) fun ts ↦
      ∃ xs : List Derivation.Item, xs.flatMap Derivation.Item.tokens = ts ∧
        xs.map (·.tree.shape) = rs.map fun r ↦ Item.rule r.shape := by
    refine spells_flatMap _ _ _ _ (fun r hr ↦ ?_) fun _ _ _ ↦ trivial
    refine (spells_rule (hrs r hr) indent).weaken (fun _ hr ↦ hr) ?_
    rintro _ ⟨x, rfl, hx⟩
    exact ⟨.rule x, rfl, congrArg Item.rule hx⟩
  refine hrules.weaken (fun _ hr ↦ hr) ?_
  rintro _ ⟨xs, rfl, hxs⟩
  exact ⟨xs, rfl, by rw [hxs, List.map_map]; rfl⟩

namespace Parse

/-- The text of a printable sheet is read as that sheet. -/
theorem exists_sheet_css {s : Sheet} (h : s.IsPrintable) (indent : Nat) (file : String) :
    ∃ s', Parse.sheet (s.css indent) file = .ok s' ∧ s'.shape = s.shape := by
  obtain ⟨_, last, ⟨x, rfl, hx⟩, hlast, hwords, ht⟩ := (spells_sheet h indent).tokenize trivial
  -- The tokens derive from the grammar, so what is read is the meaning of that derivation.
  refine ⟨x.tree file, ?_, ?_⟩
  · rw [Parse.sheet, ht]
    exact (Grammar.sheet_eq_ok_iff hwords hlast).2 ⟨x, rfl, rfl⟩
  · rw [Derivation.Sheet.tree, Sheet.shape, Sheet.shape, ← hx, List.map_map]
    rfl

/-- The values of a printable sheet are printable. -/
theorem isPrintable_value {s : Sheet} (h : s.IsPrintable) {r : Rule} (hr : r ∈ s.rules)
    {d : Declaration} (hd : d ∈ r.declarations) : d.value.IsPrintable := by
  obtain ⟨i, hi, hir⟩ := List.mem_filterMap.1 hr
  obtain ⟨r', rfl, -, -, hbody⟩ := (h i hi).exists_eq
  obtain rfl := Option.some.inj hir
  obtain ⟨t, ht, htd⟩ := List.mem_filterMap.1 hd
  obtain ⟨d', rfl, -, hvalue⟩ := (hbody t ht).exists_eq
  obtain rfl := Option.some.inj htd
  exact hvalue

/-- Printing a sheet and reading its text gives the sheet back, but for spans and diagnostics, and
each of its values is printed with exactly the parentheses that it needs. -/
theorem sheet_css {s : Sheet} (h : s.IsPrintable) (indent : Nat) (file : String) :
    (∃ s', Parse.sheet (s.css indent) file = .ok s' ∧ s'.shape = s.shape) ∧
      ∀ r ∈ s.rules, ∀ d ∈ r.declarations, EnclosedExactly d.value file :=
  ⟨exists_sheet_css h indent file, fun _ hr _ hd ↦
    enclosedExactly_of_isPrintable (isPrintable_value h hr hd) file⟩

end Parse

/-- A sheet with a value that needs parentheses, one pair inside another. -/
def nestedSheet : Sheet :=
  let sum := Expr.operation .add [.literal (.scalar 2) .null, .reference "c-1" .null] .null
  let difference := Expr.operation .subtract [.reference "--x" .null, sum] .null
  let product := Expr.operation .multiply [difference, .literal (.percentage 0.1) .null] .null
  ⟨[.rule ⟨[.tag "a", .class "b", .id "0-c"], [.declaration ⟨"width", product, .null⟩,
    .declaration ⟨"color", .literal (.color "#0aF") .null, .null⟩], .null⟩], .null⟩

/-- A value with two pairs of parentheses is read back, and needs both of them. -/
theorem sheet_css_nested : nestedSheet.IsPrintable ∧
    (∃ s', Parse.sheet (nestedSheet.css 4) "s" = .ok s' ∧ s'.shape = nestedSheet.shape) ∧
      ∀ r ∈ nestedSheet.rules, ∀ d ∈ r.declarations, Parse.EnclosedExactly d.value "s" :=
  have h : nestedSheet.IsPrintable := by decide
  ⟨h, Parse.sheet_css h 4 "s"⟩

end TypedCss

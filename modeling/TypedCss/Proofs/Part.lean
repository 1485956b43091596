import TypedCss.Grammar.Expr
import TypedCss.Proofs.Row
import TypedCss.Proofs.Token.Tiling
import TypedCss.Proofs.Tree

/-!
# The parts of a sheet and the text at their spans

A `Part` is a node of a tree: the sheet itself, an item, a statement, an else branch or an
expression. Each has a span and its parts in turn, in the order of the text (`Part.children`);
`Part.Contains` goes on from them to parts at any depth, and no node of a sheet is left out
(`Part.carries_of_mem_sheet`).

`Part.WellPlaced` says what a part's span has to do with the text that the sheet was read from: it
covers the spans of its children, which are not empty and do not overlap, and the text at it is the
one that such a part has (`Part.Reads`). Parts that are well placed throughout stand in rows
(`PlacedRow`), as the tokens of a text do (`TokenRow`).
-/

namespace TypedCss

/-! ### Parts -/

/-- A node of a tree. -/
inductive Part where
  /-- A whole sheet. -/
  | sheet (s : Sheet)
  /-- A rule. -/
  | rule (r : Rule)
  /-- A declaration. -/
  | declaration (d : Declaration)
  /-- An assignment, in a sheet or in a body. -/
  | assignment (a : Assignment)
  /-- A conditional. -/
  | conditional (guard : Expr) (body : List Stmt) (otherwise : ElseBranch) (info : Info)
  /-- The else branch of a conditional. -/
  | elseBranch (body : List Stmt) (info : Info)
  /-- An expression. -/
  | expr (e : Expr)

namespace Part

/-- A statement as a part. -/
def ofStmt : Stmt → Part
  | .declaration d => declaration d
  | .assignment a => assignment a
  | .conditional guard body otherwise info => conditional guard body otherwise info

/-- The part that an else branch is, if it is there. -/
def ofElse : ElseBranch → List Part
  | .absent => []
  | .present body info => [elseBranch body info]

/-- An item as a part. -/
def ofItem : Item → Part
  | .assignment a => assignment a
  | .rule r => rule r

/-- What a part carries. -/
def info : Part → Info
  | sheet s => s.info
  | rule r => r.info
  | declaration d => d.info
  | assignment a => a.info
  | conditional _ _ _ i | elseBranch _ i => i
  | expr e => e.info

/-- The parts that a part is made of, in the order of the text. -/
def children : Part → List Part
  | sheet s => s.items.map ofItem
  | rule r => r.body.map ofStmt
  | declaration d => [expr d.value]
  | assignment a => [expr a.value]
  | conditional guard body otherwise _ => expr guard :: (body.map ofStmt ++ ofElse otherwise)
  | elseBranch body _ => body.map ofStmt
  | expr e => e.operands.map expr

/-- `p.Contains q` says that `q` is `p` or a part of it, at any depth. -/
inductive Contains : Part → Part → Prop where
  | refl (p : Part) : Contains p p
  | child {p q r : Part} (hq : q ∈ p.children) (h : Contains q r) : Contains p r

/-- The offset where a part starts. -/
def start (p : Part) : Nat := p.info.span.start.offset.toNat

/-- The offset where a part stops. -/
def stop (p : Part) : Nat := p.info.span.stop.offset.toNat

/-! ### All nodes are parts -/

/-- `p.Carries i` says that `p` or a part of it carries `i`. -/
def Carries (p : Part) (i : Info) : Prop := ∃ q, p.Contains q ∧ q.info = i

theorem carries_info (p : Part) : p.Carries p.info := ⟨p, .refl p, rfl⟩

theorem Carries.of_child {p q : Part} {i : Info} (hq : q ∈ p.children) (h : q.Carries i) :
    p.Carries i := by
  obtain ⟨r, hr, rfl⟩ := h
  exact ⟨r, .child hq hr, rfl⟩

mutual

theorem carries_of_mem_infos (e : Expr) : ∀ i ∈ e.infos, (expr e).Carries i := by
  match e with
  | .literal v info | .reference name info =>
    all_goals
      intro i hi
      obtain rfl := List.mem_singleton.1 hi
      exact carries_info _
  | .operation op es info =>
    intro i hi
    rcases List.mem_cons.1 hi with rfl | hi
    · exact carries_info (expr (.operation op es _))
    · obtain ⟨e, he, h⟩ := exists_carries_of_mem_listInfos es i hi
      exact .of_child (List.mem_map_of_mem he) h

theorem exists_carries_of_mem_listInfos (es : List Expr) :
    ∀ i ∈ Expr.listInfos es, ∃ e ∈ es, (expr e).Carries i := by
  match es with
  | [] => exact List.forall_mem_nil _
  | e :: es =>
    intro i hi
    rcases List.mem_append.1 hi with hi | hi
    · exact ⟨e, List.mem_cons_self .., carries_of_mem_infos e i hi⟩
    · obtain ⟨f, hf, h⟩ := exists_carries_of_mem_listInfos es i hi
      exact ⟨f, List.mem_cons_of_mem _ hf, h⟩

end

theorem carries_of_mem_declaration (d : Declaration) :
    ∀ i ∈ d.infos, (declaration d).Carries i := by
  intro i hi
  rcases List.mem_cons.1 hi with rfl | hi
  · exact carries_info (declaration d)
  · exact .of_child (List.mem_singleton_self _) (carries_of_mem_infos d.value i hi)

theorem carries_of_mem_assignment (a : Assignment) : ∀ i ∈ a.infos, (assignment a).Carries i := by
  intro i hi
  rcases List.mem_cons.1 hi with rfl | hi
  · exact carries_info (assignment a)
  · exact .of_child (List.mem_singleton_self _) (carries_of_mem_infos a.value i hi)

/-- A part carries what one of its children does. -/
theorem Carries.of_exists {p : Part} {children : List Part} {i : Info}
    (hsub : children ⊆ p.children) (h : ∃ q ∈ children, q.Carries i) : p.Carries i := by
  obtain ⟨q, hq, h⟩ := h
  exact .of_child (hsub hq) h

theorem exists_carries_of_mem_body (body : List Stmt) :
    ∀ i ∈ Body.infos body, ∃ p ∈ body.map ofStmt, p.Carries i := by
  -- What is carried is found in the first statement or in those after it.
  have step {s : Stmt} {rest : List Stmt} (hs : ∀ i ∈ s.infos, (ofStmt s).Carries i)
      (ih : ∀ i ∈ Body.infos rest, ∃ p ∈ rest.map ofStmt, p.Carries i) :
      ∀ i ∈ Body.infos (s :: rest), ∃ p ∈ (s :: rest).map ofStmt, p.Carries i := by
    intro i hi
    rcases List.mem_append.1 hi with hi | hi
    · exact ⟨_, List.mem_cons_self .., hs i hi⟩
    · obtain ⟨p, hp, h⟩ := ih i hi
      exact ⟨p, List.mem_cons_of_mem _ hp, h⟩
  induction body using Body.induction with
  | nil => exact List.forall_mem_nil _
  | declaration d rest ih => exact step (carries_of_mem_declaration d) ih
  | assignment a rest ih => exact step (carries_of_mem_assignment a) ih
  | conditional guard body otherwise info rest hb he ih =>
    refine step (fun i hi ↦ ?_) ih
    simp only [Stmt.infos, List.mem_cons, List.mem_append] at hi
    rcases hi with rfl | (hi | hi) | hi
    · exact carries_info (conditional guard body otherwise _)
    · exact .of_child (List.mem_cons_self ..) (carries_of_mem_infos guard i hi)
    · exact .of_exists (fun p hp ↦ List.mem_cons_of_mem _ (List.mem_append_left _ hp)) (hb i hi)
    · cases otherwise with
      | absent => cases hi
      | present body' info' =>
        refine .of_child (List.mem_cons_of_mem _ (List.mem_append_right _
          (List.mem_singleton_self (elseBranch body' info')))) ?_
        rcases List.mem_cons.1 hi with rfl | hi
        · exact carries_info (elseBranch body' _)
        · exact .of_exists (List.Subset.refl _) (he i hi)

/-- Every node of a sheet is a part of it. -/
theorem carries_of_mem_sheet (s : Sheet) : ∀ i ∈ s.infos, (sheet s).Carries i := by
  intro i hi
  rcases List.mem_cons.1 hi with rfl | hi
  · exact carries_info (sheet s)
  · obtain ⟨item, hitem, hi⟩ := List.mem_flatMap.1 hi
    refine .of_child (List.mem_map_of_mem hitem) ?_
    cases item with
    | assignment a => exact carries_of_mem_assignment a i hi
    | rule r =>
      rcases List.mem_cons.1 hi with rfl | hi
      · exact carries_info (rule r)
      · exact .of_exists (List.Subset.refl _) (exists_carries_of_mem_body r.body i hi)

/-! ### Texts of parts -/

/-- Whether a text can be that of a part which was read from the given tokens: how it begins and
ends, and for a value or a variable what it is. -/
def Reads (tokens : List Token) (text : List Char) : Part → Prop
  | sheet _ => True
  | rule _ => ['\x7d'] <:+ text
  | declaration d => d.property.toList <+: text ∧ [';'] <:+ text
  | assignment a => a.name.toList <+: text ∧ [';'] <:+ text
  | conditional .. => ['i', 'f'] <+: text ∧ ['\x7d'] <:+ text
  | elseBranch .. => ['e', 'l', 's', 'e'] <+: text ∧ ['\x7d'] <:+ text
  | expr (.operation ..) => True
  | expr e => ∃ t ∈ tokens, Grammar.operandOf? t = some (.ok e) ∧
      text = t.value.toList ++ t.kind.unit

/-- `p.WellPlaced c tokens` says that the span of `p` covers the spans of its children, which do not
overlap, and that the text at it, where `c` reads and `tokens` were found, is the one of such a
part. -/
structure WellPlaced (c : TextCursor) (tokens : List Token) (p : Part) : Prop where
  /-- A part stands in the file of the text. -/
  file_eq : p.info.span.start.file = c.file ∧ p.info.span.stop.file = c.file
  /-- No child is empty, and each stands within its parent. -/
  inside : ∀ q ∈ p.children, p.start ≤ q.start ∧ q.start < q.stop ∧ q.stop ≤ p.stop
  /-- Children do not overlap, and a later one stands further on. -/
  ordered : p.children.Pairwise fun q r ↦ q.stop ≤ r.start
  /-- The text at the span. -/
  reads : ∃ text rest, c.HasPart p.start p.stop text rest ∧ p.Reads tokens text

end Part

/-! ### Parts of a text -/

/-- The shorter one of two beginnings of a text is a beginning of the longer one. -/
theorem Text.prefix_of_byteLength_le {xs ys cs : List Char} (hx : xs <+: cs) (hy : ys <+: cs)
    (h : byteLength xs ≤ byteLength ys) : xs <+: ys := by
  refine (List.prefix_or_prefix_of_prefix hx hy).elim id ?_
  rintro ⟨zs, rfl⟩
  obtain rfl : zs = [] := by
    by_contra hne
    have := byteLength_pos hne
    rw [byteLength_append] at h
    omega
  exact ⟨[], by simp⟩

/-- From the start of one part of a text to the stop of another one further on, the text begins with
the first and ends with the second. -/
theorem TextCursor.HasPart.join {c : TextCursor} {xs ys rest rest' : List Char}
    {a b a' b' : Nat} (h : c.HasPart a b xs rest) (h' : c.HasPart a' b' ys rest') (ha : a ≤ a')
    (hb : b ≤ b') : ∃ text, c.HasPart a b' text rest' ∧ xs <+: text ∧ ys <:+ text := by
  obtain ⟨before, hc, rfl, rfl⟩ := h
  obtain ⟨before', hc', rfl, rfl⟩ := h'
  rw [← List.append_assoc] at hc hc'
  have hx : before ++ xs <+: c.ahead := ⟨rest, hc.symm⟩
  have hy : before' ++ ys <+: c.ahead := ⟨rest', hc'.symm⟩
  obtain ⟨between, rfl⟩ : before <+: before' :=
    Text.prefix_of_byteLength_le ((List.prefix_append ..).trans hx)
      ((List.prefix_append ..).trans hy) (by omega)
  have hxy : before ++ xs <+: before ++ (between ++ ys) := by
    rw [← List.append_assoc]
    refine Text.prefix_of_byteLength_le hx hy ?_
    simp only [Text.byteLength_append] at hb ⊢
    omega
  refine ⟨between ++ ys, ⟨before, ?_, rfl, ?_⟩, (List.prefix_append_right_inj before).1 hxy,
    List.suffix_append ..⟩
  · rw [hc', List.append_assoc, List.append_assoc, List.append_assoc]
  · simp only [Text.byteLength_append]
    omega

/-! ### Rows of tokens and of parts -/

section

variable (c : TextCursor) (words : List Token)

/-- `Shows c words t` says that `t` is one of `words` and stands in the text with its value and the
unit of its kind. -/
structure TextCursor.Shows (t : Token) : Prop where
  /-- It is one of the words. -/
  mem : t ∈ words
  /-- It stands in the file of the text. -/
  file_eq : t.span.start.file = c.file ∧ t.span.stop.file = c.file
  /-- Its value is one that its kind can have. -/
  fits : t.kind.Fits t.value.toList
  /-- It stands where its span is. -/
  part : ∃ rest, c.HasPart t.start t.stop (t.value.toList ++ t.kind.unit) rest

/-- Tokens that stand in a row in the text. -/
abbrev TokenRow : Nat → List Token → Nat → Prop := InRow Token.start Token.stop (c.Shows words)

/-- Parts that stand in a row in the text and are well placed throughout. -/
abbrev PlacedRow : Nat → List Part → Nat → Prop :=
  InRow Part.start Part.stop fun p ↦ ∀ q, p.Contains q → q.WellPlaced c words

end

variable {c : TextCursor} {words : List Token} {lo hi : Nat}

/-- The words of a tiled text stand in a row. -/
theorem TextCursor.Tiled.row {last : Token} (h : c.Tiled words last) :
    TokenRow c words c.offset words (c.offset + Text.byteLength c.ahead) := by
  refine .of_pairwise (Nat.le_add_right ..) (fun t ht ↦ ?_) h.ordered
  obtain ⟨rest, hpart⟩ := h.part t ht
  exact ⟨hpart.le.1, h.start_lt_stop t ht, h.stop_le ht,
    ⟨ht, h.file_eq t ht, (h.fits t ht).2, rest, hpart⟩⟩

namespace Part

/-- A part is well placed throughout if its children are, and stand in a row in it. -/
theorem wellPlaced_of_children {p : Part}
    (hfile : p.info.span.start.file = c.file ∧ p.info.span.stop.file = c.file)
    (hrow : PlacedRow c words p.start p.children p.stop)
    (hreads : ∃ text rest, c.HasPart p.start p.stop text rest ∧ p.Reads words text) :
    ∀ q, p.Contains q → q.WellPlaced c words := by
  intro q hq
  cases hq with
  | refl =>
    refine ⟨hfile, fun r hr ↦ ?_, hrow.pairwise, hreads⟩
    obtain ⟨hlo, hne, hhi, -⟩ := hrow.forall_mem r hr
    exact ⟨hlo, hne, hhi⟩
  | child hr h => exact (hrow.forall_mem _ hr).2.2.2 q h

/-- A part that goes from the start of one token to the stop of another one further on is well
placed if its children stand in a row in it, and if its text may be any that begins and ends as the
tokens do. -/
theorem row_of_ends {p : Part} {t u : Token} {before after : Nat}
    (ht : TokenRow c words lo [t] before) (hu : TokenRow c words after [u] hi)
    (hspan : p.info.span = ⟨t.span.start, u.span.stop⟩)
    (hrow : PlacedRow c words before p.children u.stop) (hle : before ≤ after)
    (hreads : ∀ text, t.value.toList ++ t.kind.unit <+: text →
      u.value.toList ++ u.kind.unit <:+ text → p.Reads words text) :
    PlacedRow c words lo [p] hi := by
  obtain ⟨hlo, htne, hbefore, ht⟩ := InRow.singleton_iff.1 ht
  obtain ⟨hafter, hune, hhi, hu⟩ := InRow.singleton_iff.1 hu
  have hstart : p.start = t.start := by rw [start, hspan, Token.start]
  have hstop : p.stop = u.stop := by rw [stop, hspan, Token.stop]
  refine InRow.singleton_iff.2 ⟨by omega, by omega, by omega, wellPlaced_of_children ?_ ?_ ?_⟩
  · rw [hspan]
    exact ⟨ht.file_eq.1, hu.file_eq.2⟩
  · exact hrow.mono (by omega) (by omega)
  · obtain ⟨rest, ht⟩ := ht.part
    obtain ⟨rest', hu⟩ := hu.part
    obtain ⟨text, htext, hprefix, hsuffix⟩ := ht.join hu (by omega) (by omega)
    refine ⟨text, rest', ?_, hreads text hprefix hsuffix⟩
    rw [hstart, hstop]
    exact htext

end Part

end TypedCss

import Mathlib.Data.List.Basic
import TypedCss.Css
import TypedCss.Proofs.Shape
import TypedCss.Proofs.Tree
import TypedCss.Token

/-!
# The same tree at other places

`relabel f` applies `f` to what each node of a tree carries and leaves the tree as it is. The shape
of a tree is the relabeling that forgets everything (`Sheet.shape_eq_relabel`); another one moves
all positions (`Info.move`), as a text is moved that something is put before.

What is written of a tree does not depend on it (`Sheet.css_relabel`).
-/

namespace TypedCss

/-! ### Moving positions -/

/-- What becomes of the positions where something starts, and of those where something stops. -/
structure Relocation where
  /-- Where that starts now which started at a position. -/
  start : Position → Position
  /-- Where that stops now which stopped at a position. -/
  stop : Position → Position

/-- The relocation of what stands `n` bytes further on in its file. -/
def Relocation.shift (n : Nat) : Relocation where
  start p := ⟨p.offset + UInt32.ofNat n, p.file⟩
  stop p := ⟨p.offset + UInt32.ofNat n, p.file⟩

/-- A moved span. -/
def Span.move (r : Relocation) (s : Span) : Span := ⟨r.start s.start, r.stop s.stop⟩

/-- An error at another place. -/
def Error.move (p : Position → Position) (e : Error) : Error := ⟨e.cause, p e.position⟩

/-- What a moved node carries. -/
def Info.move (r : Relocation) (i : Info) : Info :=
  ⟨i.span.move r, i.diagnostics.map (Error.move r.start)⟩

/-- A moved token. -/
def Token.move (r : Relocation) (t : Token) : Token := ⟨t.kind, t.value, t.span.move r⟩

@[simp] theorem Token.kind_move (r : Relocation) (t : Token) : (t.move r).kind = t.kind := rfl

@[simp] theorem Token.value_move (r : Relocation) (t : Token) : (t.move r).value = t.value := rfl

/-- `f` sends a node's start where `p` does, and it does not let the node's diagnostics decide what
becomes of its span. -/
structure Info.Relabels (p : Position → Position) (f : Info → Info) : Prop where
  /-- The start is moved. -/
  start : ∀ i, (f i).start = p i.start
  /-- The span is the same without the diagnostics. -/
  bare : ∀ i, (f i).bare = f i.bare

/-- A move of positions moves where the nodes start, and their diagnostics with them. -/
theorem Info.relabels_move (r : Relocation) : Info.Relabels r.start (Info.move r) :=
  ⟨fun _ ↦ rfl, fun _ ↦ rfl⟩

/-! ### Relabeling trees -/

section

variable (f : Info → Info)

mutual

/-- An expression with its nodes relabeled. -/
def Expr.relabel : Expr → Expr
  | .literal v i => .literal v (f i)
  | .reference name i => .reference name (f i)
  | .operation op es i => .operation op (Expr.listRelabel es) (f i)

/-- Several expressions with their nodes relabeled. -/
def Expr.listRelabel : List Expr → List Expr
  | [] => []
  | e :: es => e.relabel :: Expr.listRelabel es

end

/-- A declaration with its nodes relabeled. -/
def Declaration.relabel (d : Declaration) : Declaration :=
  ⟨d.property, d.value.relabel f, f d.info⟩

/-- An assignment with its nodes relabeled. -/
def Assignment.relabel (a : Assignment) : Assignment := ⟨a.name, a.value.relabel f, f a.info⟩

mutual

/-- A statement with its nodes relabeled. -/
def Stmt.relabel : Stmt → Stmt
  | .declaration d => .declaration (d.relabel f)
  | .assignment a => .assignment (a.relabel f)
  | .conditional guard body otherwise i =>
    .conditional (guard.relabel f) (Body.relabel body) otherwise.relabel (f i)

/-- A body with its nodes relabeled. -/
def Body.relabel : List Stmt → List Stmt
  | [] => []
  | s :: rest => s.relabel :: Body.relabel rest

/-- An else branch with its nodes relabeled. -/
def ElseBranch.relabel : ElseBranch → ElseBranch
  | .absent => .absent
  | .present body i => .present (Body.relabel body) (f i)

end

/-- A rule with its nodes relabeled. -/
def Rule.relabel (r : Rule) : Rule := ⟨r.selectors, Body.relabel f r.body, f r.info⟩

/-- An item with its nodes relabeled. -/
def Item.relabel : Item → Item
  | .assignment a => .assignment (a.relabel f)
  | .rule r => .rule (r.relabel f)

/-- A sheet with its nodes relabeled. -/
def Sheet.relabel (s : Sheet) : Sheet := ⟨s.items.map (Item.relabel f), f s.info⟩

/-! ### Small lemmas -/

@[simp] theorem Expr.info_relabel (e : Expr) : (e.relabel f).info = f e.info := by
  cases e <;> rfl

@[simp] theorem Expr.length_listRelabel (es : List Expr) :
    (Expr.listRelabel f es).length = es.length := by
  induction es with
  | nil => rfl
  | cons e es ih => rw [listRelabel, List.length_cons, ih, List.length_cons]

theorem Body.relabel_eq_map (body : List Stmt) :
    Body.relabel f body = body.map (Stmt.relabel f) := by
  induction body with
  | nil => rfl
  | cons s rest ih => rw [relabel, ih, List.map_cons]

@[simp] theorem ElseBranch.body_relabel (e : ElseBranch) :
    (e.relabel f).body = Body.relabel f e.body := by
  cases e <;> rfl

/-! ### Nodes -/

mutual

/-- The nodes of a relabeled tree carry what `f` makes of what those of the tree carry. -/
theorem Expr.infos_relabel : ∀ e : Expr, (e.relabel f).infos = e.infos.map f
  | .literal _ _ | .reference _ _ => rfl
  | .operation _ es i => congrArg (f i :: ·) (Expr.listInfos_relabel es)

theorem Expr.listInfos_relabel :
    ∀ es : List Expr, Expr.listInfos (Expr.listRelabel f es) = (Expr.listInfos es).map f
  | [] => rfl
  | e :: es => by
    rw [Expr.listRelabel, Expr.listInfos, Expr.listInfos, List.map_append, Expr.infos_relabel e,
      Expr.listInfos_relabel es]

end

theorem Body.infos_relabel (body : List Stmt) :
    Body.infos (Body.relabel f body) = (Body.infos body).map f := by
  induction body using Body.induction with
  | nil => rfl
  | declaration d rest ih =>
    rw [relabel, Stmt.relabel, infos, infos, List.map_append, ih]
    exact congrArg (f d.info :: · ++ _) (d.value.infos_relabel f)
  | assignment a rest ih =>
    rw [relabel, Stmt.relabel, infos, infos, List.map_append, ih]
    exact congrArg (f a.info :: · ++ _) (a.value.infos_relabel f)
  | conditional guard body otherwise info rest ihBody ihElse ihRest =>
    have helse : (otherwise.relabel f).infos = otherwise.infos.map f := by
      cases otherwise with
      | absent => rfl
      | present branch i => exact congrArg (f i :: ·) ihElse
    rw [relabel, Stmt.relabel, infos, infos, Stmt.infos, Stmt.infos, Expr.infos_relabel, ihBody,
      helse, ihRest]
    simp only [List.map_append, List.map_cons]

theorem Item.infos_relabel (i : Item) : (i.relabel f).infos = i.infos.map f := by
  cases i with
  | assignment a => exact congrArg (f a.info :: ·) (a.value.infos_relabel f)
  | rule r => exact congrArg (f r.info :: ·) (Body.infos_relabel f r.body)

/-- The nodes of a relabeled sheet, in the same order. -/
theorem Sheet.infos_relabel (s : Sheet) : (s.relabel f).infos = s.infos.map f := by
  rw [infos, infos, relabel, List.flatMap_map, List.map_cons, List.map_flatMap]
  exact congrArg (f s.info :: ·) (congrArg (List.flatMap · s.items)
    (funext (Item.infos_relabel f)))

end

/-! ### Shapes -/

mutual

/-- The shape of an expression is the relabeling that forgets everything. -/
theorem Expr.shape_eq_relabel : ∀ e : Expr, e.shape = e.relabel fun _ ↦ .null
  | .literal _ _ | .reference _ _ => rfl
  | .operation op es _ => congrArg (Expr.operation op · .null) (Expr.listShape_eq_relabel es)

theorem Expr.listShape_eq_relabel :
    ∀ es : List Expr, Expr.listShape es = Expr.listRelabel (fun _ ↦ .null) es
  | [] => rfl
  | e :: es => congrArg₂ List.cons (Expr.shape_eq_relabel e) (Expr.listShape_eq_relabel es)

end

theorem Declaration.shape_eq_relabel (d : Declaration) : d.shape = d.relabel fun _ ↦ .null :=
  congrArg (Declaration.mk d.property · .null) d.value.shape_eq_relabel

theorem Assignment.shape_eq_relabel (a : Assignment) : a.shape = a.relabel fun _ ↦ .null :=
  congrArg (Assignment.mk a.name · .null) a.value.shape_eq_relabel

/-- So is the shape of a body. -/
theorem Body.shape_eq_relabel (body : List Stmt) :
    Stmt.listShape body = Body.relabel (fun _ ↦ .null) body := by
  induction body using Body.induction with
  | nil => rfl
  | declaration d rest ih =>
    exact congrArg₂ (Stmt.declaration · :: ·) d.shape_eq_relabel ih
  | assignment a rest ih =>
    exact congrArg₂ (Stmt.assignment · :: ·) a.shape_eq_relabel ih
  | conditional guard body otherwise info rest ihBody ihElse ihRest =>
    have helse : otherwise.shape = otherwise.relabel fun _ ↦ .null := by
      cases otherwise with
      | absent => rfl
      | present branch i => exact congrArg (ElseBranch.present · .null) ihElse
    rw [Stmt.listShape, Stmt.shape, relabel, Stmt.relabel, guard.shape_eq_relabel, ihBody, helse,
      ihRest]

/-- So is the shape of an item. -/
theorem Item.shape_eq_relabel (i : Item) : i.shape = i.relabel fun _ ↦ .null := by
  cases i with
  | assignment a => exact congrArg Item.assignment a.shape_eq_relabel
  | rule r =>
    exact congrArg (fun body ↦ Item.rule ⟨r.selectors, body, .null⟩)
      (Body.shape_eq_relabel r.body)

/-- The shape is what is left of a sheet when all its nodes carry the same. -/
theorem Sheet.shape_eq_relabel (s : Sheet) : s.shape = s.relabel fun _ ↦ .null := by
  rw [shape, relabel]
  exact congrArg (Sheet.mk · .null) (List.map_congr_left fun i _ ↦ i.shape_eq_relabel)

/-! ### Texts -/

section

variable (f : Info → Info)

@[simp] theorem Expr.level_relabel (e : Expr) : (e.relabel f).level = e.level := by
  cases e <;> rfl

mutual

/-- An expression is written without a look at what its nodes carry. -/
theorem Expr.text_relabel : ∀ e : Expr, (e.relabel f).text = e.text
  | .literal _ _ | .reference _ _ => rfl
  | .operation op es _ => Expr.firstText_relabel op es

theorem Expr.firstText_relabel (op : Operator) :
    ∀ es : List Expr, Expr.firstText op (Expr.listRelabel f es) = Expr.firstText op es
  | [] => rfl
  | e :: es => by
    rw [Expr.listRelabel, Expr.firstText, Expr.firstText, Expr.level_relabel, Expr.text_relabel e,
      Expr.laterText_relabel op es]

theorem Expr.laterText_relabel (op : Operator) :
    ∀ es : List Expr, Expr.laterText op (Expr.listRelabel f es) = Expr.laterText op es
  | [] => rfl
  | e :: es => by
    rw [Expr.listRelabel, Expr.laterText, Expr.laterText, Expr.level_relabel, Expr.text_relabel e,
      Expr.laterText_relabel op es]

end

/-- So is a declaration. -/
theorem Declaration.css_relabel (indent : Nat) (d : Declaration) :
    (d.relabel f).css indent = d.css indent := by
  rw [css, css, relabel, Expr.text_relabel]

/-- A relabeled rule has the declarations of the rule, relabeled. -/
theorem Rule.declarations_relabel (r : Rule) :
    (r.relabel f).declarations = r.declarations.map (Declaration.relabel f) := by
  rw [declarations, declarations, relabel, Body.relabel_eq_map, List.filterMap_map,
    List.map_filterMap]
  refine List.filterMap_congr fun s _ ↦ ?_
  cases s <;> rfl

/-- So is a rule. -/
theorem Rule.css_relabel (indent : Nat) (r : Rule) : (r.relabel f).css indent = r.css indent := by
  rw [css, css, declarations_relabel, List.map_map]
  simp only [Function.comp_def, Declaration.css_relabel]
  rfl

theorem Sheet.rules_relabel (s : Sheet) : (s.relabel f).rules = s.rules.map (Rule.relabel f) := by
  rw [rules, rules, relabel, List.filterMap_map, List.map_filterMap]
  refine List.filterMap_congr fun i _ ↦ ?_
  cases i <;> rfl

/-- The text of a sheet shows nothing of what its nodes carry. -/
theorem Sheet.css_relabel (indent : Nat) (s : Sheet) :
    (s.relabel f).css indent = s.css indent := by
  rw [css, css, rules_relabel, List.map_map]
  simp only [Function.comp_def, Rule.css_relabel]

end

end TypedCss

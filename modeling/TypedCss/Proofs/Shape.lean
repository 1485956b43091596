import TypedCss.Sheet

/-!
# Shapes of trees

Two trees have the same `shape` if they differ in spans and diagnostics only. A printed text has
neither, so the shape is what can be read back from it, and it is what no pass may change that is
only to add diagnostics.
-/

namespace TypedCss

/-- What a node carries that was not read from any file. -/
def Info.null : Info := ⟨Span.null, []⟩

mutual

/-- An expression without its spans and diagnostics. -/
def Expr.shape : Expr → Expr
  | .literal v _ => .literal v .null
  | .reference name _ => .reference name .null
  | .operation op es _ => .operation op (Expr.listShape es) .null

/-- Several expressions without their spans and diagnostics. -/
def Expr.listShape : List Expr → List Expr
  | [] => []
  | e :: es => e.shape :: Expr.listShape es

end

/-- A declaration without its spans and diagnostics. -/
def Declaration.shape (d : Declaration) : Declaration := ⟨d.property, d.value.shape, .null⟩

/-- An assignment without its spans and diagnostics. -/
def Assignment.shape (a : Assignment) : Assignment := ⟨a.name, a.value.shape, .null⟩

mutual

/-- A statement without its spans and diagnostics. -/
def Stmt.shape : Stmt → Stmt
  | .declaration d => .declaration d.shape
  | .assignment a => .assignment a.shape
  | .conditional guard body otherwise _ =>
    .conditional guard.shape (Stmt.listShape body) otherwise.shape .null

/-- An else branch without its spans and diagnostics. -/
def ElseBranch.shape : ElseBranch → ElseBranch
  | .absent => .absent
  | .present body _ => .present (Stmt.listShape body) .null

/-- Several statements without their spans and diagnostics. -/
def Stmt.listShape : List Stmt → List Stmt
  | [] => []
  | s :: ss => s.shape :: Stmt.listShape ss

end

/-- A rule without its spans and diagnostics. -/
def Rule.shape (r : Rule) : Rule := ⟨r.selectors, Stmt.listShape r.body, .null⟩

/-- An item without its spans and diagnostics. -/
def Item.shape : Item → Item
  | .assignment a => .assignment a.shape
  | .rule r => .rule r.shape

/-- A sheet without its spans and diagnostics. -/
def Sheet.shape (s : Sheet) : Sheet := ⟨s.items.map Item.shape, .null⟩

theorem Stmt.listShape_eq_map (body : List Stmt) : Stmt.listShape body = body.map Stmt.shape := by
  induction body with
  | nil => rfl
  | cons s body ih => rw [Stmt.listShape, ih, List.map_cons]

end TypedCss

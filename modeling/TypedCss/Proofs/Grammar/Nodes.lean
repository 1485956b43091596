import TypedCss.Proofs.Grammar.Derivation
import TypedCss.Proofs.Tree
import TypedCss.Proofs.Typing.Notes

/-!
# The nodes of a tree that was read

Each node of the meaning of a derivation is clean and starts where one of the derived tokens starts
(`Info.StartsIn`); only the sheet itself starts with its file. Each expression of a sheet is the
meaning of a derivation from some of its tokens (`Sheet.exists_expression`), so all operations have
two operands (`Sheet.isBinary_tree`).
-/

namespace TypedCss

/-- `i.StartsIn ts` says that nothing was reported on a node and that it starts with one of the
tokens. -/
structure Info.StartsIn (ts : List Token) (i : Info) : Prop where
  /-- Nothing was reported. -/
  clean : i.diagnostics = []
  /-- A token starts where the node does. -/
  start : ∃ t ∈ ts, i.start = t.span.start

namespace Info.StartsIn

variable {ts us : List Token} {i : Info}

/-- A node that starts with one of the tokens does so among more tokens. -/
theorem mono (h : i.StartsIn ts) (hsub : ts ⊆ us) : i.StartsIn us := by
  obtain ⟨hc, t, ht, hs⟩ := h
  exact ⟨hc, t, hsub ht, hs⟩

/-- A span that starts where a token does makes a clean node. -/
theorem of_mem {t : Token} {stop : Position} (h : t ∈ ts) :
    Info.StartsIn ts ⟨⟨t.span.start, stop⟩, []⟩ :=
  ⟨rfl, t, h, rfl⟩

end Info.StartsIn

namespace Derivation

/-! ### Expressions -/

/-- An operand of one token is one node, which starts with it. -/
theorem Primary.startsIn (p : Primary) : ∀ i ∈ p.tree.infos, i.StartsIn [p.token] := by
  intro i hi
  cases p <;> obtain rfl := List.mem_singleton.1 hi <;>
    exact ⟨rfl, _, List.mem_singleton_self _, rfl⟩

/-- An operation starts with its left operand. -/
theorem startsIn_operation {ts us : List Token} (sign : Token) {op : Operator} {left right : Expr}
    (hl : ∀ i ∈ left.infos, i.StartsIn ts) (hr : ∀ i ∈ right.infos, i.StartsIn us) :
    ∀ i ∈ (Grammar.operation op left right).infos, i.StartsIn (ts ++ sign :: us) := by
  have hl' : ∀ i ∈ left.infos, i.StartsIn (ts ++ sign :: us) :=
    fun i hi ↦ (hl i hi).mono (List.subset_append_left ..)
  intro i hi
  simp only [Grammar.operation, Expr.infos, Expr.listInfos, List.append_nil, List.mem_cons,
    List.mem_append] at hi
  rcases hi with rfl | hi | hi
  · exact ⟨rfl, (hl' _ left.info_mem_infos).start⟩
  · exact hl' i hi
  · exact (hr i hi).mono fun t ht ↦ by simp [ht]

mutual

/-- A group makes no node of its own: its parentheses leave no trace in the tree. -/
theorem Operand.startsIn (x : Operand) : ∀ i ∈ x.tree.infos, i.StartsIn x.tokens := by
  match x with
  | .primary p => exact p.startsIn
  | .group opening inner closing =>
    intro i hi
    exact (Expression.startsIn inner i hi).mono fun t ht ↦ by simp [Operand.tokens, ht]

/-- Each star makes a node, which starts where the product before it does. -/
theorem Factors.startsIn (fs : Factors) {left : Expr} {ts : List Token}
    (hl : ∀ i ∈ left.infos, i.StartsIn ts) :
    ∀ i ∈ (fs.join left).infos, i.StartsIn (ts ++ fs.tokens) := by
  match fs with
  | .nil =>
    intro i hi
    exact (hl i hi).mono (by simp [Factors.tokens])
  | .cons star next others =>
    have h : ∀ i ∈ (Grammar.operation .multiply left next.tree).infos,
        i.StartsIn (ts ++ star.token :: next.tokens) :=
      startsIn_operation star.token hl (Operand.startsIn next)
    intro i hi
    exact (Factors.startsIn others h i hi).mono (by simp [Factors.tokens])

theorem Product.startsIn (x : Product) : ∀ i ∈ x.tree.infos, i.StartsIn x.tokens := by
  match x with
  | .mk first others => exact Factors.startsIn others (Operand.startsIn first)

/-- Each sign makes a node, which starts where the sum before it does. -/
theorem Terms.startsIn (xs : Terms) {left : Expr} {ts : List Token}
    (hl : ∀ i ∈ left.infos, i.StartsIn ts) :
    ∀ i ∈ (xs.join left).infos, i.StartsIn (ts ++ xs.tokens) := by
  match xs with
  | .nil =>
    intro i hi
    exact (hl i hi).mono (by simp [Terms.tokens])
  | .cons sign next others =>
    have h : ∀ i ∈ (Grammar.operation sign.operator left next.tree).infos,
        i.StartsIn (ts ++ sign.token :: next.tokens) :=
      startsIn_operation sign.token hl (Product.startsIn next)
    intro i hi
    exact (Terms.startsIn others h i hi).mono (by simp [Terms.tokens])

/-- The nodes of an expression start with its tokens. -/
theorem Expression.startsIn (x : Expression) : ∀ i ∈ x.tree.infos, i.StartsIn x.tokens := by
  match x with
  | .mk first others => exact Terms.startsIn others (Product.startsIn first)

end

mutual

theorem Operand.isBinary (x : Operand) : x.tree.IsBinary := by
  match x with
  | .primary p => cases p <;> trivial
  | .group opening inner closing => exact Expression.isBinary inner

/-- A star has the product before it and the operand after it. -/
theorem Factors.isBinary (fs : Factors) {left : Expr} (hl : left.IsBinary) :
    (fs.join left).IsBinary := by
  match fs with
  | .nil => exact hl
  | .cons star next others => exact Factors.isBinary others ⟨hl, Operand.isBinary next⟩

theorem Product.isBinary (x : Product) : x.tree.IsBinary := by
  match x with
  | .mk first others => exact Factors.isBinary others (Operand.isBinary first)

/-- A sign has the sum before it and the product after it. -/
theorem Terms.isBinary (xs : Terms) {left : Expr} (hl : left.IsBinary) :
    (xs.join left).IsBinary := by
  match xs with
  | .nil => exact hl
  | .cons sign next others => exact Terms.isBinary others ⟨hl, Product.isBinary next⟩

/-- All operations of an expression that was read have two operands. -/
theorem Expression.isBinary (x : Expression) : x.tree.IsBinary := by
  match x with
  | .mk first others => exact Terms.isBinary others (Product.isBinary first)

end

/-! ### Statements -/

/-- An assignment starts with the name of its variable. -/
theorem Assignment.startsIn (x : Assignment) : ∀ i ∈ x.tree.infos, i.StartsIn x.tokens := by
  intro i hi
  cases x with
  | ofVariableName name sign value semicolon | ofIdentifier name sign value semicolon =>
    all_goals
      rcases List.mem_cons.1 hi with rfl | hi
      · exact .of_mem (t := name.token) (List.mem_cons_self ..)
      · exact (value.startsIn i hi).mono fun t ht ↦ by simp [Assignment.tokens, ht]

/-- A declaration starts with its property. -/
theorem Declaration.startsIn (x : Declaration) : ∀ i ∈ x.tree.infos, i.StartsIn x.tokens := by
  intro i hi
  rcases List.mem_cons.1 hi with rfl | hi
  · exact .of_mem (t := x.property.token) (List.mem_cons_self ..)
  · exact (x.value.startsIn i hi).mono fun t ht ↦ by simp [Declaration.tokens, ht]

/-- The brackets of a guard leave no trace in the tree. -/
theorem Guard.startsIn (x : Guard) : ∀ i ∈ x.tree.infos, i.StartsIn x.tokens := by
  intro i hi
  cases x with
  | bracketed opening value closing =>
    exact (value.startsIn i hi).mono fun t ht ↦ by simp [Guard.tokens, ht]
  | plain value => exact value.startsIn i hi

mutual

/-- A conditional starts with its word, and the parts of a statement with their own tokens. -/
theorem Stmt.startsIn (x : Stmt) : ∀ i ∈ x.tree.infos, i.StartsIn x.tokens := by
  match x with
  | .declaration d => exact d.startsIn
  | .assignment a => exact a.startsIn
  | .conditional word guard body otherwise =>
    intro i hi
    simp only [Stmt.tree, TypedCss.Stmt.infos, List.mem_cons, List.mem_append] at hi
    rcases hi with rfl | (hi | hi) | hi
    · exact .of_mem (t := word.token) (List.mem_cons_self ..)
    · exact (guard.startsIn i hi).mono fun t ht ↦ by simp [Stmt.tokens, ht]
    · exact (Block.startsIn body i hi).mono fun t ht ↦ by simp [Stmt.tokens, ht]
    · exact (Otherwise.startsIn otherwise i hi).mono fun t ht ↦ by simp [Stmt.tokens, ht]

theorem Block.startsIn (x : Block) : ∀ i ∈ Body.infos x.tree, i.StartsIn x.tokens := by
  match x with
  | .mk opening body closing =>
    intro i hi
    exact (Stmts.startsIn body i hi).mono fun t ht ↦ by simp [Block.tokens, ht]

/-- The nodes of several statements start with the tokens of theirs. -/
theorem Stmts.startsIn (x : Stmts) : ∀ i ∈ Body.infos x.tree, i.StartsIn x.tokens := by
  match x with
  | .nil =>
    rintro i ⟨⟩
  | .cons first others =>
    intro i hi
    rcases List.mem_append.1 hi with hi | hi
    · exact (Stmt.startsIn first i hi).mono fun t ht ↦ by simp [Stmts.tokens, ht]
    · exact (Stmts.startsIn others i hi).mono fun t ht ↦ by simp [Stmts.tokens, ht]

/-- An else branch starts with its word; if there is none, it has no nodes. -/
theorem Otherwise.startsIn (x : Otherwise) : ∀ i ∈ x.tree.infos, i.StartsIn x.tokens := by
  match x with
  | .absent =>
    rintro i ⟨⟩
  | .present word body =>
    intro i hi
    rcases List.mem_cons.1 hi with rfl | hi
    · exact .of_mem (t := word.token) (List.mem_cons_self ..)
    · exact (Block.startsIn body i hi).mono fun t ht ↦ by simp [Otherwise.tokens, ht]

end

/-- The value of an assignment was read from tokens of the assignment. -/
theorem Assignment.exists_expression (x : Assignment) :
    ∃ y : Expression, y.tree = x.tree.value ∧ y.tokens ⊆ x.tokens := by
  cases x with
  | ofVariableName name sign value semicolon | ofIdentifier name sign value semicolon =>
    all_goals exact ⟨value, rfl, fun t ht ↦ by simp [Assignment.tokens, ht]⟩

/-- A guard was read from its tokens, or from those between its brackets. -/
theorem Guard.exists_expression (x : Guard) :
    ∃ y : Expression, y.tree = x.tree ∧ y.tokens ⊆ x.tokens := by
  cases x with
  | bracketed opening value closing =>
    exact ⟨value, rfl, fun t ht ↦ by simp [Guard.tokens, ht]⟩
  | plain value => exact ⟨value, rfl, List.Subset.refl _⟩

mutual

/-- Each expression of a statement was read from tokens of the statement. -/
theorem Stmt.exists_expression (x : Stmt) : ∀ e ∈ x.tree.exprs,
    ∃ y : Expression, y.tree = e ∧ y.tokens ⊆ x.tokens := by
  match x with
  | .declaration d =>
    intro e he
    obtain rfl := List.mem_singleton.1 he
    exact ⟨d.value, rfl, fun t ht ↦ by simp [Stmt.tokens, Declaration.tokens, ht]⟩
  | .assignment a =>
    intro e he
    obtain rfl := List.mem_singleton.1 he
    exact a.exists_expression
  | .conditional word guard body otherwise =>
    intro e he
    simp only [Stmt.tree, TypedCss.Stmt.exprs, List.mem_cons, List.mem_append] at he
    rcases he with rfl | he | he
    · obtain ⟨y, hy, hsub⟩ := guard.exists_expression
      exact ⟨y, hy, fun t ht ↦ by simp [Stmt.tokens, hsub ht]⟩
    · obtain ⟨y, hy, hsub⟩ := Block.exists_expression body e he
      exact ⟨y, hy, fun t ht ↦ by simp [Stmt.tokens, hsub ht]⟩
    · obtain ⟨y, hy, hsub⟩ := Otherwise.exists_expression otherwise e he
      exact ⟨y, hy, fun t ht ↦ by simp [Stmt.tokens, hsub ht]⟩

theorem Block.exists_expression (x : Block) : ∀ e ∈ Body.exprs x.tree,
    ∃ y : Expression, y.tree = e ∧ y.tokens ⊆ x.tokens := by
  match x with
  | .mk opening body closing =>
    intro e he
    obtain ⟨y, hy, hsub⟩ := Stmts.exists_expression body e he
    exact ⟨y, hy, fun t ht ↦ by simp [Block.tokens, hsub ht]⟩

theorem Stmts.exists_expression (x : Stmts) : ∀ e ∈ Body.exprs x.tree,
    ∃ y : Expression, y.tree = e ∧ y.tokens ⊆ x.tokens := by
  match x with
  | .nil =>
    rintro e ⟨⟩
  | .cons first others =>
    intro e he
    rcases List.mem_append.1 he with he | he
    · obtain ⟨y, hy, hsub⟩ := Stmt.exists_expression first e he
      exact ⟨y, hy, fun t ht ↦ by simp [Stmts.tokens, hsub ht]⟩
    · obtain ⟨y, hy, hsub⟩ := Stmts.exists_expression others e he
      exact ⟨y, hy, fun t ht ↦ by simp [Stmts.tokens, hsub ht]⟩

theorem Otherwise.exists_expression (x : Otherwise) : ∀ e ∈ x.tree.exprs,
    ∃ y : Expression, y.tree = e ∧ y.tokens ⊆ x.tokens := by
  match x with
  | .absent =>
    rintro e ⟨⟩
  | .present word body =>
    intro e he
    obtain ⟨y, hy, hsub⟩ := Block.exists_expression body e he
    exact ⟨y, hy, fun t ht ↦ by simp [Otherwise.tokens, hsub ht]⟩

end

/-! ### Sheets -/

/-- A selector starts with its first token. -/
theorem Selector.start_mem (x : Selector) : ∃ t ∈ x.tokens, x.start = t.span.start := by
  cases x with
  | tag name => exact ⟨name.token, List.mem_cons_self .., rfl⟩
  | «class» dot name => exact ⟨dot.token, List.mem_cons_self .., rfl⟩
  | id hash => exact ⟨hash.token, List.mem_cons_self .., rfl⟩

/-- A rule starts with its first selector. -/
theorem Item.startsIn (x : Item) : ∀ i ∈ x.tree.infos, i.StartsIn x.tokens := by
  cases x with
  | assignment a => exact a.startsIn
  | rule r =>
    intro i hi
    rcases List.mem_cons.1 hi with rfl | hi
    · obtain ⟨t, ht, hs⟩ := r.first.start_mem
      exact ⟨rfl, t, List.mem_append_left _ ht, hs⟩
    · exact (r.body.startsIn i hi).mono fun t ht ↦ by simp [Item.tokens, Rule.tokens, ht]

/-- Each expression of an item was read from tokens of the item. -/
theorem Item.exists_expression (x : Item) : ∀ e ∈ x.tree.exprs,
    ∃ y : Expression, y.tree = e ∧ y.tokens ⊆ x.tokens := by
  cases x with
  | assignment a =>
    intro e he
    obtain rfl := List.mem_singleton.1 he
    exact a.exists_expression
  | rule r =>
    intro e he
    obtain ⟨y, hy, hsub⟩ := r.body.exists_expression e he
    exact ⟨y, hy, fun t ht ↦ by simp [Item.tokens, Rule.tokens, hsub ht]⟩

/-- The nodes of the items of a sheet start with tokens. -/
theorem Sheet.startsIn_items (file : String) (x : Sheet) :
    ∀ i ∈ (x.tree file).items.flatMap TypedCss.Item.infos, i.StartsIn x.tokens := by
  intro i hi
  obtain ⟨_, ht, hi⟩ := List.mem_flatMap.1 hi
  obtain ⟨m, hm, rfl⟩ := List.mem_map.1 ht
  exact (m.startsIn i hi).mono fun t ht ↦ List.mem_flatMap.2 ⟨m, hm, ht⟩

/-- The nodes of a sheet are clean; the sheet starts with its file, and each other node with a
token. -/
theorem Sheet.infos_tree (file : String) (x : Sheet) :
    ∀ i ∈ (x.tree file).infos, i.diagnostics = [] ∧
      (i.start = ⟨0, file⟩ ∨ ∃ t ∈ x.tokens, i.start = t.span.start) := by
  intro i hi
  rcases List.mem_cons.1 hi with rfl | hi
  · exact ⟨rfl, .inl rfl⟩
  · obtain ⟨hc, hstart⟩ := x.startsIn_items file i hi
    exact ⟨hc, .inr hstart⟩

/-- Each expression of a sheet that was read is the meaning of a derivation from some of the
tokens. -/
theorem Sheet.exists_expression (file : String) (x : Sheet) : ∀ e ∈ (x.tree file).exprs,
    ∃ y : Expression, y.tree = e ∧ y.tokens ⊆ x.tokens := by
  intro e he
  obtain ⟨_, hm, he⟩ := List.mem_flatMap.1 he
  obtain ⟨m, hmx, rfl⟩ := List.mem_map.1 hm
  obtain ⟨y, hy, hsub⟩ := m.exists_expression e he
  exact ⟨y, hy, fun t ht ↦ List.mem_flatMap.2 ⟨m, hmx, hsub ht⟩⟩

/-- All operations of a sheet that was read have two operands. -/
theorem Sheet.isBinary_tree (file : String) (x : Sheet) :
    ∀ e ∈ (x.tree file).exprs, e.IsBinary := by
  intro e he
  obtain ⟨y, rfl, -⟩ := x.exists_expression file e he
  exact y.isBinary

end Derivation

end TypedCss

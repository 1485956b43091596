import TypedCss.Compile
import TypedCss.Proofs.Tree

/-!
# The gate

A checked sheet goes on to be evaluated unless there is something to report on it. Two walks over
the tree decide this: `Sheet.hasErrors` is asked, and `Sheet.errors` is what is reported.

To say that they miss nothing, the tree is laid out as an `Outline`, in which every node is the same
kind of thing: what it carries, and its parts in the order of the text. A node is found by its
address, which says at each level the number of the part to go on with. In the lexicographic order
of addresses a node stands before its parts and all of a part before the next one, so that
`Outline.nodes` lists each node once and in this order (`Outline.pairwise_nodes`,
`Outline.mem_nodes_iff`). `Sheet.gate_exact` says that both walks see exactly this list.
-/

namespace TypedCss

/-! ### Outlines -/

/-- What a node of a tree carries, and the outlines of its parts. -/
inductive Outline where
  /-- A node with its parts. -/
  | node (info : Info) (parts : List Outline)

namespace Outline

/-- What the outermost node carries. -/
def info : Outline → Info
  | node i _ => i

/-- The parts of the outermost node. -/
def parts : Outline → List Outline
  | node _ ts => ts

/-- What the node at an address carries, if there is one. The outermost node is at the empty
address. -/
def at? (t : Outline) : List Nat → Option Info
  | [] => some t.info
  | n :: address =>
    match t.parts[n]? with
    | none => none
    | some part => part.at? address

mutual

/-- All nodes with their addresses, a node before its parts. -/
def nodes : Outline → List (List Nat × Info)
  | node i ts => ([], i) :: nodesFrom 0 ts

/-- The nodes of several parts with their addresses, where `n` is the number of the first part. -/
def nodesFrom (n : Nat) : List Outline → List (List Nat × Info)
  | [] => []
  | t :: ts => t.nodes.map (fun entry ↦ (n :: entry.1, entry.2)) ++ nodesFrom (n + 1) ts

end

mutual

/-- The nodes that are listed are those that there are. -/
theorem mem_nodes_iff : ∀ (t : Outline) {address : List Nat} {i : Info},
    (address, i) ∈ t.nodes ↔ t.at? address = some i
  | node j ts, [], i => by
    have hparts : ([], i) ∉ nodesFrom 0 ts := by
      rw [mem_nodesFrom_iff ts]
      rintro ⟨_, _, _, ⟨⟩, _⟩
    simp [nodes, at?, info, hparts, eq_comm]
  | node j ts, n :: address, i => by
    rw [nodes, List.mem_cons, mem_nodesFrom_iff ts, at?, parts]
    constructor
    · rintro (h | ⟨k, inner, part, h, hk, hat⟩)
      · cases h
      · obtain ⟨rfl, rfl⟩ := List.cons.inj h
        rw [Nat.zero_add, hk]
        exact hat
    · intro h
      cases hn : ts[n]? with
      | none =>
        rw [hn] at h
        cases h
      | some part =>
        rw [hn] at h
        exact .inr ⟨n, address, part, by rw [Nat.zero_add], hn, h⟩

/-- The nodes that are listed for several parts are those that there are, with the number of the
part before the address in it. -/
theorem mem_nodesFrom_iff : ∀ (ts : List Outline) {n : Nat} {address : List Nat} {i : Info},
    (address, i) ∈ nodesFrom n ts ↔
      ∃ (k : Nat) (inner : List Nat) (part : Outline), address = (n + k) :: inner ∧
        ts[k]? = some part ∧ part.at? inner = some i
  | [], n, address, i => by simp [nodesFrom]
  | t :: ts, n, address, i => by
    rw [nodesFrom, List.mem_append, mem_nodesFrom_iff ts, List.mem_map]
    constructor
    · rintro (⟨⟨inner, j⟩, hmem, heq⟩ | ⟨k, inner, part, rfl, hk, hat⟩)
      · obtain ⟨rfl, rfl⟩ := Prod.mk.inj heq
        exact ⟨0, inner, t, rfl, rfl, (mem_nodes_iff t).1 hmem⟩
      · exact ⟨k + 1, inner, part, by rw [Nat.add_assoc, Nat.add_comm 1], hk, hat⟩
    · rintro ⟨k, inner, part, rfl, hk, hat⟩
      cases k with
      | zero =>
        obtain rfl := Option.some.inj hk
        exact .inl ⟨(inner, i), (mem_nodes_iff t).2 hat, rfl⟩
      | succ k => exact .inr ⟨k, inner, part, by rw [Nat.add_assoc, Nat.add_comm 1], hk, hat⟩

end

mutual

/-- The nodes are listed in the order of their addresses, each once. -/
theorem pairwise_nodes : ∀ t : Outline, (t.nodes.map Prod.fst).Pairwise (· < ·)
  | node j ts => by
    rw [nodes, List.map_cons, List.pairwise_cons]
    refine ⟨fun address h ↦ ?_, pairwise_nodesFrom ts 0⟩
    obtain ⟨⟨_, i⟩, hmem, rfl⟩ := List.mem_map.1 h
    obtain ⟨k, inner, part, rfl, -⟩ := (mem_nodesFrom_iff ts).1 hmem
    exact List.nil_lt_cons ..

/-- The nodes of several parts are listed in the order of their addresses, each once. -/
theorem pairwise_nodesFrom : ∀ (ts : List Outline) (n : Nat),
    ((nodesFrom n ts).map Prod.fst).Pairwise (· < ·)
  | [], n => .nil
  | t :: ts, n => by
    rw [nodesFrom, List.map_append, List.map_map, List.pairwise_append]
    refine ⟨?_, pairwise_nodesFrom ts (n + 1), ?_⟩
    · have h := (pairwise_nodes t).map (S := (· < ·)) (n :: ·) fun a b hab ↦
        List.cons_lt_cons_iff.2 (.inr ⟨rfl, hab⟩)
      rwa [List.map_map] at h
    · -- The number of a part comes first in the addresses in it.
      intro a ha b hb
      obtain ⟨entry, -, rfl⟩ := List.mem_map.1 ha
      obtain ⟨⟨_, i⟩, hmem, rfl⟩ := List.mem_map.1 hb
      obtain ⟨k, inner, part, rfl, -⟩ := (mem_nodesFrom_iff ts).1 hmem
      exact List.cons_lt_cons_iff.2 (.inl (by omega))

end

/-- What the nodes carry, in their order. -/
def infos (t : Outline) : List Info := t.nodes.map Prod.snd

theorem map_snd_nodesFrom (ts : List Outline) : ∀ n : Nat,
    (nodesFrom n ts).map Prod.snd = ts.flatMap infos := by
  induction ts with
  | nil => exact fun _ ↦ rfl
  | cons t ts ih =>
    intro n
    rw [nodesFrom, List.map_append, List.map_map, ih, List.flatMap_cons]
    rfl

theorem infos_node (i : Info) (ts : List Outline) : (node i ts).infos = i :: ts.flatMap infos := by
  rw [infos, nodes, List.map_cons, map_snd_nodesFrom]

end Outline

/-! ### Outlines of trees -/

mutual

/-- The parts of an operation are its operands. -/
def Expr.outline : Expr → Outline
  | .literal _ i | .reference _ i => .node i []
  | .operation _ es i => .node i (Expr.outlines es)

/-- The outlines of several expressions. -/
def Expr.outlines : List Expr → List Outline
  | [] => []
  | e :: es => e.outline :: Expr.outlines es

end

/-- The part of a declaration is its value. -/
def Declaration.outline (d : Declaration) : Outline := .node d.info [d.value.outline]

/-- The part of an assignment is its value. -/
def Assignment.outline (a : Assignment) : Outline := .node a.info [a.value.outline]

mutual

/-- The parts of a conditional are the guard, the statements of its body, and the else branch if it
has one. -/
def Stmt.outline : Stmt → Outline
  | .declaration d => d.outline
  | .assignment a => a.outline
  | .conditional guard body otherwise i =>
    .node i (guard.outline :: (Body.outlines body ++ otherwise.outlines))

/-- The outlines of the statements of a body. -/
def Body.outlines : List Stmt → List Outline
  | [] => []
  | s :: rest => s.outline :: Body.outlines rest

/-- The outline of an else branch, whose parts are the statements of its body. -/
def ElseBranch.outlines : ElseBranch → List Outline
  | .absent => []
  | .present body i => [.node i (Body.outlines body)]

end

/-- The parts of a rule are the statements of its body. -/
def Rule.outline (r : Rule) : Outline := .node r.info (Body.outlines r.body)

/-- The outline of an item. -/
def Item.outline : Item → Outline
  | .assignment a => a.outline
  | .rule r => r.outline

/-- The parts of a sheet are its items. -/
def Sheet.outline (s : Sheet) : Outline := .node s.info (s.items.map Item.outline)

mutual

theorem Expr.infos_outline : ∀ e : Expr, e.outline.infos = e.infos
  | .literal _ _ | .reference _ _ => rfl
  | .operation _ es i => by
    rw [outline, Outline.infos_node, Expr.infos_outlines es, infos]

theorem Expr.infos_outlines : ∀ es : List Expr,
    (Expr.outlines es).flatMap Outline.infos = Expr.listInfos es
  | [] => rfl
  | e :: es => by
    rw [outlines, List.flatMap_cons, Expr.infos_outline e, Expr.infos_outlines es, listInfos]

end

theorem Declaration.infos_outline (d : Declaration) : d.outline.infos = d.infos := by
  rw [outline, Outline.infos_node, List.flatMap_singleton, Expr.infos_outline, infos]

theorem Assignment.infos_outline (a : Assignment) : a.outline.infos = a.infos := by
  rw [outline, Outline.infos_node, List.flatMap_singleton, Expr.infos_outline, infos]

theorem Body.infos_outlines (body : List Stmt) :
    (Body.outlines body).flatMap Outline.infos = Body.infos body := by
  induction body using Body.induction with
  | nil => rfl
  | declaration d rest ih =>
    rw [outlines, List.flatMap_cons, ih, Stmt.outline, d.infos_outline]
    rfl
  | assignment a rest ih =>
    rw [outlines, List.flatMap_cons, ih, Stmt.outline, a.infos_outline]
    rfl
  | conditional guard body otherwise info rest ihBody ihElse ihRest =>
    have helse : otherwise.outlines.flatMap Outline.infos = otherwise.infos := by
      cases otherwise with
      | absent => rfl
      | present branch i =>
        rw [ElseBranch.outlines, List.flatMap_singleton, Outline.infos_node]
        exact congrArg (i :: ·) ihElse
    rw [outlines, List.flatMap_cons, ihRest, Stmt.outline, Outline.infos_node, List.flatMap_cons,
      List.flatMap_append, guard.infos_outline, ihBody, helse, ← List.append_assoc]
    rfl

theorem Item.infos_outline (i : Item) : i.outline.infos = i.infos := by
  cases i with
  | assignment a => exact a.infos_outline
  | rule r => rw [outline, Rule.outline, Outline.infos_node, Body.infos_outlines, infos, Rule.infos]

/-- The nodes of a sheet in the order of the text are those of its outline in the order of their
addresses. -/
theorem Sheet.infos_outline (s : Sheet) : s.outline.infos = s.infos := by
  rw [outline, Outline.infos_node, List.flatMap_map, infos]
  exact congrArg (s.info :: List.flatMap · s.items) (funext Item.infos_outline)

/-! ### The gate -/

/-- **The gate misses nothing.** The errors of a sheet are the diagnostics of all its nodes, each
node once and in the order of their addresses, and the sheet has errors if there are any. A source
that can be read is let through after checking if there is nothing to report, and is otherwise
refused with all that there is to report. -/
theorem Sheet.gate_exact :
    (∀ s : Sheet,
      (s.outline.nodes.map Prod.fst).Pairwise (· < ·) ∧
      (∀ address i, (address, i) ∈ s.outline.nodes ↔ s.outline.at? address = some i) ∧
      s.errors = s.outline.nodes.flatMap (·.2.diagnostics) ∧
      (s.hasErrors = true ↔ s.errors ≠ [])) ∧
    ∀ (source : String) (config : Config), TypedCss.check source config =
      match Parse.sheet source config.fileName with
      | .error e => .error [e]
      | .ok s => if s.check.1.errors = [] then .ok s.check.1 else .error s.check.1.errors := by
  have hiff : ∀ s : Sheet, s.hasErrors = true ↔ s.errors ≠ [] := by
    intro s
    rw [← Bool.not_eq_false, hasErrors_eq_false_iff]
  refine ⟨fun s ↦ ⟨s.outline.pairwise_nodes, fun _ _ ↦ s.outline.mem_nodes_iff, ?_, hiff s⟩, ?_⟩
  · rw [errors_eq_flatMap, ← infos_outline, Outline.infos, List.flatMap_map]
  · intro source config
    rw [TypedCss.check]
    cases Parse.sheet source config.fileName with
    | error e => rfl
    | ok s =>
      show (if s.check.1.hasErrors = true then _ else _) = _
      simp only [hiff, ne_eq, ite_not]

end TypedCss

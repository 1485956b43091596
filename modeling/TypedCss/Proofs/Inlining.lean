import TypedCss.Proofs.Evaluation.Denotation
import TypedCss.Proofs.Typing.Added

/-!
# Inlining a variable

`Body.inline name v` puts the value `v` in the place of each reference to a variable, at any depth
and whatever surrounds it; the spans stay. If a body does not assign the variable, it makes no
difference whether the variable is set to `v` before the body or inlined in it
(`Body.passes_inline`).

The passes see the variables through an environment only. To evaluate and to check a body both come
down to the environment where it stands (`Body.fst_evaluate`, `Body.reports_check`), so that one
equation for each is left: a tree in the environment in which the variable is set means, and
violates, what the tree with the value inlined does in the environment as it was. An assignment of
another variable changes places with the setting of this one (`Env.set_set_comm`).
-/

namespace TypedCss

/-! ### Assignments at any depth -/

mutual

/-- The assignments in a statement, those of both branches of a conditional among them. -/
def Stmt.allAssignments : Stmt → List Assignment
  | .declaration _ => []
  | .assignment a => [a]
  | .conditional _ body otherwise _ => Body.allAssignments body ++ otherwise.allAssignments

/-- The assignments in a body. -/
def Body.allAssignments : List Stmt → List Assignment
  | [] => []
  | s :: rest => s.allAssignments ++ Body.allAssignments rest

/-- The assignments in an else branch. -/
def ElseBranch.allAssignments : ElseBranch → List Assignment
  | .absent => []
  | .present body _ => Body.allAssignments body

end

/-- Whether a variable is assigned nowhere in a body. -/
def Body.Spares (name : String) (body : List Stmt) : Prop :=
  ∀ a ∈ Body.allAssignments body, a.name ≠ name

namespace Body.Spares

variable {name : String} {rest : List Stmt}

theorem of_declaration {d : Declaration} (h : Spares name (.declaration d :: rest)) :
    Spares name rest :=
  h

theorem of_assignment {a : Assignment} (h : Spares name (.assignment a :: rest)) :
    a.name ≠ name ∧ Spares name rest :=
  List.forall_mem_cons.1 h

/-- A variable that is spared by a conditional is spared by both of its branches. -/
theorem of_conditional {guard : Expr} {body : List Stmt} {otherwise : ElseBranch} {info : Info}
    (h : Spares name (.conditional guard body otherwise info :: rest)) :
    Spares name body ∧ Spares name otherwise.body ∧ Spares name rest := by
  obtain ⟨hc, hr⟩ := List.forall_mem_append.1 h
  obtain ⟨hb, he⟩ := List.forall_mem_append.1 hc
  refine ⟨hb, ?_, hr⟩
  cases otherwise with
  | absent => exact nofun
  | present branch i => exact he

end Body.Spares

/-! ### Inlining -/

section

variable (name : String) (v : Literal)

mutual

/-- An expression with a value in the place of each reference to a variable. -/
def Expr.inline : Expr → Expr
  | .literal w i => .literal w i
  | .reference other i => if other = name then .literal v i.bare else .reference other i
  | .operation op es i => .operation op (Expr.listInline es) i

/-- Several expressions with a value in the place of each reference to a variable. -/
def Expr.listInline : List Expr → List Expr
  | [] => []
  | e :: es => e.inline :: Expr.listInline es

end

/-- A declaration of an expression in which a variable is inlined. -/
def Declaration.inline (d : Declaration) : Declaration := { d with value := d.value.inline name v }

/-- An assignment of an expression in which a variable is inlined. -/
def Assignment.inline (a : Assignment) : Assignment := { a with value := a.value.inline name v }

mutual

/-- A statement in which a variable is inlined. -/
def Stmt.inline : Stmt → Stmt
  | .declaration d => .declaration (d.inline name v)
  | .assignment a => .assignment (a.inline name v)
  | .conditional guard body otherwise info =>
    .conditional (guard.inline name v) (Body.inline body) otherwise.inline info

/-- A body in which a variable is inlined. -/
def Body.inline : List Stmt → List Stmt
  | [] => []
  | s :: rest => s.inline :: Body.inline rest

/-- An else branch in which a variable is inlined. -/
def ElseBranch.inline : ElseBranch → ElseBranch
  | .absent => .absent
  | .present body info => .present (Body.inline body) info

end

@[simp] theorem Expr.length_listInline (es : List Expr) :
    (Expr.listInline name v es).length = es.length := by
  induction es with
  | nil => rfl
  | cons e es ih => rw [listInline, List.length_cons, ih, List.length_cons]

@[simp] theorem ElseBranch.body_inline (e : ElseBranch) :
    (e.inline name v).body = Body.inline name v e.body := by
  cases e <;> rfl

theorem Expr.bare_info_inline (e : Expr) : (e.inline name v).info.bare = e.info.bare := by
  cases e with
  | literal w i => rfl
  | reference other i =>
    rw [inline]
    split <;> rfl
  | operation op es i => rfl

/-! ### Nodes stay where they are -/

mutual

theorem Expr.span_infos_inline :
    ∀ e : Expr, (e.inline name v).infos.map Info.span = e.infos.map Info.span
  | .literal _ _ => rfl
  | .reference other i => by
    rw [inline]
    split <;> rfl
  | .operation _ es i => congrArg (i.span :: ·) (Expr.span_listInfos_inline es)

theorem Expr.span_listInfos_inline : ∀ es : List Expr,
    (Expr.listInfos (Expr.listInline name v es)).map Info.span =
      (Expr.listInfos es).map Info.span
  | [] => rfl
  | e :: es => by
    rw [listInline, listInfos, listInfos, List.map_append, List.map_append,
      Expr.span_infos_inline e, Expr.span_listInfos_inline es]

end

/-- A body has the same nodes after inlining, each with the span that it had. -/
theorem Body.span_infos_inline (body : List Stmt) :
    (Body.infos (Body.inline name v body)).map Info.span = (Body.infos body).map Info.span := by
  induction body using Body.induction with
  | nil => rfl
  | declaration d rest ih =>
    rw [inline, infos, infos, List.map_append, List.map_append, ih]
    exact congrArg (d.info.span :: · ++ _) (d.value.span_infos_inline name v)
  | assignment a rest ih =>
    rw [inline, infos, infos, List.map_append, List.map_append, ih]
    exact congrArg (a.info.span :: · ++ _) (a.value.span_infos_inline name v)
  | conditional guard body otherwise info rest ihBody ihElse ihRest =>
    have helse : (otherwise.inline name v).infos.map Info.span =
        otherwise.infos.map Info.span := by
      cases otherwise with
      | absent => rfl
      | present branch i => exact congrArg (i.span :: ·) ihElse
    rw [inline, infos, infos, Stmt.inline, Stmt.infos, Stmt.infos]
    simp only [List.map_append, List.map_cons, Expr.span_infos_inline, ihBody, helse, ihRest]

/-! ### Evaluation -/

/-- An expression with a value inlined has the value that it has where the variable is set. -/
theorem Expr.valueIn_inline (env : Env Literal) (e : Expr) :
    (e.inline name v).valueIn env = e.valueIn (env.set name v) := by
  induction e using Expr.pairInduction with
  | literal w info => rfl
  | reference other info =>
    rw [inline, valueIn, Env.set]
    split <;> rfl
  | pair op left right info ihl ihr =>
    rw [inline, listInline, listInline, listInline, valueIn, valueIn, ihl, ihr]
  | unpaired op operands info hn =>
    rw [inline, valueIn_unpaired env (by rwa [length_listInline]), valueIn_unpaired _ hn,
      length_listInline]

theorem Declaration.holding_inline (d : Declaration) (w : Literal) :
    (d.inline name v).holding w = d.holding w := by
  rw [holding, holding, inline, Expr.bare_info_inline]

/-- A body with a value inlined means what it means where the variable is set. -/
theorem Body.denote_inline {body : List Stmt} : ∀ env : Env Literal, Body.Spares name body →
    Body.denote env (Body.inline name v body) = Body.denote (env.set name v) body := by
  induction body using Body.induction with
  | nil => exact fun _ _ ↦ rfl
  | declaration d rest ih =>
    intro env h
    rw [inline, Stmt.inline, denote, denote, ih env h.of_declaration]
    simp only [Declaration.holding_inline]
    rw [Declaration.inline, Expr.valueIn_inline]
  | assignment a rest ih =>
    intro env h
    obtain ⟨hname, hrest⟩ := h.of_assignment
    rw [inline, Stmt.inline, denote, denote]
    simp only [Assignment.inline, Expr.valueIn_inline, ih _ hrest, Env.set_set_comm env hname.symm]
  | conditional guard body otherwise info rest ihBody ihElse ihRest =>
    intro env h
    obtain ⟨hbody, helse, hrest⟩ := h.of_conditional
    rw [inline, Stmt.inline, denote, denote, Stmt.guardIn, Stmt.guardIn, Expr.valueIn_inline,
      ihBody env hbody, ElseBranch.denote_eq, ElseBranch.denote_eq, ElseBranch.body_inline,
      ihElse env helse, ihRest env hrest]

/-! ### Checking -/

/-- An expression with a value inlined has the type that it has where the type of the variable is
known. -/
theorem Expr.typeIn_inline (env : TypeEnv) (e : Expr) :
    (e.inline name v).typeIn env = e.typeIn (env.set name (some v.type)) := by
  induction e using Expr.pairInduction with
  | literal w info => rfl
  | reference other info =>
    rw [inline, typeIn, Env.set]
    split <;> rfl
  | pair op left right info ihl ihr =>
    rw [inline, listInline, listInline, listInline, typeIn, typeIn, ihl, ihr]
  | unpaired op operands info hn =>
    rw [inline, typeIn_unpaired env (by rwa [length_listInline]), typeIn_unpaired _ hn]

/-- What the rules add to the nodes of an expression with a value inlined is what they add to those
of the expression where the type of the variable is known. -/
theorem Expr.added_nodes_inline (env : TypeEnv) (e : Expr) :
    ((e.inline name v).nodes env).map Occurrence.added =
      (e.nodes (env.set name (some v.type))).map Occurrence.added := by
  induction e using Expr.pairInduction with
  | literal w info => rfl
  | reference other info =>
    rw [inline]
    by_cases hother : other = name
    · have hset : env.set name (some v.type) other = some (some v.type) := if_pos hother
      rw [if_pos hother]
      simp [nodes, Occurrence.added, Occurrence.cause?, hset, referenceCause?]
    · have hset : env.set name (some v.type) other = env other := if_neg hother
      rw [if_neg hother]
      simp [nodes, Occurrence.added, Occurrence.cause?, hset, Node.info]
  | pair op left right info ihl ihr =>
    rw [inline, listInline, listInline, listInline, nodes, nodes, List.map_cons, List.map_append,
      ihl, ihr, List.map_cons, List.map_append]
    refine congrArg (· :: _) ?_
    rw [Occurrence.added, Occurrence.added, Occurrence.cause?, Occurrence.cause?, typeIn_inline,
      typeIn_inline]
    rfl
  | unpaired op operands info hn =>
    -- No rule is about the operands, and there are as many of them.
    have hlength : (listInfos (listInline name v operands)).length =
        (listInfos operands).length := by
      simpa using congrArg List.length (span_listInfos_inline name v operands)
    have hother : ∀ (env : TypeEnv) (infos : List Info),
        (infos.map fun i ↦ (⟨.other i, env⟩ : Occurrence)).map Occurrence.added =
          List.replicate infos.length [] := by
      intro env infos
      rw [List.map_map]
      exact List.map_const' ..
    have hop : (listInline name v operands).length ≠ 2 := by rwa [length_listInline]
    rw [inline, nodes_unpaired _ hop, nodes_unpaired _ hn, List.map_cons, List.map_cons, hother,
      hother, hlength, Occurrence.added, Occurrence.added, Occurrence.cause?_unpaired hop,
      Occurrence.cause?_unpaired hn, length_listInline]
    rfl

theorem Declaration.added_inline (env : TypeEnv) (d : Declaration) :
    Occurrence.added ⟨.declaration (d.inline name v), env⟩ =
      Occurrence.added ⟨.declaration d, env.set name (some v.type)⟩ := by
  rw [Occurrence.added, Occurrence.added, Occurrence.cause?, Occurrence.cause?, inline,
    Expr.typeIn_inline]
  rfl

/-- What the rules add to the nodes of a body with a value inlined is what they add to those of the
body where the type of the variable is known. -/
theorem Body.added_nodes_inline {body : List Stmt} : ∀ env : TypeEnv, Body.Spares name body →
    (Body.nodes env (Body.inline name v body)).map Occurrence.added =
      (Body.nodes (env.set name (some v.type)) body).map Occurrence.added := by
  induction body using Body.induction with
  | nil => exact fun _ _ ↦ rfl
  | declaration d rest ih =>
    intro env h
    have hrest := ih env h.of_declaration
    rw [inline, Stmt.inline, nodes, nodes, List.map_append, List.map_append, Stmt.extend,
      Stmt.extend, hrest, Stmt.nodes, Stmt.nodes, List.map_cons, List.map_cons,
      Declaration.added_inline]
    rw [Declaration.inline, Expr.added_nodes_inline]
  | assignment a rest ih =>
    intro env h
    obtain ⟨hname, hspares⟩ := h.of_assignment
    have hrest := ih (env.set a.name ((a.value.inline name v).typeIn env)) hspares
    rw [Env.set_set_comm env hname, Expr.typeIn_inline] at hrest
    rw [inline, Stmt.inline, nodes, nodes, List.map_append, List.map_append, Stmt.extend,
      Stmt.extend, Assignment.inline, Expr.typeIn_inline, hrest, Stmt.nodes, Stmt.nodes,
      Assignment.nodes, Assignment.nodes, List.map_cons, List.map_cons, Expr.added_nodes_inline]
    rfl
  | conditional guard body otherwise info rest ihBody ihElse ihRest =>
    intro env h
    obtain ⟨hbody, helse, hrest⟩ := h.of_conditional
    have hbranch : ((otherwise.inline name v).nodes env).map Occurrence.added =
        (otherwise.nodes (env.set name (some v.type))).map Occurrence.added := by
      cases otherwise with
      | absent => rfl
      | present branch i => exact congrArg ([] :: ·) (ihElse env helse)
    rw [inline, Stmt.inline, nodes, nodes, List.map_append, List.map_append, Stmt.extend,
      Stmt.extend, ihRest env hrest, Stmt.nodes, Stmt.nodes, List.map_cons, List.map_cons,
      List.map_append, List.map_append, List.map_append, List.map_append, Expr.added_nodes_inline,
      ihBody env hbody, hbranch]
    refine congrArg (· :: _ ++ _) ?_
    rw [Occurrence.added, Occurrence.added, Occurrence.cause?, Occurrence.cause?,
      Expr.typeIn_inline]
    rfl

end

/-- What checking a body adds to each of its nodes. -/
def Body.added (c : Checker) (body : List Stmt) : List (List Error) :=
  List.zipWith Info.added (Body.infos body) (Body.infos (Body.check c body).1)

/-- What checking a body adds is what the rules add. -/
theorem Body.added_eq (c : Checker) (body : List Stmt) :
    Body.added c body = (Body.nodes c.scope.lookup body).map Occurrence.added := by
  rw [added, ← Body.info_nodes body c.scope.lookup,
    zipWith_added_of_isReported (Body.reports_check body c)]

/-! ### Both passes -/

/-- **Inlining preserves meaning.** In any scope, a body that does not assign a variable evaluates
after an assignment of the variable to what it evaluates to, in the scope as it was, with the value
inlined: to the same statements, or to the same error at the same place. It has the same nodes then.
Once the variable is known to have the type of the value, checking adds to each of them what it adds
there with the value inlined, and counts as much. -/
theorem Body.passes_inline (a : Assignment) (v : Literal) {body : List Stmt}
    (h : Body.Spares a.name body) :
    (∀ scope : Scope Literal, a.value.fold scope = .ok v →
      ∃ after, a.evaluate scope = .ok after ∧
        (Body.evaluate after body).1 = (Body.evaluate scope (Body.inline a.name v body)).1) ∧
    (Body.infos (Body.inline a.name v body)).map Info.span = (Body.infos body).map Info.span ∧
    ∀ c : Checker, (a.value.check c.scope).type = some v.type →
      let bound := c.bind a.name (a.value.check c.scope).type
      Body.added bound body = Body.added c (Body.inline a.name v body) ∧
        (Body.check bound body).2.errorCount =
          (Body.check c (Body.inline a.name v body)).2.errorCount := by
  refine ⟨fun scope hv ↦ ?_, Body.span_infos_inline a.name v body, ?_⟩
  · have hafter : a.evaluate scope = .ok (scope.bind a.name v) := by
      rw [Assignment.evaluate, hv]
      rfl
    refine ⟨scope.bind a.name v, hafter, ?_⟩
    rw [Body.fst_evaluate, Body.fst_evaluate, Scope.lookup_bind_eq,
      Body.denote_inline a.name v scope.lookup h]
  · intro c ht bound
    have henv : bound.scope.lookup = Env.set c.scope.lookup a.name (some v.type) := by
      rw [← ht]
      exact Scope.lookup_bind_eq ..
    have hadded : Body.added bound body = Body.added c (Body.inline a.name v body) := by
      rw [Body.added_eq, Body.added_eq, henv, Body.added_nodes_inline a.name v c.scope.lookup h]
    refine ⟨hadded, ?_⟩
    rw [Body.errorCount_check, Body.errorCount_check, List.flatMap_def, List.flatMap_def,
      ← Body.added_eq, ← Body.added_eq, hadded]
    rfl

/-- The assignment of a sum of lengths. -/
def Assignment.sum : Assignment :=
  let bare : Info := ⟨.null, []⟩
  ⟨"--x", .operation .add [.literal (.pixel 1) bare, .literal (.pixel 2) bare] bare, bare⟩

/-- A body with the sum in a branch, where it is doubled under another name, and in an operation
that is in error. -/
def Body.doubling : List Stmt :=
  let bare : Info := ⟨.null, []⟩
  [.conditional (.reference "--on" bare)
      [.assignment ⟨"--y", .operation .multiply [.reference "--x" bare, .literal (.scalar 2) bare]
          bare, bare⟩,
        .declaration ⟨"width", .reference "--y" bare, bare⟩]
      .absent bare,
    .declaration ⟨"height", .operation .add [.reference "--x" bare, .reference "--on" bare] bare,
      bare⟩]

theorem Body.passes_inline_doubling :
    let value : Literal := .pixel (1 + 2)
    let inlined := Body.inline "--x" value Body.doubling
    let scope : Scope Literal := (Scope.empty.bind "--on" (.bool true)).bind "--x" (.color "#000")
    let checker : Checker := ⟨Scope.empty.bind "--on" (some .bool), 0⟩
    Body.Spares "--x" Body.doubling ∧ Assignment.sum.value.fold scope = .ok value ∧
      (∃ after, Assignment.sum.evaluate scope = .ok after ∧
        (Body.evaluate after Body.doubling).1 = (Body.evaluate scope inlined).1) ∧
      (Assignment.sum.value.check checker.scope).type = some .pixel ∧
      Body.added (checker.bind "--x" (some .pixel)) Body.doubling = Body.added checker inlined ∧
      (Body.check (checker.bind "--x" (some .pixel)) Body.doubling).2.errorCount =
        (Body.check checker inlined).2.errorCount := by
  intro value inlined scope checker
  have hspares : Body.Spares "--x" Body.doubling := by
    rintro a (_ | ⟨_, ⟨⟩⟩)
    decide
  have htype : (Assignment.sum.value.check checker.scope).type = some .pixel := rfl
  obtain ⟨heval, -, hcheck⟩ := Body.passes_inline Assignment.sum value hspares
  obtain ⟨hadded, hcount⟩ := hcheck checker htype
  rw [htype] at hadded hcount
  exact ⟨hspares, rfl, heval scope rfl, htype, hadded, hcount⟩

end TypedCss

import TypedCss.Proofs.Evaluation.Denotation
import TypedCss.Proofs.Typing.Added

/-!
# Rules do not interfere

The items around a rule are checked and evaluated as if the rule were not there, and rules that
stand side by side may change places (`Sheet.rules_independent`).

For the checker a rule comes to a number of reports (`Rule.snd_check`). They are added to the count,
and no pass looks at the count (`Body.check_count`), so all rules that stand side by side are
checked in one scope (`Item.checkAll_rules`). For the evaluation a rule comes to a rule and leaves
the environment as it is. The items before a rule thus bring those after it into the same
environment with the rule and without it (`Item.denoteAll_append_eq_ok_iff`).
-/

namespace TypedCss

/-! ### Reports are only counted -/

namespace Checker

theorem count_comm (c : Checker) (a b : Nat) : (c.count a).count b = (c.count b).count a := by
  rw [count_count, count_count, Nat.add_comm]

/-- A pass that only adds to the count does so in a frame of its own, too. -/
theorem inFrame_count {β : Type} {f : Checker → β × Checker}
    (h : ∀ c n, f (c.count n) = ((f c).1, (f c).2.count n)) (c : Checker) (n : Nat) :
    (c.count n).inFrame f = ((c.inFrame f).1, (c.inFrame f).2.count n) := by
  rw [inFrame, inFrame, show (c.count n).enter = c.enter.count n from rfl, h]
  rfl

end Checker

theorem Declaration.check_count (d : Declaration) (c : Checker) (n : Nat) :
    d.check (c.count n) = ((d.check c).1, (d.check c).2.count n) := by
  rw [check_eq, check_eq, Checker.scope_count, Checker.count_comm]

theorem Assignment.check_count (a : Assignment) (c : Checker) (n : Nat) :
    a.check (c.count n) = ((a.check c).1, (a.check c).2.count n) := by
  rw [check, check, Checker.scope_count, Checker.count_comm]
  rfl

/-- A body adds to the count, whatever it is, and does not look at it. -/
theorem Body.check_count (body : List Stmt) : ∀ (c : Checker) (n : Nat),
    Body.check (c.count n) body = ((Body.check c body).1, (Body.check c body).2.count n) := by
  induction body using Body.induction with
  | nil => exact fun _ _ ↦ rfl
  | declaration d rest ih =>
    intro c n
    rw [check_cons, check_cons, Stmt.check, Stmt.check, d.check_count, ih]
  | assignment a rest ih =>
    intro c n
    rw [check_cons, check_cons, Stmt.check, Stmt.check, a.check_count, ih]
  | conditional guard body otherwise info rest ihBody ihElse ihRest =>
    intro c n
    have hbody := Checker.inFrame_count (f := (Body.check · body)) ihBody c n
    have helse : ∀ last : Checker, otherwise.check (last.count n) =
        ((otherwise.check last).1, (otherwise.check last).2.count n) := by
      intro last
      cases otherwise with
      | absent => rfl
      | present branch i =>
        rw [ElseBranch.check, ElseBranch.check,
          Checker.inFrame_count (f := (Body.check · branch)) ihElse]
    rw [check_cons, check_cons, Stmt.check_conditional, Stmt.check_conditional, hbody]
    simp only [Checker.scope_count, Checker.count_comm _ n, helse, ihRest]

theorem Item.check_count (i : Item) (c : Checker) (n : Nat) :
    i.check (c.count n) = ((i.check c).1, (i.check c).2.count n) := by
  cases i with
  | assignment a => rw [check, check, a.check_count]
  | rule r =>
    rw [check, check, Rule.check, Rule.check, Checker.inFrame_count (Body.check_count r.body)]

theorem Item.checkAll_count (items : List Item) : ∀ (c : Checker) (n : Nat),
    Item.checkAll (c.count n) items =
      ((Item.checkAll c items).1, (Item.checkAll c items).2.count n) := by
  induction items with
  | nil => exact fun _ _ ↦ rfl
  | cons i rest ih =>
    intro c n
    rw [checkAll_cons, checkAll_cons, i.check_count, ih]

/-! ### What rules are to the checker -/

/-- What checking a rule adds to all its nodes together. -/
def Rule.added (c : Checker) (r : Rule) : List Error :=
  (List.zipWith Info.added r.infos (r.check c).1.infos).flatten

/-- A rule leaves nothing to the checker but the number of its reports. -/
theorem Rule.snd_check (c : Checker) (r : Rule) :
    (r.check c).2 = c.count (r.added c).length := by
  have hinfos : r.infos =
      (⟨.other r.info, c.scope.lookup⟩ :: Body.nodes c.scope.lookup r.body).map (·.node.info) :=
    congrArg (r.info :: ·) (Body.info_nodes r.body c.scope.lookup).symm
  have hcount : (r.check c).2.errorCount = c.errorCount + (r.added c).length := by
    rw [errorCount_check, added, hinfos, zipWith_added_of_isReported (r.reports_check c),
      ← List.flatMap_def]
    rfl
  exact congrArg₂ Checker.mk (r.scope_check c) hcount

/-- Rules that stand side by side are all checked in the same scope, and so are the items after
them. -/
theorem Item.checkAll_rules (c : Checker) (rs : List Rule) (items : List Item) :
    Item.checkAll c (rs.map .rule ++ items) =
      (rs.map (fun r ↦ .rule (r.check c).1) ++ (Item.checkAll c items).1,
        (Item.checkAll c items).2.count (rs.flatMap (Rule.added c)).length) := by
  induction rs with
  | nil => rfl
  | cons r rs ih =>
    have hr : (Item.rule r).check c = (.rule (r.check c).1, c.count (r.added c).length) :=
      congrArg (Prod.mk _) (r.snd_check c)
    rw [List.map_cons, List.cons_append, checkAll_cons, hr, checkAll_count, ih, Checker.count_count,
      List.flatMap_cons, List.length_append, Nat.add_comm (r.added c).length]
    rfl

theorem Item.checkAll_append (xs ys : List Item) : ∀ c : Checker,
    Item.checkAll c (xs ++ ys) =
      ((Item.checkAll c xs).1 ++ (Item.checkAll (Item.checkAll c xs).2 ys).1,
        (Item.checkAll (Item.checkAll c xs).2 ys).2) := by
  induction xs with
  | nil => exact fun _ ↦ rfl
  | cons i rest ih =>
    intro c
    rw [List.cons_append, checkAll_cons, checkAll_cons, ih]
    rfl

theorem Item.length_checkAll (c : Checker) (items : List Item) :
    (Item.checkAll c items).1.length = items.length := by
  have h := congrArg List.length (shape_checkAll items c)
  rwa [List.length_map, List.length_map] at h

/-! ### What rules are to the evaluation -/

/-- `LeadsTo env items rs env'` says that items come to rules and leave an environment. -/
inductive Item.LeadsTo : Env Literal → List Item → List Rule → Env Literal → Prop where
  /-- There are no items. -/
  | nil (env : Env Literal) : LeadsTo env [] [] env
  /-- An assignment sets its variable and leaves no rule. -/
  | assignment {env env' : Env Literal} {a : Assignment} {v : Literal} {items : List Item}
    {rs : List Rule} (hv : a.value.valueIn env = .ok v)
    (h : LeadsTo (env.set a.name v) items rs env') : LeadsTo env (.assignment a :: items) rs env'
  /-- A rule leaves what it comes to and sets no variable. -/
  | rule {env env' : Env Literal} {r new : Rule} {items : List Item} {rs : List Rule}
    (hr : r.ComesTo env new) (h : LeadsTo env items rs env') :
    LeadsTo env (.rule r :: items) (new :: rs) env'

/-- Items leave one rule for each that is among them. -/
theorem Item.LeadsTo.length_eq {env env' : Env Literal} {items : List Item} {rs : List Rule}
    (h : Item.LeadsTo env items rs env') : rs.length = (items.filterMap Item.rule?).length := by
  induction h with
  | nil env => rfl
  | assignment _ _ ih => exact ih
  | rule _ _ ih => exact congrArg (· + 1) ih

/-- Items that stand after others see nothing of these but the environment that they leave. -/
theorem Item.denoteAll_append_eq_ok_iff {xs ys : List Item} : ∀ {env : Env Literal}
    {rs : List Rule}, Item.denoteAll env (xs ++ ys) = .ok rs ↔ ∃ left right env',
      Item.LeadsTo env xs left env' ∧ Item.denoteAll env' ys = .ok right ∧ left ++ right = rs := by
  induction xs with
  | nil =>
    intro env rs
    constructor
    · exact fun h ↦ ⟨[], rs, env, .nil env, h, rfl⟩
    · rintro ⟨left, right, env', ⟨⟩, h, rfl⟩
      exact h
  | cons i rest ih =>
    intro env rs
    cases i with
    | assignment a =>
      rw [List.cons_append, denoteAll_assignment_eq_ok_iff]
      constructor
      · rintro ⟨v, hv, h⟩
        obtain ⟨left, right, env', hl, hr, rfl⟩ := ih.1 h
        exact ⟨left, right, env', .assignment hv hl, hr, rfl⟩
      · rintro ⟨left, right, env', hl, hr, rfl⟩
        cases hl with
        | assignment hv hl => exact ⟨_, hv, ih.2 ⟨left, right, env', hl, hr, rfl⟩⟩
    | rule r =>
      rw [List.cons_append, denoteAll_rule_eq_ok_iff]
      constructor
      · rintro ⟨ds, later, hd, h, rfl⟩
        obtain ⟨left, right, env', hl, hr, rfl⟩ := ih.1 h
        exact ⟨_ :: left, right, env', .rule ⟨ds, hd, rfl⟩ hl, hr, rfl⟩
      · rintro ⟨left, right, env', hl, hr, rfl⟩
        cases hl with
        | rule hn hl =>
          obtain ⟨ds, hd, rfl⟩ := hn
          exact ⟨ds, _, hd, ih.2 ⟨_, right, env', hl, hr, rfl⟩, rfl⟩

/-- Rules that stand side by side all come to something in the same environment, and so do the items
after them. -/
theorem Item.denoteAll_rules_eq_ok_iff {env : Env Literal} {rs : List Rule} {items : List Item} :
    ∀ {out : List Rule}, Item.denoteAll env (rs.map .rule ++ items) = .ok out ↔ ∃ news right,
      List.Forall₂ (Rule.ComesTo env) rs news ∧ Item.denoteAll env items = .ok right ∧
        news ++ right = out := by
  induction rs with
  | nil =>
    intro out
    constructor
    · exact fun h ↦ ⟨[], out, .nil, h, rfl⟩
    · rintro ⟨news, right, ⟨⟩, h, rfl⟩
      exact h
  | cons r rs ih =>
    intro out
    rw [List.map_cons, List.cons_append, denoteAll_rule_eq_ok_iff]
    constructor
    · rintro ⟨ds, later, hd, h, rfl⟩
      obtain ⟨news, right, hn, hr, rfl⟩ := ih.1 h
      exact ⟨_ :: news, right, .cons ⟨ds, hd, rfl⟩ hn, hr, rfl⟩
    · rintro ⟨news, right, hn, hr, rfl⟩
      cases hn with
      | cons hn hns =>
        obtain ⟨ds, hd, rfl⟩ := hn
        exact ⟨ds, _, hd, ih.2 ⟨_, right, hns, hr, rfl⟩, rfl⟩

/-! ### Rules among the items of a sheet -/

namespace Sheet

/-- The sheet with some items between others. -/
def around (before after : List Item) (info : Info) (items : List Item) : Sheet :=
  ⟨before ++ (items ++ after), info⟩

/-- What the items around some rules come to when they are checked, and the checker that the rules
are checked with, do not depend on the rules. -/
theorem exists_check_around (before after : List Item) (info : Info) :
    ∃ (before' after' : List Item) (c : Checker) (n : Nat),
      before'.length = before.length ∧ after'.length = after.length ∧ ∀ rs : List Rule,
        (around before after info (rs.map .rule)).check.1 =
          around before' after' info (rs.map fun r ↦ .rule (r.check c).1) ∧
        (around before after info (rs.map .rule)).check.2.errorCount =
          n + (rs.flatMap (Rule.added c)).length := by
  let c := (Item.checkAll .start before).2
  refine ⟨(Item.checkAll .start before).1, (Item.checkAll c after).1, c,
    (Item.checkAll c after).2.errorCount, Item.length_checkAll _ _, Item.length_checkAll _ _,
    fun rs ↦ ?_⟩
  have hitems := Item.checkAll_append before (rs.map .rule ++ after) .start
  rw [Item.checkAll_rules] at hitems
  exact ⟨congrArg (fun out ↦ Sheet.mk out.1 info) hitems,
    congrArg (fun out ↦ out.2.errorCount) hitems⟩

/-- What the items around some rules come to, and the environment in which the rules come to
something, do not depend on the rules. -/
theorem evaluate_around_eq_ok_iff {before after : List Item} {info : Info} (rs : List Rule)
    {t : Sheet} : (around before after info (rs.map .rule)).evaluate = .ok t ↔
      ∃ left right news env, Item.LeadsTo .empty before left env ∧
        Item.denoteAll env after = .ok right ∧ List.Forall₂ (Rule.ComesTo env) rs news ∧
          around (left.map .rule) (right.map .rule) info.bare (news.map .rule) = t := by
  rw [evaluate_eq_ok_iff]
  constructor
  · rintro ⟨out, hout, rfl⟩
    obtain ⟨left, later, env, hl, hlater, rfl⟩ := Item.denoteAll_append_eq_ok_iff.1 hout
    obtain ⟨news, right, hn, hr, rfl⟩ := Item.denoteAll_rules_eq_ok_iff.1 hlater
    refine ⟨left, right, news, env, hl, hr, hn, ?_⟩
    rw [around, List.map_append, List.map_append]
    rfl
  · rintro ⟨left, right, news, env, hl, hr, hn, rfl⟩
    refine ⟨left ++ (news ++ right), ?_, ?_⟩
    · exact Item.denoteAll_append_eq_ok_iff.2
        ⟨left, _, env, hl, Item.denoteAll_rules_eq_ok_iff.2 ⟨news, right, hn, hr, rfl⟩, rfl⟩
    · rw [around, List.map_append, List.map_append]
      rfl

/-- **Rules are independent.** All items around a rule are checked to the same with the rule and
without it, the reports on their nodes included, and with it as many reports more are counted as are
added in the rule. If two rules that stand side by side change places, they and all items around
them are checked to the same, and as many reports are counted. A sheet that evaluates with a rule
evaluates without it to the same but for what the rule comes to, and with two rules in the other
order to the same with what they come to in the other order. -/
theorem rules_independent (before after : List Item) (info : Info) (r q : Rule) :
    (∃ (before' after' : List Item) (c : Checker),
      before'.length = before.length ∧ after'.length = after.length ∧
      (around before after info [.rule r]).check.1 =
        around before' after' info [.rule (r.check c).1] ∧
      (around before after info []).check.1 = around before' after' info [] ∧
      (around before after info [.rule r]).check.2.errorCount =
        (around before after info []).check.2.errorCount + (r.added c).length ∧
      (around before after info [.rule r, .rule q]).check.1 =
        around before' after' info [.rule (r.check c).1, .rule (q.check c).1] ∧
      (around before after info [.rule q, .rule r]).check.1 =
        around before' after' info [.rule (q.check c).1, .rule (r.check c).1] ∧
      (around before after info [.rule q, .rule r]).check.2.errorCount =
        (around before after info [.rule r, .rule q]).check.2.errorCount) ∧
    (∀ t, (around before after info [.rule r]).evaluate = .ok t →
      ∃ (left right : List Item) (r' : Rule),
        left.length = (before.filterMap Item.rule?).length ∧
        t = around left right info.bare [.rule r'] ∧
        (around before after info []).evaluate = .ok (around left right info.bare [])) ∧
    ∀ t, (around before after info [.rule r, .rule q]).evaluate = .ok t →
      ∃ (left right : List Item) (r' q' : Rule),
        left.length = (before.filterMap Item.rule?).length ∧
        t = around left right info.bare [.rule r', .rule q'] ∧
        (around before after info [.rule q, .rule r]).evaluate =
          .ok (around left right info.bare [.rule q', .rule r']) := by
  refine ⟨?_, ?_, ?_⟩
  · obtain ⟨before', after', c, n, hb, ha, h⟩ := exists_check_around before after info
    obtain ⟨hnone, hcountNone⟩ := h []
    obtain ⟨hr, hcountR⟩ := h [r]
    obtain ⟨hrq, hcountRq⟩ := h [r, q]
    obtain ⟨hqr, hcountQr⟩ := h [q, r]
    refine ⟨before', after', c, hb, ha, hr, hnone, ?_, hrq, hqr, ?_⟩
    · refine hcountR.trans ?_
      rw [show (around before after info []).check.2.errorCount = n from hcountNone,
        List.flatMap_singleton]
    · refine hcountQr.trans (Eq.trans ?_ hcountRq.symm)
      simp only [List.flatMap_cons, List.flatMap_nil, List.append_nil, List.length_append,
        Nat.add_comm]
  · intro t ht
    obtain ⟨left, right, _, env, hl, hd, hn, rfl⟩ := (evaluate_around_eq_ok_iff [r]).1 ht
    cases hn with
    | cons _ hn =>
      cases hn with
      | nil =>
        refine ⟨left.map .rule, right.map .rule, _, ?_, rfl, ?_⟩
        · rw [List.length_map, hl.length_eq]
        · exact (evaluate_around_eq_ok_iff []).2 ⟨left, right, [], env, hl, hd, .nil, rfl⟩
  · intro t ht
    obtain ⟨left, right, _, env, hl, hd, hn, rfl⟩ := (evaluate_around_eq_ok_iff [r, q]).1 ht
    cases hn with
    | cons hr hn =>
      cases hn with
      | cons hq hn =>
        cases hn with
        | nil =>
          refine ⟨left.map .rule, right.map .rule, _, _, ?_, rfl, ?_⟩
          · rw [List.length_map, hl.length_eq]
          · exact (evaluate_around_eq_ok_iff [q, r]).2
              ⟨left, right, _, env, hl, hd, .cons hq (.cons hr .nil), rfl⟩

/-- A rule that sets `--c`, which is set before it, to something else for itself, and one that reads
`--c`. -/
def rebinding : List Item × Rule × Rule :=
  let bare : Info := ⟨.null, []⟩
  ([.assignment ⟨"--c", .literal (.color "#abc") bare, bare⟩],
    ⟨[.tag "p"],
      [.assignment ⟨"--c", .literal (.bool true) bare, bare⟩,
        .conditional (.reference "--c" bare)
          [.declaration ⟨"color", .literal (.color "#000") bare, bare⟩] .absent bare],
      bare⟩,
    ⟨[.class "x"], [.declaration ⟨"color", .reference "--c" bare, bare⟩], bare⟩)

theorem rules_independent_rebinding :
    let (before, r, q) := rebinding
    (∃ t, (around before [] .null [.rule r]).evaluate = .ok t ∧
      ∃ (left right : List Item) (r' : Rule), left.length = 0 ∧
        t = around left right .null [.rule r'] ∧
        (around before [] .null []).evaluate = .ok (around left right .null [])) ∧
    ∃ t, (around before [] .null [.rule r, .rule q]).evaluate = .ok t ∧
      ∃ (left right : List Item) (r' q' : Rule), left.length = 0 ∧
        t = around left right .null [.rule r', .rule q'] ∧
        (around before [] .null [.rule q, .rule r]).evaluate =
          .ok (around left right .null [.rule q', .rule r']) :=
  ⟨⟨_, rfl, (rules_independent rebinding.1 [] .null rebinding.2.1 rebinding.2.2).2.1 _ rfl⟩,
    ⟨_, rfl, (rules_independent rebinding.1 [] .null rebinding.2.1 rebinding.2.2).2.2 _ rfl⟩⟩

end Sheet

end TypedCss

import TypedCss.Compile
import TypedCss.Proofs.Grammar.Nodes
import TypedCss.Proofs.Grammar.Source
import TypedCss.Proofs.Typing.WellTyped

/-!
# When compiling succeeds

A source is compiled if it passes the check and evaluates to a sheet, which is what is written
(`compile_eq_ok_some_iff`). Nothing is reported on a sheet by reading it, so that it is well typed
is all that the check asks for (`check_eq_ok_iff`).
-/

namespace TypedCss

/-- Nothing is reported on a sheet by reading it. -/
theorem Parse.hasErrors_sheet {source file : String} {s : Sheet}
    (h : Parse.sheet source file = .ok s) : s.hasErrors = false := by
  obtain ⟨x, -, -, rfl⟩ := sheet_eq_ok_iff.1 h
  rw [Sheet.hasErrors_eq_any, List.any_eq_false]
  intro i hi
  rw [Info.isClean, (x.infos_tree file i hi).1]
  decide

/-- A source that is read passes the check exactly if it is well typed, and then it is passed on as
it was read. -/
theorem check_eq_ok_iff {source : String} {config : Config} {s : Sheet} :
    check source config = .ok s ↔
      Parse.sheet source config.fileName = .ok s ∧ s.WellTyped := by
  rw [check]
  cases hp : Parse.sheet source config.fileName with
  | error e => exact iff_of_false nofun nofun
  | ok read =>
    have hiff : read.check.1.hasErrors = false ↔ read.WellTyped := by
      rw [Sheet.hasErrors_check_eq_false_iff, Parse.hasErrors_sheet hp]
      exact and_iff_right rfl
    cases hc : read.check.1.hasErrors with
    | true =>
      refine iff_of_false (by simp [hc]) ?_
      rintro ⟨⟨⟩, hw⟩
      rw [hiff.2 hw] at hc
      cases hc
    | false =>
      simp only [hc, Bool.false_eq_true, ↓reduceIte]
      rw [Sheet.check_eq_self hc]
      constructor
      · rintro ⟨⟩
        exact ⟨rfl, hiff.1 hc⟩
      · rintro ⟨⟨⟩, -⟩
        rfl

/-- A source is compiled to a text exactly if it passes the check and evaluates to a sheet with that
text, and more was asked for than a check. -/
theorem compile_eq_ok_some_iff {source css : String} {config : Config} :
    compile source config = .ok (some css) ↔ config.checkOnly = false ∧ ∃ s t,
      check source config = .ok s ∧ s.evaluate = .ok t ∧ t.css config.indent = css := by
  rw [compile]
  cases hs : check source config with
  | error es => exact iff_of_false nofun nofun
  | ok s =>
    cases hc : config.checkOnly with
    | true => exact iff_of_false nofun nofun
    | false =>
      simp only [Bool.false_eq_true, ↓reduceIte, true_and]
      cases he : s.evaluate with
      | error e =>
        refine iff_of_false nofun ?_
        rintro ⟨_, _, ⟨⟩, ht, -⟩
        rw [he] at ht
        cases ht
      | ok t =>
        constructor
        · rintro ⟨⟩
          exact ⟨s, t, rfl, he, rfl⟩
        · rintro ⟨_, _, ⟨⟩, ht, rfl⟩
          rw [he] at ht
          cases ht
          rfl

end TypedCss

import TypedCss.Proofs.Compile.Success
import TypedCss.Proofs.Printing.Sheet
import TypedCss.Proofs.Printing.Source

/-!
# Compiling what was compiled

The text that a source is compiled to is a source itself, and it is compiled to itself
(`compile_css`). It is the text of a normal sheet, so it is read as a sheet of the same shape, which
is normal too: there is nothing to be found by checking it, and nothing to be changed by evaluating
it.
-/

namespace TypedCss

/-- A normal sheet that can be printed is compiled from its text to its text. -/
theorem Sheet.IsNormal.compile_css_eq {t : Sheet} (h : t.IsNormal) (hp : t.IsPrintable)
    {config : Config} (hcheck : config.checkOnly = false) :
    compile (t.css config.indent) config = .ok (some (t.css config.indent)) := by
  obtain ⟨u, hread, hshape⟩ := Parse.exists_sheet_css hp config.indent config.fileName
  have hu : u.IsNormal := h.of_shape_eq hshape
  have htext : (u.relabel Info.bare).css config.indent = t.css config.indent := by
    rw [Sheet.shape_eq_relabel, Sheet.shape_eq_relabel] at hshape
    rw [Sheet.css_relabel, ← Sheet.css_relabel (fun _ ↦ .null) config.indent u, hshape,
      Sheet.css_relabel]
  exact compile_eq_ok_some_iff.2
    ⟨hcheck, u, _, check_eq_ok_iff.2 ⟨hread, hu.wellTyped⟩, hu.isResolved.evaluate_eq, htext⟩

/-- The text that a source is compiled to is compiled to itself, with the same options, if the
numbers in the sheet that the source evaluates to are finite and have no sign. -/
theorem compile_css {source css : String} {config : Config} {s t : Sheet}
    (h : compile source config = .ok (some css)) (hs : check source config = .ok s)
    (ht : s.evaluate = .ok t) (hv : ∀ v ∈ t.literals, v.IsPlain) :
    compile css config = .ok (some css) := by
  obtain ⟨hcheck, s', t', hs', ht', rfl⟩ := compile_eq_ok_some_iff.1 h
  obtain rfl : s = s' := Except.ok.inj (hs.symm.trans hs')
  obtain rfl : t = t' := Except.ok.inj (ht.symm.trans ht')
  obtain ⟨hread, hw⟩ := check_eq_ok_iff.1 hs
  have hc : s.check.1.hasErrors = false :=
    s.hasErrors_check_eq_false_iff.2 ⟨Parse.hasErrors_sheet hread, hw⟩
  exact (Sheet.isNormal_of_evaluate hc ht).compile_css_eq
    (Parse.isPrintable_evaluate hread hc ht hv) hcheck

/-- A source with a variable, a sum and a branch, none of which is left when it is compiled. -/
def branchingSource : String :=
  "--w: 0.1px + 0.2px; a, #0 \x7b if true \x7b width: --w; \x7d color: #fff; \x7d"

/-- What it is compiled to. -/
def branchingText : String :=
  "a, #0 \x7b\n  width: 0.30000000000000004px;\n  color: #fff;\n\x7d\n"

theorem compile_css_branching : ∃ s t,
    compile branchingSource .standard = .ok (some branchingText) ∧
      check branchingSource .standard = .ok s ∧ s.evaluate = .ok t ∧
      (∀ v ∈ t.literals, v.IsPlain) ∧
      compile branchingText .standard = .ok (some branchingText) := by
  have h : compile branchingSource .standard = .ok (some branchingText) := by decide +kernel
  have hplain : (do
      let s ← (check branchingSource .standard).toOption
      let t ← s.evaluate.toOption
      pure (decide (∀ v ∈ t.literals, v.IsPlain))) = some true := by decide +kernel
  obtain ⟨-, s, t, hs, ht, -⟩ := compile_eq_ok_some_iff.1 h
  have hv : ∀ v ∈ t.literals, v.IsPlain := by
    rw [hs] at hplain
    change (do
      let t ← s.evaluate.toOption
      pure (decide (∀ v ∈ t.literals, v.IsPlain))) = some true at hplain
    rw [ht] at hplain
    exact of_decide_eq_true (Option.some.inj hplain)
  exact ⟨s, t, h, hs, ht, hv, compile_css h hs ht hv⟩

end TypedCss

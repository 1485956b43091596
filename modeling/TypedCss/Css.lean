import TypedCss.Sheet
import TypedCss.Text.Padding

/-!
# Layout

The text of a sheet: its rules one after the other, each with its declarations on lines of their
own. Only evaluated sheets are written without loss; of others, the text shows the declarations
that stand in a rule's body itself, with the expressions that they were given.

An indent of any number of spaces has its text. It is not written, though, if declarations are to be
indented by more spaces than padding can have (`Sheet.overflows_iff`).
-/

namespace TypedCss

/-- A declaration on a line of its own, after `indent` spaces. -/
def Declaration.css (indent : Nat) (d : Declaration) : String :=
  String.ofList (List.replicate indent ' ') ++ d.property ++ ": " ++ d.value.text ++ ";\n"

/-- A rule with its declarations. -/
def Rule.css (indent : Nat) (r : Rule) : String :=
  ", ".intercalate (r.selectors.map Selector.text) ++ " \x7b\n" ++
    String.join (r.declarations.map (·.css indent)) ++ "\x7d\n"

/-- The rules of a sheet. -/
def Sheet.css (indent : Nat) (s : Sheet) : String := String.join (s.rules.map (·.css indent))

/-- Whether there are declarations to indent by more than padding can have. -/
def Sheet.overflows (indent : Nat) (s : Sheet) : Bool :=
  decide (Text.maxWidth < indent) && s.rules.any fun r ↦ !r.declarations.isEmpty

/-- A declaration is written behind a margin of the indent's width, where there is one. -/
theorem Declaration.css_of_padLeft? {indent : Nat} {margin : String}
    (h : Text.padLeft? ' ' indent "" = some margin) (d : Declaration) :
    d.css indent = margin ++ d.property ++ ": " ++ d.value.text ++ ";\n" := by
  rw [Text.padLeft?] at h
  split at h
  · rw [← Option.some.inj h, css, String.append_empty]
    rfl
  · cases h

/-- A sheet overflows exactly if it has a declaration for which there is no such margin. -/
theorem Sheet.overflows_iff {indent : Nat} {s : Sheet} : s.overflows indent = true ↔
    ∃ r ∈ s.rules, r.declarations ≠ [] ∧ Text.padLeft? ' ' indent "" = none := by
  simp only [overflows, Bool.and_eq_true, decide_eq_true_eq, List.any_eq_true, Bool.not_eq_true',
    List.isEmpty_eq_false_iff, Text.padLeft?_eq_none_iff]
  exact ⟨fun ⟨hw, r, hr, hd⟩ ↦ ⟨r, hr, hd, hw⟩, fun ⟨r, hr, hd, hw⟩ ↦ ⟨hw, r, hr, hd⟩⟩

/-- The number of spaces before a declaration, unless another one is asked for. -/
def defaultIndent : Nat := 2

end TypedCss

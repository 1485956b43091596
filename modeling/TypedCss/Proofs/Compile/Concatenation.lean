import TypedCss.Proofs.Compile.Success
import TypedCss.Proofs.Evaluation.Independence

/-!
# Compiling two sources as one

Put after another source, on a line of its own, a source is compiled to what it is compiled to by
itself (`compile_newline`). It stands further on then, which is not shown in any text that is
written, and it knows the variables of the other source. Those make no difference, since it is well
typed and comes to something without them: of every variable that it mentions it has a binding of
its own.
-/

namespace TypedCss

/-- What is written of rules is written of them one by one, and does not show what their nodes
carry. -/
theorem Sheet.css_append_relabel (f : Info → Info) (indent : Nat) (rs later : List Rule)
    (i j k : Info) : Sheet.css indent ⟨(rs ++ later.map (Rule.relabel f)).map .rule, i⟩ =
      Sheet.css indent ⟨rs.map .rule, j⟩ ++ Sheet.css indent ⟨later.map .rule, k⟩ := by
  rw [css, css, css, rules_map_rule, rules_map_rule, rules_map_rule, List.map_append,
    String.join_append, List.map_map]
  simp only [Function.comp_def, Rule.css_relabel]

/-- Two sources that are compiled with the same options are compiled to the texts of both, one after
the other, if a newline is put between them. -/
theorem compile_newline {a b ca cb : String} {config : Config}
    (ha : compile a config = .ok (some ca)) (hb : compile b config = .ok (some cb)) :
    compile (a ++ "\n" ++ b) config = .ok (some (ca ++ cb)) := by
  obtain ⟨hcheck, s, s', hs, hs', rfl⟩ := compile_eq_ok_some_iff.1 ha
  obtain ⟨-, t, t', ht, ht', rfl⟩ := compile_eq_ok_some_iff.1 hb
  obtain ⟨hsr, hsw⟩ := check_eq_ok_iff.1 hs
  obtain ⟨htr, htw⟩ := check_eq_ok_iff.1 ht
  obtain ⟨rs, hsd, rfl⟩ := Sheet.evaluate_eq_ok_iff.1 hs'
  obtain ⟨later, htd, rfl⟩ := Sheet.evaluate_eq_ok_iff.1 ht'
  obtain ⟨info, hread⟩ := Parse.sheet_newline hsr htr
  generalize Relocation.shift (Text.byteLength a.toList + 1) = r at hread
  -- The moved items of the second source are well typed and come to its rules, moved.
  have htyped : Item.AllWellTyped .empty (t.items.map (Item.relabel (Info.move r))) :=
    (Item.allWellTyped_relabel_iff (Info.move r) t.items).2 htw
  have hrules : Item.denoteAll .empty (t.items.map (Item.relabel (Info.move r))) =
      .ok (later.map (Rule.relabel (Info.move r))) := by
    rw [Item.denoteAll_relabel (Info.relabels_move r), htd]
    rfl
  refine compile_eq_ok_some_iff.2 ⟨hcheck, _, _, check_eq_ok_iff.2 ⟨hread, htyped.append hsw⟩,
    Sheet.evaluate_eq_ok_iff.2 ⟨_, Item.denoteAll_append hrules hsd, rfl⟩, ?_⟩
  rw [Sheet.css_append_relabel]

/-- Both sources set `--c`, to values of two types. The first one ends in a comment, and the second
one reads the variable in a guard. -/
theorem compile_newline_shared :
    compile "--c: #fff; p \x7b color: --c; \x7d // p" .standard =
        .ok (some "p \x7b\n  color: #fff;\n\x7d\n") ∧
      compile "--c: true; q \x7b if --c \x7b width: 0.1px * 3; \x7d \x7d" .standard =
        .ok (some "q \x7b\n  width: 0.30000000000000004px;\n\x7d\n") ∧
      compile ("--c: #fff; p \x7b color: --c; \x7d // p" ++ "\n" ++
          "--c: true; q \x7b if --c \x7b width: 0.1px * 3; \x7d \x7d") .standard =
        .ok (some ("p \x7b\n  color: #fff;\n\x7d\n" ++
          "q \x7b\n  width: 0.30000000000000004px;\n\x7d\n")) := by
  have ha : compile "--c: #fff; p \x7b color: --c; \x7d // p" .standard =
      .ok (some "p \x7b\n  color: #fff;\n\x7d\n") := by
    decide +kernel
  have hb : compile "--c: true; q \x7b if --c \x7b width: 0.1px * 3; \x7d \x7d" .standard =
      .ok (some "q \x7b\n  width: 0.30000000000000004px;\n\x7d\n") := by
    decide +kernel
  exact ⟨ha, hb, compile_newline ha hb⟩

end TypedCss

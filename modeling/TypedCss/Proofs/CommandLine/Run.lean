import TypedCss.CommandLine.Run
import TypedCss.Proofs.Compile.Failure

/-!
# All or nothing

A call leaves its result where it is to be, or nothing at all: `Invocation.Outcome` says how a call
ends, given what its input is and what the compiler makes of it with the options that were asked for
(`Invocation.Configures`). A result is printed, or it is what the output holds afterwards, be it a
new file, one that was there or the input itself. If there is no result, all that is printed is
reports, and no file changes.

Of the system it is supposed only that what is read is what the file holds, and that a file holds
what was written to it if the write went well (`FileSystem.Lawful`). A write that did not go well can
leave anything.

A call gives up in the middle of its reports if there is no room for the arrow of one
(`run_wide`).
-/

namespace TypedCss.CommandLine

/-! ### Options -/

/-- `EndsIn path name` says that `name` is the last part of a path, apart from empty parts and `.`,
and names a file. -/
def EndsIn (path name : String) : Prop :=
  name ≠ "" ∧ name ≠ "." ∧ name ≠ ".." ∧ ∃ before after : List (List Char),
    path.toList.splitOn '/' = before ++ name.toList :: after ∧
      ∀ part ∈ after, part = [] ∨ part = ['.']

/-- Looking for the last part that counts finds it. -/
theorem findRev?_eq_some_iff {parts : List (List Char)} {last : List Char} :
    parts.findRev? (fun part ↦ part != [] && part != ['.']) = some last ↔
      last ≠ [] ∧ last ≠ ['.'] ∧ ∃ before after, parts = before ++ last :: after ∧
        ∀ part ∈ after, part = [] ∨ part = ['.'] := by
  rw [List.findRev?_eq_find?_reverse, List.find?_eq_some_iff_append, ← and_assoc]
  refine and_congr (by simp) ⟨?_, ?_⟩
  · rintro ⟨after, before, hsplit, hafter⟩
    exact ⟨before.reverse, after.reverse, by simpa using congrArg List.reverse hsplit,
      by simpa [or_iff_not_imp_left] using hafter⟩
  · rintro ⟨before, after, rfl, hafter⟩
    exact ⟨after.reverse, before.reverse, by simp,
      by simpa [or_iff_not_imp_left] using hafter⟩

/-- A path ends in the name of the file that it leads to. -/
theorem endsIn_iff {path name : String} : EndsIn path name ↔ fileName? path = some name := by
  have hname (text : String) : name = text ↔ name.toList = text.toList := String.toList_inj.symm
  have hiff : EndsIn path name ↔ (path.toList.splitOn '/').findRev?
      (fun part ↦ part != [] && part != ['.']) = some name.toList ∧ name.toList ≠ ['.', '.'] := by
    rw [EndsIn, findRev?_eq_some_iff, Ne, Ne, Ne, hname, hname, hname]
    exact ⟨fun ⟨he, hd, hdd, hs⟩ ↦ ⟨⟨he, hd, hs⟩, hdd⟩, fun ⟨⟨he, hd, hs⟩, hdd⟩ ↦ ⟨he, hd, hdd, hs⟩⟩
  rw [hiff, fileName?]
  split
  · rename_i hup
    rw [hup]
    refine iff_of_false ?_ nofun
    rintro ⟨hfind, hne⟩
    exact hne (Option.some.inj hfind).symm
  · rename_i hnone
    rw [hnone]
    exact iff_of_false (fun h ↦ nomatch h.1) nofun
  · rename_i last hne hfind
    rw [hfind, Option.some.injEq, Option.some.injEq, ← String.toList_inj, String.toList_ofList]
    refine ⟨And.left, fun h ↦ ⟨h, fun hup ↦ hne (h.trans hup)⟩⟩

/-- `i.Configures config` says that these are the options that a call asks for. -/
structure Invocation.Configures (i : Invocation) (config : Config) : Prop where
  /-- More than a check is done unless only a check was asked for. -/
  checkOnly_eq : config.checkOnly = i.check
  /-- The indent is the one that was given, or two spaces. -/
  indent_eq : i.indent = some config.indent ∨ i.indent = none ∧ config.indent = 2
  /-- The source has the name that its path ends in, or is called the standard input. -/
  fileName_eq : EndsIn i.input config.fileName ∨
    (∀ name, ¬EndsIn i.input name) ∧ config.fileName = "stdin"

theorem Invocation.configures_config (i : Invocation) : i.Configures i.config where
  checkOnly_eq := rfl
  indent_eq := by
    rw [config]
    cases i.indent with
    | none => exact .inr ⟨rfl, rfl⟩
    | some n => exact .inl rfl
  fileName_eq := by
    rw [config]
    cases h : fileName? i.input with
    | none =>
      refine .inr ⟨fun name hname ↦ ?_, rfl⟩
      cases h.symm.trans (endsIn_iff.1 hname)
    | some name => exact .inl (endsIn_iff.2 h)

/-! ### Reports -/

/-- All reports are there, or there are some up to one that is missing. -/
theorem reports_cases (reports : List (Option String)) :
    (∃ texts : List String, reports = texts.map some) ∨
      ∃ (texts : List String) (others : List (Option String)),
        reports = texts.map some ++ none :: others := by
  induction reports with
  | nil => exact .inl ⟨[], rfl⟩
  | cons report reports ih =>
    cases report with
    | none => exact .inr ⟨[], reports, rfl⟩
    | some text =>
      rcases ih with ⟨texts, rfl⟩ | ⟨texts, others, rfl⟩
      · exact .inl ⟨text :: texts, rfl⟩
      · exact .inr ⟨text :: texts, others, rfl⟩

/-- Reports that are all there are printed one after the other. -/
theorem Answer.ofReports_map_some (printed : String) (texts : List String) :
    ofReports printed (texts.map some) =
      failure (printed ++ String.join (texts.map (· ++ "\n"))) := by
  induction texts generalizing printed with
  | nil => exact congrArg failure String.append_empty.symm
  | cons text texts ih =>
    rw [List.map_cons, ofReports, ih, List.map_cons, String.join_cons, ← String.append_assoc,
      ← String.append_assoc]

/-- Where a report is missing, those before it have been printed. -/
theorem Answer.ofReports_append_none (printed : String) (texts : List String)
    (reports : List (Option String)) :
    ofReports printed (texts.map some ++ none :: reports) =
      abort (printed ++ String.join (texts.map (· ++ "\n"))) := by
  induction texts generalizing printed with
  | nil => exact congrArg abort String.append_empty.symm
  | cons text texts ih =>
    rw [List.map_cons, List.cons_append, ofReports, ih, List.map_cons, String.join_cons,
      ← String.append_assoc, ← String.append_assoc]

/-! ### Files -/

/-- The bytes that a text is read from are the ones that it is written as. -/
theorem fromUTF8?_eq_some_iff {bytes : ByteArray} {text : String} :
    String.fromUTF8? bytes = some text ↔ bytes = text.toUTF8 := by
  constructor
  · intro h
    rw [String.fromUTF8?] at h
    split at h
    · rw [← Option.some.inj h]
      rfl
    · cases h
  · rintro rfl
    exact dif_pos text.isValidUTF8

variable {σ : Type}

/-- What is supposed of the files of a system. -/
structure FileSystem.Lawful (files : FileSystem σ) : Prop where
  /-- What is read is what the file holds. -/
  content?_of_read? {s : σ} {path : String} {bytes : ByteArray} :
    files.read? s path = some bytes → files.content? s path = some bytes
  /-- A write that went well has replaced what the file held, or made a file that holds it. -/
  content?_of_write {s s' : σ} {path : String} {bytes : ByteArray} :
    files.write s path bytes = (true, s') → files.content? s' path = some bytes

/-! ### Calls -/

namespace Invocation

/-- `i.Outcome files config before answer after` says that a call can end with an answer, and leave
the files of a system as they are `after`, if these are its options. -/
inductive Outcome (i : Invocation) (files : FileSystem σ) (config : Config) (before : σ) :
    Answer → σ → Prop where
  /-- The input cannot be read. -/
  | unreadable (hread : files.read? before i.input = none) :
    Outcome i files config before ⟨1, "", ""⟩ before
  /-- The input is not there, or it is no text. -/
  | textless (hsource : ∀ source : String, files.content? before i.input ≠ some source.toUTF8) :
    Outcome i files config before ⟨1, "", ""⟩ before
  /-- The compiler finds errors, which are all printed. -/
  | rejected {source : String} {es : List Error} {texts : List String}
    (hsource : files.content? before i.input = some source.toUTF8)
    (hcompile : compile source config = .error es)
    (hreports : es.map (·.report? source config.fileName) = texts.map some) :
    Outcome i files config before ⟨1, "", String.join (texts.map (· ++ "\n"))⟩ before
  /-- The compiler finds errors, which are printed up to the first that has no report. -/
  | abandoned {source : String} {es : List Error} {texts : List String}
    {others : List (Option String)} (hsource : files.content? before i.input = some source.toUTF8)
    (hcompile : compile source config = .error es)
    (hreports : es.map (·.report? source config.fileName) = texts.map some ++ none :: others) :
    Outcome i files config before ⟨101, "", String.join (texts.map (· ++ "\n"))⟩ before
  /-- The compiler finds no errors, and no more was asked for. -/
  | checked {source : String} (hsource : files.content? before i.input = some source.toUTF8)
    (hcompile : compile source config = .ok none) : Outcome i files config before ⟨0, "", ""⟩ before
  /-- The result would have to be padded too far, which takes an indent past the limit. -/
  | overflowing {source css : String}
    (hsource : files.content? before i.input = some source.toUTF8)
    (hcompile : compile source config = .ok (some css))
    (hoverflows : overflows source config = true) (hindent : Text.maxWidth < config.indent) :
    Outcome i files config before ⟨101, "", ""⟩ before
  /-- The result is printed. -/
  | printed {source css : String} (hsource : files.content? before i.input = some source.toUTF8)
    (hcompile : compile source config = .ok (some css))
    (hoverflows : overflows source config = false) (houtput : i.output = none) :
    Outcome i files config before ⟨0, css, ""⟩ before
  /-- The result is written, and the output holds it. -/
  | written {source css path : String} {after : σ}
    (hsource : files.content? before i.input = some source.toUTF8)
    (hcompile : compile source config = .ok (some css))
    (hoverflows : overflows source config = false) (houtput : i.output = some path)
    (hwrite : files.write before path css.toUTF8 = (true, after))
    (hresult : files.content? after path = some css.toUTF8) :
    Outcome i files config before ⟨0, "", ""⟩ after
  /-- The result cannot be written. -/
  | unwritten {source css path : String} {after : σ}
    (hsource : files.content? before i.input = some source.toUTF8)
    (hcompile : compile source config = .ok (some css))
    (hoverflows : overflows source config = false) (houtput : i.output = some path)
    (hwrite : files.write before path css.toUTF8 = (false, after)) :
    Outcome i files config before ⟨1, "", ""⟩ after

end Invocation

/-- A compilation that is indented no further than padding goes does not overflow. -/
theorem lt_of_overflows {source : String} {config : Config} (h : overflows source config = true) :
    Text.maxWidth < config.indent := by
  rw [overflows] at h
  split at h
  · cases h
  · rw [Bool.and_eq_true] at h
    obtain ⟨-, h⟩ := h
    split at h
    · cases h
    · obtain ⟨-, -, -, hmargin⟩ := Sheet.overflows_iff.1 h
      exact Text.padLeft?_eq_none_iff.1 hmargin

/-- A call ends as it is to, whatever the files of the system are: it prints or writes the result, or
else it prints nothing but reports and changes nothing. -/
theorem run_all_or_nothing {files : FileSystem σ} (hfiles : files.Lawful) (i : Invocation)
    (before : σ) : ∃ config, i.Configures config ∧
      i.Outcome files config before (i.run files before).1 (i.run files before).2 := by
  refine ⟨i.config, i.configures_config, ?_⟩
  rw [Invocation.run, Invocation.respond]
  cases hread : files.read? before i.input with
  | none => exact .unreadable hread
  | some bytes =>
    have hcontent := hfiles.content?_of_read? hread
    rw [Option.bind_some]
    cases htext : String.fromUTF8? bytes with
    | none =>
      refine .textless fun source hsource ↦ ?_
      obtain rfl := Option.some.inj (hcontent.symm.trans hsource)
      cases htext.symm.trans (fromUTF8?_eq_some_iff.2 rfl)
    | some source =>
      obtain rfl := fromUTF8?_eq_some_iff.1 htext
      dsimp only
      cases hcompile : compile source i.config with
      | error es =>
        dsimp only
        rcases reports_cases (es.map (·.report? source i.config.fileName)) with
          ⟨texts, hreports⟩ | ⟨texts, others, hreports⟩
        · rw [hreports, Answer.ofReports_map_some, String.empty_append]
          exact .rejected hcontent hcompile hreports
        · rw [hreports, Answer.ofReports_append_none, String.empty_append]
          exact .abandoned hcontent hcompile hreports
      | ok result =>
        cases result with
        | none => exact .checked hcontent hcompile
        | some css =>
          cases hoverflows : overflows source i.config with
          | true => exact .overflowing hcontent hcompile hoverflows (lt_of_overflows hoverflows)
          | false =>
            simp only [Bool.false_eq_true, ↓reduceIte]
            cases houtput : i.output with
            | none => exact .printed hcontent hcompile hoverflows houtput
            | some path =>
              dsimp only
              cases hwrite : files.write before path css.toUTF8 with
              | mk done after =>
                cases done with
                | true =>
                  exact .written hcontent hcompile hoverflows houtput hwrite
                    (hfiles.content?_of_write hwrite)
                | false => exact .unwritten hcontent hcompile hoverflows houtput hwrite

/-- The files of a folder, by their paths, of which no two lead to the same file. -/
def FileSystem.ofPaths : FileSystem (List (String × ByteArray)) where
  content? files path := files.lookup path
  read? files path := files.lookup path
  write files path bytes := (true, (path, bytes) :: files.filter fun file ↦ file.1 != path)

theorem FileSystem.lawful_ofPaths : FileSystem.ofPaths.Lawful where
  content?_of_read? h := h
  content?_of_write h := by
    rw [← (Prod.mk.inj h).2]
    exact List.lookup_cons_self

/-- A call that writes over its input, with an indent of its own. -/
theorem run_all_or_nothing_in_place :
    let i : Invocation := ⟨"styles/a.css", some "styles/a.css", false, some 4⟩
    let before := [("styles/a.css", "p \x7b color: #fff; \x7d".toUTF8)]
    FileSystem.ofPaths.Lawful ∧
      (∃ config, i.Configures config ∧ i.Outcome FileSystem.ofPaths config before
        (i.run FileSystem.ofPaths before).1 (i.run FileSystem.ofPaths before).2) ∧
      i.run FileSystem.ofPaths before =
        (⟨0, "", ""⟩, [("styles/a.css", "p \x7b\n    color: #fff;\n\x7d\n".toUTF8)]) := by
  intro i before
  exact ⟨FileSystem.lawful_ofPaths, run_all_or_nothing FileSystem.lawful_ofPaths i before,
    by decide +kernel⟩

/-- A call gives up where there is no room for the arrow of a report. -/
theorem run_wideSource {n : ℕ} (hlow : Text.maxWidth ≤ n) (hhigh : n < 2 ^ 32) :
    (⟨"a.css", none, false, none⟩ : Invocation).run FileSystem.ofPaths
      [("a.css", (wideSource n).toUTF8)] =
        (.abort "", [("a.css", (wideSource n).toUTF8)]) := by
  have hread : FileSystem.ofPaths.read? [("a.css", (wideSource n).toUTF8)] "a.css" =
      some (wideSource n).toUTF8 := by
    show List.lookup "a.css" [("a.css", (wideSource n).toUTF8)] = _
    exact List.lookup_cons_self
  rw [Invocation.run, Invocation.respond, hread, Option.bind_some, fromUTF8?_eq_some_iff.2 rfl]
  have hpos : 0 < n := Nat.lt_of_lt_of_le (by decide) hlow
  simp only [compile_wideSource hpos, List.map_cons, report?_wideSource hlow hhigh, Answer.ofReports]

/-- A call on a source whose report has no room for its arrow does not end as failing calls do. -/
theorem run_wide :
    let i : Invocation := ⟨"a.css", none, false, none⟩
    let before := [("a.css", (wideSource 65535).toUTF8)]
    (∃ es, compile (wideSource 65535) i.config = .error es) ∧
      (i.run FileSystem.ofPaths before).1.exitCode ≠ 1 := by
  intro i before
  have hrun : i.run FileSystem.ofPaths before = (.abort "", before) :=
    run_wideSource (Nat.le_refl _) (by decide)
  refine ⟨⟨_, compile_wideSource (by decide) i.config⟩, ?_⟩
  rw [hrun]
  decide

end TypedCss.CommandLine

import Resumable.Command.Execute
import Resumable.Proofs.Toml.Lines

/-!
# Settings that are printed and loaded again

The document of settings is a TOML file that names every setting, so that loading it gives the same
settings back, whatever is built in and whatever texts they hold. That the keys come out in the
form in which they are looked up, in lower case and as names of one step, is what makes the two
ends meet. There is one limit. Numbers in TOML are signed and the first request's number is not:
settings with a number past the signed range can be loaded from the environment but not printed.

## The model

* `Settings.lines`: the lines of the document of settings.

## What is proved

* `read?_document`: the document is read as the tree of the settings.
* `overlay_toTree`: that tree takes the place of everything built in.
* `printed_reloads`: settings that were loaded are printed and load again as they were if their
  first number is in the signed range, and are not printed otherwise.
-/

namespace Resumable

namespace Settings

open Toml

variable {s : Settings}

/-! ### The document of settings -/

/-- The lines of the document of settings. -/
def lines (s : Settings) : List Line :=
  [.table ⟨[], "engine"⟩,
    .entry ⟨[], "suspend_function"⟩ (.scalar (.text s.engine.suspendFunction)),
    .entry ⟨[], "first_continuation_id"⟩ (.scalar (.integer s.engine.firstId)),
    .table ⟨[], "logging"⟩,
    .entry ⟨[], "level"⟩ (.scalar (.text s.level))]

theorem document_eq (s : Settings) :
    s.document = ('[' :: ("engine".toList ++ [']', '\n'])) ++
      ("suspend_function".toList ++ [' ', '=', ' '] ++ renderString s.engine.suspendFunction ++
          ['\n'] ++
        ("first_continuation_id".toList ++ [' ', '=', ' '] ++ Text.decimal s.engine.firstId ++
            ['\n'] ++
          ('\n' :: ('[' :: ("logging".toList ++ [']', '\n']) ++
            ("level".toList ++ [' ', '=', ' '] ++ renderString s.level ++ ['\n'] ++ []))))) := by
  have hengine : "[engine]\n".toList = '[' :: ("engine".toList ++ [']', '\n']) := by decide
  have hlogging : "\n[logging]\n".toList = '\n' :: '[' :: ("logging".toList ++ [']', '\n']) := by
    decide
  have hequals : " = ".toList = [' ', '=', ' '] := by decide
  unfold document entryLine
  rw [hengine, hlogging, hequals]
  simp only [List.append_assoc, List.cons_append, List.nil_append, List.append_nil]

/-- The document consists of its lines. -/
theorem lists_document (h : s.engine.firstId ≤ Text.maxSigned) : Lists s.document s.lines := by
  rw [document_eq]
  refine .line (isLine_table ⟨by decide, by decide⟩) ?_
  refine .line (isLine_entry ⟨by decide, by decide⟩ (isValue_renderString _)) ?_
  refine .line (isLine_entry ⟨by decide, by decide⟩ (isValue_decimal h)) (.blank ?_)
  refine .line (isLine_table ⟨by decide, by decide⟩) ?_
  exact .line (isLine_entry ⟨by decide, by decide⟩ (isValue_renderString _)) .nil

theorem carriage_notMem_document (s : Settings) : '\r' ∉ s.document := by
  have hdecimal : '\r' ∉ Text.decimal s.engine.firstId := fun hmem =>
    absurd ((Text.isRun_decimal s.engine.firstId).digits '\r' hmem) (by decide)
  simp [document_eq, carriage_notMem_renderString, hdecimal]

/-- The lines of settings build their tree. -/
theorem tree_lines (s : Settings) : (build s.lines [] []).bind tableTree? = some s.toTree := by
  simp [build, lines, openTable, changeAt, addEntry, define, toNode?, Fields.get?, Fields.insert,
    List.lookup_cons, tableTree?, Node.toTree?, fieldTrees?, momentName, toTree]

/-- The document of settings is read as their tree. -/
theorem read?_document (h : s.engine.firstId ≤ Text.maxSigned) :
    read? (String.ofList s.document) = some s.toTree.fields := by
  have hlines : lines? (String.ofList s.document) = some s.lines :=
    (lists_document h).lines? (carriage_notMem_document s) (by rw [document_eq]; simp)
  obtain ⟨fields, hbuild, htree⟩ := Option.bind_eq_some_iff.mp (tree_lines s)
  rw [read?, hlines, Option.bind_eq_bind, Option.bind_some, hbuild, Option.bind_eq_bind,
    Option.bind_some, htree]
  rfl

/-! ### The tree of settings -/

/-- The tree of settings holds them. -/
theorem ofTree?_toTree (s : Settings) : ofTree? s.toTree = some s := by
  simp [ofTree?, toTree, section?, engineOf?, levelOf?, Fields.get?, List.lookup_cons, Tree.text?,
    Tree.word?, Scalar.toText, Scalar.word?]

theorem foldCase_of_lower {name : String} (h : name.toList.map Char.toLower = name.toList) :
    Tree.foldCase name = name := by
  rw [Tree.foldCase, ← String.toList_inj, String.toList_map, h]

theorem pathOf_of_lower {name : String} (hne : name.toList ≠ [])
    (hchars : name.toList.all isPathChar = true)
    (hlower : name.toList.map Char.toLower = name.toList) : pathOf name = ⟨name, []⟩ := by
  have hspan : name.toList.span isPathChar = (name.toList, []) := by
    simpa using Text.span_append (List.all_eq_true.mp hchars) Text.ends_nil
  simp only [pathOf, hspan, segments?, List.isEmpty_iff, hne, String.ofList_toList,
    foldCase_of_lower hlower, if_false]

/-- What a file says about every setting takes the place of what is built in. -/
theorem overlay_toTree (s t : Settings) : overlay s.toTree.fields t.toTree = s.toTree := by
  have hengine : pathOf "engine" = ⟨"engine", []⟩ :=
    pathOf_of_lower (by decide) (by decide) (by decide)
  have hlogging : pathOf "logging" = ⟨"logging", []⟩ :=
    pathOf_of_lower (by decide) (by decide) (by decide)
  have hfunction : Tree.foldCase "suspend_function" = "suspend_function" :=
    foldCase_of_lower (by decide)
  have hfirst : Tree.foldCase "first_continuation_id" = "first_continuation_id" :=
    foldCase_of_lower (by decide)
  have hlevel : Tree.foldCase "level" = "level" := foldCase_of_lower (by decide)
  simp [overlay, write, hengine, hlogging, writeSteps, Tree.write, Tree.merged, Tree.mergeFields,
    hfunction, hfirst, hlevel, toTree, Tree.fields, Fields.get?, Fields.insert, List.lookup_cons]

/-! ### Loading -/

theorem fault?_of_load {w : Workspace} {path : Option String} {skip : Bool}
    (h : load w path skip = .ok s) : s.fault? = none := by
  simp only [load, bind, Except.bind] at h
  split at h
  · cases h
  · split at h
    · rename_i t _
      cases hfault : t.fault? with
      | some f => simp [validated, hfault] at h
      | none =>
        simp only [validated, hfault] at h
        cases h
        exact hfault
    · cases h

theorem fromUTF8?_toUTF8 (text : String) : String.fromUTF8? text.toUTF8 = some text := by
  unfold String.fromUTF8?
  rw [String.toUTF8_eq_toByteArray, dif_pos text.isValidUTF8]
  rfl

/-- A file that holds the document of settings without a fault is loaded as the settings. -/
theorem load_document {w : Workspace} {path : Option String}
    (hfile : find w (path.getD defaultName) = .content (String.ofList s.document).toUTF8)
    (hvalid : s.fault? = none) (h : s.engine.firstId ≤ Text.maxSigned) :
    load w path true = .ok s := by
  have htext : fileText w path = .ok (some (String.ofList s.document)) := by
    simp only [fileText, hfile, fromUTF8?_toUTF8]
  have hsource : fileSource w path = .ok s.toTree.fields := by
    simp only [fileSource, htext, bind, Except.bind, read?_document h]
  have henvironment : environmentSource w true = [] := rfl
  simp only [load, hsource, bind, Except.bind, henvironment, overlay_toTree]
  simp only [overlay, List.foldl_nil, ofTree?_toTree, validated, hvalid]

/-! ### Printing -/

theorem execute_config (w : Workspace) (h : s.engine.firstId ≤ Text.maxSigned) :
    Command.execute w s .config = ⟨String.ofList s.document, none⟩ := by
  simp only [Command.execute, render?, if_pos h]

theorem execute_config_unwritable (w : Workspace) (h : Text.maxSigned < s.engine.firstId) :
    Command.execute w s .config = Command.failed .unwritable := by
  simp only [Command.execute, render?, if_neg (Nat.not_le.mpr h)]

/-- **Settings that are printed load again.** Settings that were loaded, from whatever files and
variables, are printed if their first number is in the signed range, and a file that holds what was
printed loads as the same settings. Past that range they are not printed. -/
theorem printed_reloads (w : Workspace) (path : Option String) (skip : Bool) (s : Settings)
    (h : load w path skip = .ok s) :
    (s.engine.firstId ≤ Text.maxSigned →
      ∃ text, Command.execute w s .config = ⟨text, none⟩ ∧
        ∀ w' path', find w' (path'.getD defaultName) = .content text.toUTF8 →
          load w' path' true = .ok s) ∧
    (Text.maxSigned < s.engine.firstId →
      Command.execute w s .config = Command.failed .unwritable) := by
  refine ⟨fun hsigned => ?_, execute_config_unwritable w⟩
  refine ⟨String.ofList s.document, execute_config w hsigned, fun w' path' hfile => ?_⟩
  exact load_document hfile (fault?_of_load h) hsigned

/-- A level that no style of string holds without an escape. -/
theorem printed_reloads_quotes :
    ∃ text,
      Command.execute ⟨[], [("FETCHFLOW_LOGGING__LEVEL", "it's\r\n\"'''\"")]⟩
        { level := "it's\r\n\"'''\"" } .config = ⟨text, none⟩ ∧
      load ⟨[("out.toml", text.toUTF8)], []⟩ (some "out.toml") true =
        .ok { level := "it's\r\n\"'''\"" } := by
  have hload : load ⟨[], [("FETCHFLOW_LOGGING__LEVEL", "it's\r\n\"'''\"")]⟩ none false =
      .ok { level := "it's\r\n\"'''\"" } := by decide +kernel
  obtain ⟨text, hprinted, hreload⟩ := (printed_reloads _ none false _ hload).1 (by decide)
  refine ⟨text, hprinted, hreload _ (some "out.toml") ?_⟩
  have hname : Workspace.endsInName "out.toml" = true := by decide +kernel
  have hempty : (Workspace.route "out.toml").isEmpty = false := by decide +kernel
  have hending : Workspace.hasEnding ending (Workspace.route "out.toml") = true := by
    decide +kernel
  simp [find, Workspace.file?, Workspace.fileAt?, hname, hempty, hending]

/-- The least number past the signed range is loaded from the environment, and the settings that
hold it cannot be printed. -/
theorem loaded_not_printed :
    load ⟨[], [("FETCHFLOW_ENGINE__FIRST_CONTINUATION_ID", "9223372036854775808")]⟩ none false =
      .ok { engine := { firstId := 9223372036854775808 } } ∧
    Command.execute
      ⟨[], [("FETCHFLOW_ENGINE__FIRST_CONTINUATION_ID", "9223372036854775808")]⟩
      { engine := { firstId := 9223372036854775808 } } .config = Command.failed .unwritable :=
  ⟨by decide +kernel, execute_config_unwritable _ (by decide)⟩

end Settings

end Resumable

/-
Settings that are saved are loaded again.  Their text is read back as a document
that defines both names, the file holds the encoding of that text, and the path
leads to the file.
-/
import SqlScript.Proofs.FileTree.Writing
import SqlScript.Proofs.Toml.Definitions
import SqlScript.Proofs.Utf8.Decoding
import SqlScript.Settings

namespace SqlScript.Settings

open Toml

theorem isBare_markerToolName : IsBare markerToolName where
  ne_nil := by decide
  chars := List.all_eq_true.mp (by decide +kernel)

theorem isBare_flushName : IsBare flushName where
  ne_nil := by decide
  chars := List.all_eq_true.mp (by decide +kernel)

/-- The statements that the text of some settings makes. -/
theorem readStatements_write (settings : Settings) :
    readStatements settings.write =
      some [.define [markerToolName] (.string settings.markerTool),
        .define [flushName] (.boolean settings.flushBeforeDirective)] := by
  have hmark : dropMark settings.write = settings.write := rfl
  obtain ⟨limit, hlimit⟩ : ∃ limit, settings.write.length = limit + 2 := by
    refine ⟨settings.write.length - 2, ?_⟩
    simp [write, writeDefinition]
    omega
  have hlast := readStatementsWithin_definition isBare_flushName
    (spells_writeBoolean settings.flushBeforeDirective) (limit + 1) []
  rw [List.append_nil] at hlast
  rw [readStatements, hmark, hlimit, write,
    readStatementsWithin_definition isBare_markerToolName (spells_writeString _), hlast]
  rfl

theorem markerToolName_ne_flushName : markerToolName ≠ flushName := by decide +kernel

theorem readDocument_write (settings : Settings) :
    readDocument settings.write =
      some ((Table.put [] [.name markerToolName] (.value (.string settings.markerTool))).put
        [.name flushName] (.value (.boolean settings.flushBeforeDirective))) := by
  have hfirst : Table.find? [] [.name markerToolName] = none := rfl
  have hne : [Step.name flushName] ≠ [Step.name markerToolName] := by
    simp [Ne.symm markerToolName_ne_flushName]
  have hsecond : ∀ entry,
      (Table.put [] [.name markerToolName] entry).find? [.name flushName] = none := by
    intro entry
    rw [Table.find?_put_of_ne hne]
    rfl
  rw [readDocument, readStatements_write, Option.bind_some]
  simp only [Table.ofStatements?, Table.define?_top hfirst, Table.define?_top (hsecond _),
    Option.bind_some]

/-- The text of some settings is read as these settings. -/
theorem read?_write (settings : Settings) : read? settings.write = some settings := by
  have hne : [Step.name markerToolName] ≠ [Step.name flushName] := by
    simp [markerToolName_ne_flushName]
  rw [read?, readDocument_write, Option.bind_some]
  simp only [ofTable?, stringAt?, booleanAt?, Table.top?, Table.find?_put_self,
    Table.find?_put_of_ne hne]
  rfl

/-- Settings that were saved at a path are what is loaded from there, whatever the
path held before. -/
theorem load_of_save {tree after : FileTree} {path : Path} {settings : Settings}
    (h : Settings.save tree path settings = .ok after) :
    Settings.load after path = .ok (some settings) := by
  have htarget := FileTree.target_of_save h
  rw [load, htarget, ofTarget, Utf8.decode?_encode]
  simp [read?_write]

/-- Settings whose name holds quotes of both kinds, a backslash, a carriage return and a
newline are saved and loaded again: at an absolute path whose directories are made on the
way, and outside of the working directory over a file that was no text. -/
theorem load_of_save_nested_or_over_file :
    let before : FileTree := ⟨[(["a.toml".toList, "tmp".toList], .file [0xff])],
      ["work".toList, "tmp".toList]⟩
    let settings : Settings := ⟨"\x27\x27\x27\"\"\"\\\r\n".toList, false⟩
    ∀ path ∈ ["/tmp/x/nested/config.toml".toList, "../a.toml".toList],
      ∃ after, Settings.save before path settings = .ok after ∧
        Settings.load after path = .ok (some settings) := by
  intro before settings
  have hsaved : ∀ path ∈ ["/tmp/x/nested/config.toml".toList, "../a.toml".toList],
      (Settings.save before path settings).isOk = true := by decide +kernel
  intro path hpath
  cases hsave : Settings.save before path settings with
  | error e => simpa [hsave, Except.isOk, Except.toBool] using hsaved path hpath
  | ok after => exact ⟨after, rfl, load_of_save hsave⟩

end SqlScript.Settings

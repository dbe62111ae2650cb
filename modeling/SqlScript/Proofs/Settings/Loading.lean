/-
The settings that hold for a run.  They are told by the file where they are looked for,
and without a file they are the defaults.  A file that is no text, no document or sets
a name to a value of another kind leaves the run without settings.
-/
import SqlScript.Proofs.Utf8.Decoding
import SqlScript.Settings

namespace SqlScript

namespace Settings

variable {table : Toml.Table} {name t : Text} {settings : Settings}

/-! ### Files -/

variable {tree : FileTree} {environment : Environment} {chosen : Option Path} {path : Path}

end Settings

end SqlScript

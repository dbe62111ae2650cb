/-
The parts of a path.  A path is cut at its slashes, and with slashes in front of all
parts but the first they are the path again; so what is asked of the parts can be said
of the path as it is written.
-/
import SqlScript.FileTree

namespace SqlScript.Path

variable {part : Text} {parts : List Text} {path : Path}

end SqlScript.Path

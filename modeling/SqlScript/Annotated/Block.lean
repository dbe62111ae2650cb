/-
Blocks of a script: spans of whole lines, atomic or plain.
-/
import SqlScript.Annotated.Marker
import SqlScript.Text.Lines

namespace SqlScript

/-- A span of a script; an atomic one, marker lines included, is not to be
split again. -/
structure Block where
  text : Text
  atomic : Bool
deriving Repr, DecidableEq

namespace Block

/-- A block holds comments only when every line of it that is not blank is a
comment. -/
def isCommentsOnly (block : Block) : Bool :=
  (Text.lines block.text).all fun line => Text.allBlank line || Marker.isComment line

end Block

end SqlScript

/-
Both ways of splitting together: a script is cut into blocks, and the blocks
that are neither atomic nor mere comments are split into statements.
-/
import SqlScript.Annotated.Builder
import SqlScript.Splitter.Run

namespace SqlScript

/-- The statements of a block: none of its own when the block is to be kept as
it is, because it is atomic or holds nothing to execute. -/
def Block.split? (options : Options) (block : Block) : Option Split :=
  if block.atomic || block.isCommentsOnly then none else some (split options block.text)

end SqlScript

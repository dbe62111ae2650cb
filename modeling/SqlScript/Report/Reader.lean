/-
Reading JSON reports back.
-/
import SqlScript.Json.Reader
import SqlScript.Report

namespace SqlScript.Report

/-- The statements that a report tells. -/
def readStatements? (t : Text) : Option (List Text) := do
  let items ← (← Json.read? t).items?
  items.mapM Json.string?

/-- The block that an object tells. -/
def readBlock? (value : Json) : Option Block := do
  let text ← (← value.field? "text".toList).string?
  let atomic ← (← value.field? "atomic".toList).boolean?
  return { text, atomic }

/-- The blocks that a report tells. -/
def readBlocks? (t : Text) : Option (List Block) := do
  let items ← (← Json.read? t).items?
  items.mapM readBlock?

end SqlScript.Report

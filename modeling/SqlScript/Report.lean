/-
Reports on statements and blocks, as numbered text or as JSON.  The text form
trims what it shows; the JSON form keeps every character.
-/
import SqlScript.Annotated.Block
import SqlScript.Json.Printer

namespace SqlScript.Report

/-- A heading line and a trimmed text under it. -/
def entry (heading : Text) (number : Nat) (note body : Text) : Text :=
  "-- ".toList ++ heading ++ ' ' :: (toString number).toList ++ note ++ '\n' :: Text.trim body
    ++ ['\n']

/-- Entries numbered from `number`. -/
def entriesFrom {α : Type} (heading : Text) (note body : α → Text) (number : Nat) :
    List α → Text
  | [] => []
  | a :: others =>
      entry heading number (note a) (body a) ++ entriesFrom heading note body (number + 1) others

/-- The statements that are not blank, numbered. -/
def statementsText (statements : List Text) : Text :=
  entriesFrom "statement".toList (fun _ => []) id 1
    (statements.filter fun t => !Text.allBlank t)

/-- The blocks, numbered, with the atomic ones noted. -/
def blocksText (blocks : List Block) : Text :=
  entriesFrom "block".toList (fun block => if block.atomic then " (atomic)".toList else [])
    Block.text 1 blocks

def statementsJson (statements : List Text) : Text :=
  (Json.array (statements.map .string)).pretty 0

/-- One block as a JSON object. -/
def blockJson (block : Block) : Json :=
  .object [("text".toList, .string block.text), ("atomic".toList, .boolean block.atomic)]

def blocksJson (blocks : List Block) : Text :=
  (Json.array (blocks.map blockJson)).pretty 0

end SqlScript.Report

/-
Marker lines: comments that begin or end a block which is not to be split.
-/
import SqlScript.Text.Basic

namespace SqlScript

/-- What a marker line says. -/
inductive Marker where
  | blockBegin
  | blockEnd
deriving Repr, DecidableEq

namespace Marker

/-- A line is a comment when it begins, blanks aside, with two hyphens. -/
def isComment (line : Text) : Bool :=
  ['-', '-'].isPrefixOf (Text.trim line)

/-- The marker that a command word stands for.  Its first letter may be of
either case. -/
def ofCommand? (command : Text) : Option Marker :=
  if command = "StatementBegin".toList ∨ command = "statementBegin".toList then
    some .blockBegin
  else if command = "StatementEnd".toList ∨ command = "statementEnd".toList then
    some .blockEnd
  else none

/-- The tool name in front of a command may carry a plus. -/
def names (tool field : Text) : Bool :=
  field == tool || Text.stripLead '+' field == some tool

/-- The marker on a line, if it holds one for `tool`.  The short form names no
tool and may carry a plus at its command; the long form names the tool, and an
empty tool has none. -/
def ofLine? (tool line : Text) : Option Marker :=
  if isComment line then
    match Text.words line with
    | [_, command] => ofCommand? (Text.dropLead '+' command)
    | [_, field, command] =>
        if tool ≠ [] ∧ names tool field then ofCommand? command else none
    | _ => none
  else none

example : ofLine? "goose".toList "  -- +goose StatementBegin ".toList = some .blockBegin := by
  decide

example : ofLine? [] "-- goose StatementBegin".toList = none := by
  decide

end Marker

end SqlScript

/-
The records that a run leaves behind, in the order of their events, and their
wording.
-/
import SqlScript.Text.Quoted

namespace SqlScript

/-- What a run reports besides its result. -/
inductive Record where
  /-- A directive set the delimiter, to the same one or another. -/
  | delimiterChanged (old new : Text)
  /-- A directive named no delimiter; `position` counts the characters read. -/
  | delimiterMissing (position : Nat) (kept : Text)
  /-- The lines ended inside a block that a marker of `tool` had begun. -/
  | unterminatedBlock (tool : Text)
deriving Repr, DecidableEq

namespace Record

inductive Level where
  | debug
  | warn
deriving Repr, DecidableEq

def level : Record → Level
  | .delimiterChanged _ _ => .debug
  | .delimiterMissing _ _ => .warn
  | .unterminatedBlock _ => .warn

def message : Record → Text
  | .delimiterChanged old new =>
      "statement delimiter changed from ".toList ++ Text.quoted old ++ " to ".toList
        ++ Text.quoted new
  | .delimiterMissing position kept =>
      "DELIMITER directive without a delimiter near character ".toList
        ++ (toString position).toList ++ ", keeping ".toList ++ Text.quoted kept
  | .unterminatedBlock tool =>
      "saw '-- +".toList ++ tool ++ " StatementBegin' with no matching StatementEnd".toList

def Level.name : Level → Text
  | .debug => "DEBUG".toList
  | .warn => "WARN".toList

/-- The level and the message of a record on one line. -/
def line (record : Record) : Text :=
  record.level.name ++ ' ' :: record.message

end Record

/-- The messages of the warnings among some records. -/
def warnings (log : List Record) : List Text :=
  (log.filter (·.level = .warn)).map Record.message

end SqlScript

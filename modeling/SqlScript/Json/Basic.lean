/-
The JSON values that reports are made of.
-/
import SqlScript.Text.Basic

namespace SqlScript

inductive Json where
  | string (t : Text)
  | boolean (b : Bool)
  | array (items : List Json)
  /-- Fields in the order in which they are written. -/
  | object (fields : List (Text × Json))
deriving Repr

end SqlScript

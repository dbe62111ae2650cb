/-
The directive that sets the statement delimiter: its keyword and everything
behind it through the end of the line or the first semicolon.
-/
import SqlScript.Reading

namespace SqlScript

/-- A delimiter directive, cut into its keyword as written and the rest. -/
structure Directive where
  keyword : Text
  tail : Text
deriving Repr, DecidableEq

namespace Directive

/-- All characters of a directive. -/
def lexeme (d : Directive) : Text :=
  d.keyword ++ d.tail

/-- The delimiter that a directive names; empty when it names none. -/
def delimiter (d : Directive) : Text :=
  Text.trim d.tail

/-- A newline and a semicolon end a directive, and belong to it. -/
def endsDirective (c : Char) : Bool :=
  c == '\n' || c == ';'

/-- Read the rest of a directive behind its keyword. -/
def read (keyword : Text) (t : Text) : Reading Directive :=
  (Reading.takeThrough endsDirective t).map (⟨keyword, ·⟩)

theorem read_partitions (keyword t : Text) :
    Reading.Partitions lexeme (read keyword t) (keyword ++ t) :=
  (Reading.takeThrough_partitions endsDirective t).map keyword fun _ => rfl

@[simp] theorem rest_read_nil (keyword : Text) : (read keyword []).rest = [] := rfl

end Directive

end SqlScript

/-
Lines of a text.  A newline ends a line, one carriage return directly before
it belongs to the ending, and a text that ends with a newline has no further
empty line behind it.
-/
import SqlScript.Text.Basic

namespace SqlScript.Text

/-- The lines of a text without their endings.  A carriage return that no
newline follows stays in its line. -/
def lines : Text → List Text
  | [] => []
  | '\n' :: rest => [] :: lines rest
  | '\r' :: '\n' :: rest => [] :: lines rest
  | c :: rest =>
      match lines rest with
      | [] => [[c]]
      | line :: others => (c :: line) :: others

example : lines "a\r\n\nb\r".toList = [['a'], [], ['b', '\r']] := by decide

/-- A list cut behind every element that ends a line.  What follows the last of
them is a line as well, unless nothing does. -/
def cutBehind {α : Type} (isEnd : α → Bool) : List α → List (List α)
  | [] => []
  | a :: others =>
      if isEnd a then [a] :: cutBehind isEnd others
      else match cutBehind isEnd others with
        | [] => [[a]]
        | line :: lines => (a :: line) :: lines

/-- A line without the newline that it ends with, and without a carriage return
directly before that. -/
def withoutEnding : Text → Text
  | [] => []
  | ['\n'] => []
  | ['\r', '\n'] => []
  | c :: rest => c :: withoutEnding rest

/-- Lines joined by single newlines, with none at the end. -/
def joinLines : List Text → Text
  | [] => []
  | [line] => line
  | line :: next :: others => line ++ '\n' :: joinLines (next :: others)

end SqlScript.Text

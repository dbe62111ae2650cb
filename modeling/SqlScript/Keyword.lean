/-
The reserved words of a script.  A word is reserved as a whole or not at all,
and letters are compared under simple case folding, by which the long s counts
as an s.
-/
import SqlScript.Text.Basic

namespace SqlScript

/-- The words that the splitter reacts to. -/
inductive Keyword where
  /-- Opens a block. -/
  | blockBegin
  /-- Closes the innermost open block. -/
  | blockEnd
  /-- Introduces a directive that sets the statement delimiter. -/
  | delimiter
  /-- May introduce a dollar-quoted body. -/
  | bodyAs
deriving Repr, DecidableEq

namespace Keyword

/-- The lower-case spelling of a keyword. -/
def spelling : Keyword → Text
  | .blockBegin => ['b', 'e', 'g', 'i', 'n']
  | .blockEnd => ['e', 'n', 'd']
  | .delimiter => ['d', 'e', 'l', 'i', 'm', 'i', 't', 'e', 'r']
  | .bodyAs => ['a', 's']

def all : List Keyword :=
  [.blockBegin, .blockEnd, .delimiter, .bodyAs]

/-- Simple case folding of the characters that fold to an ASCII letter: the
capitals, the long s and the Kelvin sign. -/
def foldCase (c : Char) : Char :=
  if c = 'ſ' then 's' else if c = '\u212a' then 'k' else c.toLower

/-- The keyword that a whole word spells, if any. -/
def ofWord? (word : Text) : Option Keyword :=
  all.find? fun keyword => keyword.spelling == word.map foldCase

end Keyword

end SqlScript

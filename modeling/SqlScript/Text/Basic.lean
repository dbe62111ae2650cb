/-
Text as a list of characters, the blank characters, and the operations that
depend on blanks alone: trimming and cutting into words.
-/

namespace SqlScript

/-- A piece of a script, character by character. -/
abbrev Text := List Char

namespace Text

/-- Code points given by ascending, disjoint, closed intervals. -/
abbrev Ranges := List (Nat × Nat)

/-- Membership in ascending intervals; the first interval that begins beyond
the code point ends the search. -/
def Ranges.contains : Ranges → Nat → Bool
  | [], _ => false
  | (low, high) :: rest, n => if n < low then false else n ≤ high || Ranges.contains rest n

/-- The code points with the Unicode property White_Space. -/
def blankRanges : Ranges :=
  [(0x9, 0xd), (0x20, 0x20), (0x85, 0x85), (0xa0, 0xa0), (0x1680, 0x1680), (0x2000, 0x200a),
    (0x2028, 0x2029), (0x202f, 0x202f), (0x205f, 0x205f), (0x3000, 0x3000)]

/-- A blank character is one with the Unicode property White_Space. -/
def isBlank (c : Char) : Bool :=
  blankRanges.contains c.toNat

/-- A text without any character that is not blank. -/
def allBlank (t : Text) : Bool :=
  t.all isBlank

def trimStart (t : Text) : Text :=
  t.dropWhile isBlank

def trimEnd (t : Text) : Text :=
  (t.reverse.dropWhile isBlank).reverse

/-- Drop the blanks at both ends. -/
def trim (t : Text) : Text :=
  trimEnd (trimStart t)

/-- The maximal runs of characters that are not blank, in order. -/
def words : Text → List Text
  | [] => []
  | [c] => if isBlank c then [] else [[c]]
  | c :: d :: rest =>
      if isBlank c then words (d :: rest)
      else if isBlank d then [c] :: words (d :: rest)
      else match words (d :: rest) with
        | [] => [[c]]
        | word :: others => (c :: word) :: others

example : words " a\tbc \n".toList = [['a'], ['b', 'c']] := by decide

/-- Drop one leading `lead`, if the text begins with it. -/
def stripLead (lead : Char) : Text → Option Text
  | [] => none
  | c :: rest => if c = lead then some rest else none

/-- The text with its first character dropped when that is `lead`. -/
def dropLead (lead : Char) (t : Text) : Text :=
  (stripLead lead t).getD t

end Text

end SqlScript

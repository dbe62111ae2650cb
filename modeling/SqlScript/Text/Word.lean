/-
The characters that words are made of.
-/
import SqlScript.Text.Letters
import SqlScript.Text.Numerals

namespace SqlScript.Text

/-- A word begins with a letter or an underscore. -/
def isWordStart (c : Char) : Bool :=
  isLetter c || c == '_'

/-- A word goes on with letters, numerals and underscores. -/
def isWordChar (c : Char) : Bool :=
  isLetter c || isNumeral c || c == '_'

theorem isWordChar_of_isWordStart {c : Char} (h : isWordStart c = true) :
    isWordChar c = true := by
  simp only [isWordStart, Bool.or_eq_true] at h
  simp only [isWordChar, Bool.or_eq_true]
  exact h.elim (fun letter => .inl (.inl letter)) .inr

end SqlScript.Text

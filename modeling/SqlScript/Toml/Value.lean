/-
TOML values and the characters that TOML text is made of.
-/
import SqlScript.Text.Basic

namespace SqlScript.Toml

/-- A dotted key: the names on the way to a value. -/
abbrev Key := List Text

/-- A TOML value.  Numbers and dates keep their spelling. -/
inductive Value where
  | string (t : Text)
  | boolean (b : Bool)
  | number (lexeme : Text)
  | date (lexeme : Text)
  | array (items : List Value)
  | inlineTable (entries : List (Key × Value))
deriving Repr

/-- Blanks within a line. -/
def isSpace (c : Char) : Bool :=
  c == ' ' || c == '\t'

/-- Characters that may stand in strings and comments as they are: all but the
controls other than the tab. -/
def isPrintable (c : Char) : Bool :=
  c == '\t' || (0x20 ≤ c.toNat && c.toNat != 0x7f)

/-- Characters of a key without quotes. -/
def isBareKeyChar (c : Char) : Bool :=
  c.isAlphanum || c == '_' || c == '-'

/-- The value of a hexadecimal digit of either case. -/
def hexValue? (c : Char) : Option Nat :=
  if c.isDigit then some (c.toNat - '0'.toNat)
  else if 'a' ≤ c ∧ c ≤ 'f' then some (c.toNat - 'a'.toNat + 10)
  else if 'A' ≤ c ∧ c ≤ 'F' then some (c.toNat - 'A'.toNat + 10)
  else none

/-- The character with a code point; surrogates and numbers beyond the last
code point have none. -/
def charOfCode? (n : Nat) : Option Char :=
  if n.isValidChar then some (Char.ofNat n) else none

end SqlScript.Toml

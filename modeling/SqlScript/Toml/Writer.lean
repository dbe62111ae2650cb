/-
Writing TOML strings in the first form that needs no escapes, or else with
them.
-/
import SqlScript.Toml.Value

namespace SqlScript.Toml

/-- The forms that a string may be written in. -/
inductive StringForm where
  | basic
  | literal
  | basicLines
  | literalLines
deriving Repr, DecidableEq

/-- A control that no form holds as it is, except in escapes: any but the tab
and the newline. -/
def isRawControl (c : Char) : Bool :=
  (c.toNat < 0x20 && c != '\t' && c != '\n') || c.toNat == 0x7f

/-- The length of the longest run of a character, behind a run of `current`. -/
def longestRunBehind (c : Char) (current : Nat) : Text → Nat
  | [] => current
  | d :: rest =>
      if d = c then longestRunBehind c (current + 1) rest
      else max current (longestRunBehind c 0 rest)

/-- The length of the longest run of a character. -/
def longestRun (c : Char) (t : Text) : Nat :=
  longestRunBehind c 0 t

/-- The form that a text is written in. -/
def formOf (t : Text) : StringForm :=
  let control := t.any isRawControl
  let backslash := t.contains '\\'
  let newline := t.contains '\n'
  let double := longestRun '"' t
  let single := longestRun '\'' t
  if !control && !backslash && double == 0 && !newline then .basic
  else if !control && single == 0 && !newline then .literal
  else if !control && !backslash && double ≤ 2 then .basicLines
  else if !control && single ≤ 2 then .literalLines
  else if newline then .basicLines
  else .basic

/-- The digit of a number below sixteen, in upper case. -/
def upperHexDigit (n : Nat) : Char :=
  (Nat.digitChar n).toUpper

/-- How a character other than a quote stands inside a basic string; on several
lines a newline stands as it is. -/
def escapeChar (onLines : Bool) (c : Char) : Text :=
  match c with
  | '\x08' => ['\\', 'b']
  | '\t' => ['\\', 't']
  | '\n' => if onLines then ['\n'] else ['\\', 'n']
  | '\x0c' => ['\\', 'f']
  | '\r' => ['\\', 'r']
  | '\\' => ['\\', '\\']
  | c =>
      if isRawControl c then
        ['\\', 'u', '0', '0', upperHexDigit (c.toNat / 16), upperHexDigit (c.toNat % 16)]
      else [c]

/-- The characters of a basic string, behind a run of `quotes` quotes.  On one
line every quote is escaped, on several lines every third of a run. -/
def escapeBehind (onLines : Bool) (quotes : Nat) : Text → Text
  | [] => []
  | c :: rest =>
      if c = '"' then
        if onLines ∧ quotes < 2 then c :: escapeBehind onLines (quotes + 1) rest
        else '\\' :: c :: escapeBehind onLines 0 rest
      else escapeChar onLines c ++ escapeBehind onLines 0 rest

/-- The newline that opens a string on several lines, if it has several. -/
def openingNewline (t : Text) : Text :=
  if t.contains '\n' then ['\n'] else []

/-- Write a string in a given form. -/
def writeAs (form : StringForm) (t : Text) : Text :=
  match form with
  | .basic => '"' :: escapeBehind false 0 t ++ ['"']
  | .literal => '\'' :: t ++ ['\'']
  | .basicLines =>
      ['"', '"', '"'] ++ openingNewline t ++ escapeBehind true 0 t ++ ['"', '"', '"']
  | .literalLines => ['\'', '\'', '\''] ++ openingNewline t ++ t ++ ['\'', '\'', '\'']

/-- Write a string. -/
def writeString (t : Text) : Text :=
  writeAs (formOf t) t

example : writeString "a'b".toList = "\"a'b\"".toList := by decide

example : writeString "a\\b".toList = "'a\\b'".toList := by decide

example : writeString "\x27\x27\x27\"\"\"\n".toList =
    "\"\"\"\n\x27\x27\x27\"\"\\\"\n\"\"\"".toList := by
  decide

def writeBoolean (b : Bool) : Text :=
  if b then ['t', 'r', 'u', 'e'] else ['f', 'a', 'l', 's', 'e']

/-- Write a line that defines a name. -/
def writeDefinition (name value : Text) : Text :=
  name ++ [' ', '=', ' '] ++ value ++ ['\n']

end SqlScript.Toml

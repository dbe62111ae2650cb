/-
The display form of a text inside a message: in double quotes, with short
escapes for the common controls and the code point in hexadecimal for every
other character that would not show by itself.
-/
import SqlScript.Text.Extenders
import SqlScript.Text.Invisible

namespace SqlScript.Text

/-- The digits of a number in base sixteen, in lower case. -/
def hexadecimal (n : Nat) : Text :=
  Nat.toDigits 16 n

/-- How one character stands inside a quoted text. -/
def quotedChar (c : Char) : Text :=
  match c with
  | '\x00' => ['\\', '0']
  | '\t' => ['\\', 't']
  | '\n' => ['\\', 'n']
  | '\r' => ['\\', 'r']
  | '"' => ['\\', '"']
  | '\\' => ['\\', '\\']
  | c =>
      if isExtender c || isInvisible c then
        ['\\', 'u', '\x7b'] ++ hexadecimal c.toNat ++ ['\x7d']
      else [c]

/-- A text as it is shown in a message. -/
def quoted (t : Text) : Text :=
  '"' :: t.flatMap quotedChar ++ ['"']

example : quoted "a\"\n\x01".toList = "\"a\\\"\\n\\u\x7b1\x7d\"".toList := by decide

end SqlScript.Text

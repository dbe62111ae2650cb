/-
JSON on several lines: one item or field a line, indented by two blanks a
level.
-/
import SqlScript.Json.Basic

namespace SqlScript.Json

/-- The digit of a number below sixteen, in lower case. -/
def hexDigit (n : Nat) : Char :=
  Nat.digitChar n

/-- How one character stands inside a string.  Quotes, backslashes and controls
are escaped, the common controls with a letter of their own. -/
def escapeChar (c : Char) : Text :=
  match c with
  | '"' => ['\\', '"']
  | '\\' => ['\\', '\\']
  | '\x08' => ['\\', 'b']
  | '\x0c' => ['\\', 'f']
  | '\n' => ['\\', 'n']
  | '\r' => ['\\', 'r']
  | '\t' => ['\\', 't']
  | c =>
      if c.toNat < 0x20 then
        ['\\', 'u', '0', '0', hexDigit (c.toNat / 16), hexDigit (c.toNat % 16)]
      else [c]

/-- A text as a JSON string. -/
def quote (t : Text) : Text :=
  '"' :: t.flatMap escapeChar ++ ['"']

/-- A new line at some depth. -/
def newline (depth : Nat) : Text :=
  '\n' :: List.replicate (2 * depth) ' '

mutual

/-- A value whose first line stands at some depth. -/
def pretty (depth : Nat) : Json → Text
  | .string t => quote t
  | .boolean true => ['t', 'r', 'u', 'e']
  | .boolean false => ['f', 'a', 'l', 's', 'e']
  | .array [] => ['[', ']']
  | .array (item :: items) =>
      '[' :: prettyItems (depth + 1) (item :: items) ++ newline depth ++ [']']
  | .object [] => ['\x7b', '\x7d']
  | .object (field :: fields) =>
      '\x7b' :: prettyFields (depth + 1) (field :: fields) ++ newline depth ++ ['\x7d']

def prettyItems (depth : Nat) : List Json → Text
  | [] => []
  | [item] => newline depth ++ pretty depth item
  | item :: next :: items =>
      newline depth ++ pretty depth item ++ ',' :: prettyItems depth (next :: items)

def prettyFields (depth : Nat) : List (Text × Json) → Text
  | [] => []
  | [(key, item)] => newline depth ++ quote key ++ ':' :: ' ' :: pretty depth item
  | (key, item) :: next :: fields =>
      newline depth ++ quote key ++ ':' :: ' ' :: pretty depth item
        ++ ',' :: prettyFields depth (next :: fields)

end

example : pretty 0 (.array [.string ['a', '"'], .object [(['b'], .boolean true)]]) =
    "[\n  \"a\\\"\",\n  \x7b\n    \"b\": true\n  \x7d\n]".toList := by
  decide

end SqlScript.Json

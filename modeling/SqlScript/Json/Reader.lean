/-
Reading JSON.  Blanks may stand around every value and mark, and a string may hold
escapes of every kind.  Numbers and null are refused, since they are no values of
reports.
-/
import SqlScript.Json.Basic
import SqlScript.Toml.Value

namespace SqlScript.Json

/-- What a reader hands on: what it read and the text behind. -/
abbrev Found (α : Type) := Option (α × Text)

/-- Put a character in front of the text that was found. -/
def Found.push (c : Char) (found : Found Text) : Found Text :=
  found.map fun (t, rest) => (c :: t, rest)

/-- Blanks between values and marks. -/
def isSpace (c : Char) : Bool :=
  c == ' ' || c == '\t' || c == '\n' || c == '\r'

def skipSpaces (t : Text) : Text :=
  t.dropWhile isSpace

/-- The character that an escape letter stands for. -/
def escapedChar? (c : Char) : Option Char :=
  match c with
  | '"' => some '"'
  | '\\' => some '\\'
  | '/' => some '/'
  | 'b' => some '\x08'
  | 'f' => some '\x0c'
  | 'n' => some '\n'
  | 'r' => some '\r'
  | 't' => some '\t'
  | _ => none

/-- The character that a code unit stands for, alone or behind the first half of a
surrogate pair. -/
def unitChar? : (high : Option Nat) → (unit : Nat) → Option Char
  | none, unit => Toml.charOfCode? unit
  | some high, unit =>
      if 0xdc00 ≤ unit ∧ unit < 0xe000 then
        Toml.charOfCode? (0x10000 + (high - 0xd800) * 0x400 + (unit - 0xdc00))
      else none

/-- The first half of a surrogate pair. -/
def isHighHalf (unit : Nat) : Bool :=
  0xd800 ≤ unit && unit < 0xdc00

/-- Where a reader is inside a string. -/
inductive Within where
  /-- Among the characters of the string. -/
  | text
  /-- Right behind a backslash. -/
  | escape
  /-- Among the digits of a code unit: how many are to come behind the next one, the
  value so far, and the first half that the unit belongs to. -/
  | code (high : Option Nat) (more value : Nat)
  /-- Behind the first half of a surrogate pair, in front of a backslash. -/
  | half (high : Nat)
  /-- Behind that backslash. -/
  | halfEscape (high : Nat)
deriving Repr, DecidableEq

/-- Read a string behind its opening quote. -/
def readString : Within → Text → Found Text
  | _, [] => none
  | .text, c :: rest =>
      if c = '"' then some ([], rest)
      else if c = '\\' then readString .escape rest
      else if c.toNat < 0x20 then none
      else (readString .text rest).push c
  | .escape, c :: rest =>
      match escapedChar? c with
      | some e => (readString .text rest).push e
      | none => if c = 'u' then readString (.code none 3 0) rest else none
  | .code high more value, c :: rest =>
      match Toml.hexValue? c with
      | none => none
      | some digit =>
          let value := 16 * value + digit
          match more with
          | more + 1 => readString (.code high more value) rest
          | 0 =>
              if high = none ∧ isHighHalf value then readString (.half value) rest
              else match unitChar? high value with
                | none => none
                | some e => (readString .text rest).push e
  | .half high, c :: rest => if c = '\\' then readString (.halfEscape high) rest else none
  | .halfEscape high, c :: rest =>
      if c = 'u' then readString (.code (some high) 3 0) rest else none

/-- Read values with commas between them, through the closing mark.  Each of them
takes one from `limit`. -/
def readSeparated {α : Type} (close : Char) (readOne : Text → Found α) :
    (limit : Nat) → Text → Found (List α)
  | 0, _ => none
  | limit + 1, t =>
      (readOne t).bind fun (a, rest) =>
        match skipSpaces rest with
        | [] => none
        | c :: rest =>
            if c = close then some ([a], rest)
            else if c = ',' then
              (readSeparated close readOne limit rest).map fun (others, rest) =>
                (a :: others, rest)
            else none

/-- What stands between an opening and a closing mark: nothing, or values with commas
between them. -/
def readEnclosed {α : Type} (close : Char) (readOne : Text → Found α) (t : Text) :
    Found (List α) :=
  match skipSpaces t with
  | [] => none
  | c :: rest => if c = close then some ([], rest) else readSeparated close readOne t.length t

/-- Read a field of an object. -/
def readField (readItem : Text → Found Json) (t : Text) : Found (Text × Json) :=
  match skipSpaces t with
  | '"' :: rest =>
      (readString .text rest).bind fun (key, rest) =>
        match skipSpaces rest with
        | ':' :: rest => (readItem rest).map fun (item, rest) => ((key, item), rest)
        | _ => none
  | _ => none

/-- Read a value that the text begins with, blanks aside.  Each level takes one from
`limit`. -/
def readValueWithin : (limit : Nat) → Text → Found Json
  | 0, _ => none
  | limit + 1, t =>
      match skipSpaces t with
      | '"' :: rest => (readString .text rest).map fun (s, rest) => (.string s, rest)
      | 't' :: 'r' :: 'u' :: 'e' :: rest => some (.boolean true, rest)
      | 'f' :: 'a' :: 'l' :: 's' :: 'e' :: rest => some (.boolean false, rest)
      | '[' :: rest =>
          (readEnclosed ']' (readValueWithin limit) rest).map fun (items, rest) =>
            (.array items, rest)
      | '\x7b' :: rest =>
          (readEnclosed '\x7d' (readField (readValueWithin limit)) rest).map
            fun (fields, rest) => (.object fields, rest)
      | _ => none

/-- Read a text that is one value, with nothing but blanks around it. -/
def read? (t : Text) : Option Json :=
  (readValueWithin (t.length + 1) t).bind fun (value, rest) =>
    if skipSpaces rest = [] then some value else none

/-! ### What a value holds -/

def string? : Json → Option Text
  | .string t => some t
  | _ => none

def boolean? : Json → Option Bool
  | .boolean b => some b
  | _ => none

def items? : Json → Option (List Json)
  | .array items => some items
  | _ => none

/-- The item of the first field with a name. -/
def field? (name : Text) : Json → Option Json
  | .object fields => fields.lookup name
  | _ => none

example : (read? " \"\\u00E9\\ud83d\\ude00\\/\"\n".toList).bind string? =
    some ['é', '😀', '/'] := by
  decide +kernel

-- A string holds neither a newline as it is nor half of a surrogate pair.
example : (read? "\"\n\"".toList).isNone ∧ (read? "\"\\ud83d\"".toList).isNone := by
  decide +kernel

end SqlScript.Json

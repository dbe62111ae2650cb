/-
Reading TOML strings: basic ones, in which a backslash escapes, and literal
ones, in which nothing does; either on one line or, between tripled quotes, on
several.
-/
import SqlScript.Toml.Value

namespace SqlScript.Toml

/-- What a reader hands on: what it read and the text behind. -/
abbrev Found (α : Type) := Option (α × Text)

/-- Put a character in front of the text that was found. -/
def Found.push (c : Char) (found : Found Text) : Found Text :=
  found.map fun (t, rest) => (c :: t, rest)

/-- The text begins with a newline. -/
def atNewline : Text → Bool
  | '\n' :: _ => true
  | '\r' :: '\n' :: _ => true
  | _ => false

/-- Drop a newline that the text begins with. -/
def dropNewline : Text → Text
  | '\n' :: rest => rest
  | '\r' :: '\n' :: rest => rest
  | t => t

/-- Close a string on several lines.  Up to two quotes in front of the closing
ones belong to the string. -/
def closeTripled? (quote : Char) (t : Text) : Found Text :=
  if [quote, quote, quote, quote, quote].isPrefixOf t then some ([quote, quote], t.drop 5)
  else if [quote, quote, quote, quote].isPrefixOf t then some ([quote], t.drop 4)
  else if [quote, quote, quote].isPrefixOf t then some ([], t.drop 3)
  else none

/-- The character that an escape letter stands for. -/
def escapedChar? (c : Char) : Option Char :=
  match c with
  | 'b' => some '\x08'
  | 't' => some '\t'
  | 'n' => some '\n'
  | 'f' => some '\x0c'
  | 'r' => some '\r'
  | 'e' => some '\x1b'
  | '"' => some '"'
  | '\\' => some '\\'
  | _ => none

/-- How many digits of a code point follow an escape letter. -/
def codeDigits? (c : Char) : Option Nat :=
  match c with
  | 'x' => some 2
  | 'u' => some 4
  | 'U' => some 8
  | _ => none

/-- Where a reader is inside a basic string. -/
inductive Within where
  /-- Among the characters of the string. -/
  | text
  /-- Among the blanks and newlines that an escaped newline swallows. -/
  | swallowing
  /-- Right behind a backslash. -/
  | escape
  /-- Among the digits of a code point: how many are to come behind the next
  one, and the value so far. -/
  | code (more value : Nat)
  /-- Among the blanks between a backslash and the newline it escapes. -/
  | continuation
deriving Repr, DecidableEq

/-- Read a basic string on one line behind its opening quote. -/
def readBasic : Within → Text → Found Text
  | _, [] => none
  | .escape, c :: rest =>
      match escapedChar? c, codeDigits? c with
      | some e, _ => (readBasic .text rest).push e
      | none, some digits => readBasic (.code (digits - 1) 0) rest
      | none, none => none
  | .code more value, c :: rest =>
      match hexValue? c with
      | none => none
      | some digit =>
          let value := 16 * value + digit
          match more with
          | more + 1 => readBasic (.code more value) rest
          | 0 =>
              match charOfCode? value with
              | none => none
              | some e => (readBasic .text rest).push e
  | _, c :: rest =>
      if c = '"' then some ([], rest)
      else if c = '\\' then readBasic .escape rest
      else if isPrintable c then (readBasic .text rest).push c
      else none

/-- Read a basic string on several lines behind its opening quotes. -/
def readBasicLines : Within → Text → Found Text
  | _, [] => none
  | .escape, c :: rest =>
      match escapedChar? c, codeDigits? c with
      | some e, _ => (readBasicLines .text rest).push e
      | none, some digits => readBasicLines (.code (digits - 1) 0) rest
      | none, none =>
          if atNewline (c :: rest) then readBasicLines .swallowing rest
          else if isSpace c then readBasicLines .continuation rest
          else none
  | .code more value, c :: rest =>
      match hexValue? c with
      | none => none
      | some digit =>
          let value := 16 * value + digit
          match more with
          | more + 1 => readBasicLines (.code more value) rest
          | 0 =>
              match charOfCode? value with
              | none => none
              | some e => (readBasicLines .text rest).push e
  | .continuation, c :: rest =>
      if atNewline (c :: rest) then readBasicLines .swallowing rest
      else if isSpace c then readBasicLines .continuation rest
      else none
  | within, c :: rest =>
      if within = .swallowing ∧ (isSpace c ∨ atNewline (c :: rest)) then
        readBasicLines .swallowing rest
      else
        match closeTripled? '"' (c :: rest) with
        | some found => some found
        | none =>
            if c = '\\' then readBasicLines .escape rest
            else if isPrintable c ∨ atNewline (c :: rest) then
              (readBasicLines .text rest).push c
            else none

/-- Read a literal string on one line behind its opening quote. -/
def readLiteral : Text → Found Text
  | [] => none
  | c :: rest =>
      if c = '\'' then some ([], rest)
      else if isPrintable c then (readLiteral rest).push c
      else none

/-- Read a literal string on several lines behind its opening quotes. -/
def readLiteralLines : Text → Found Text
  | [] => none
  | c :: rest =>
      match closeTripled? '\'' (c :: rest) with
      | some found => some found
      | none =>
          if isPrintable c ∨ atNewline (c :: rest) then (readLiteralLines rest).push c
          else none

/-- Read a string of any form.  A newline right behind tripled opening quotes
does not belong to the string. -/
def readString : Text → Found Text
  | '"' :: '"' :: '"' :: rest => readBasicLines .text (dropNewline rest)
  | '"' :: rest => readBasic .text rest
  | '\'' :: '\'' :: '\'' :: rest => readLiteralLines (dropNewline rest)
  | '\'' :: rest => readLiteral rest
  | _ => none

example : readString "\"a\\u00e9\" x".toList = some ("aé".toList, " x".toList) := by decide

example : readString "\"\"\"\na\\\n  b\"\"\"\"".toList = some ("ab\"".toList, []) := by decide

end SqlScript.Toml

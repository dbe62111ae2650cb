/-
Reading TOML documents.
-/
import SqlScript.Toml.Numbers
import SqlScript.Toml.Strings
import SqlScript.Toml.Table

namespace SqlScript.Toml

/-- Drop blanks within a line. -/
def skipSpaces (t : Text) : Text :=
  t.dropWhile isSpace

/-- Drop blanks, newlines and comments; a comment with a control in it is none.
`inComment` tells whether the text begins inside a comment. -/
def skipLayout : (inComment : Bool) → Text → Option Text
  | _, [] => some []
  | inComment, c :: rest =>
      if atNewline (c :: rest) then skipLayout false rest
      else if inComment then
        if isPrintable c then skipLayout true rest else none
      else if isSpace c then skipLayout false rest
      else if c = '#' then skipLayout true rest
      else some (c :: rest)

/-- The text behind the end of a line that holds nothing more than a
comment. -/
def skipLineEnd : (inComment : Bool) → Text → Option Text
  | _, [] => some []
  | inComment, c :: rest =>
      if atNewline (c :: rest) then some (dropNewline (c :: rest))
      else if inComment then
        if isPrintable c then skipLineEnd true rest else none
      else if isSpace c then skipLineEnd false rest
      else if c = '#' then skipLineEnd true rest
      else none

/-- The text behind one expected character. -/
def expect (c : Char) (t : Text) : Option Text :=
  Text.stripLead c t

/-- Read one name of a key: bare, or a string on one line. -/
def readName (t : Text) : Found Text :=
  match t with
  | '"' :: rest => readBasic .text rest
  | '\'' :: rest => readLiteral rest
  | t =>
      let name := t.takeWhile isBareKeyChar
      if name = [] then none else some (name, t.dropWhile isBareKeyChar)

/-- Read a dotted key of at most `limit` names. -/
def readKeyWithin : (limit : Nat) → Text → Found Key
  | 0, _ => none
  | limit + 1, t =>
      (readName t).bind fun (name, rest) =>
        match skipSpaces rest with
        | '.' :: rest =>
            (readKeyWithin limit (skipSpaces rest)).map fun (key, rest) => (name :: key, rest)
        | _ => some ([name], rest)

/-- How many names a key may have, and how deep values may nest. -/
def nestingLimit : Nat := 80

def readKey (t : Text) : Found Key :=
  readKeyWithin nestingLimit t

/-- Read a value without quotes.  A day and a time may have one blank between
them. -/
def readUnquoted (t : Text) : Found Value :=
  let spelling := t.takeWhile isUnquotedChar
  let rest := t.dropWhile isUnquotedChar
  match rest with
  | ' ' :: c :: time =>
      if isDay spelling && c.isDigit then
        let clock := (c :: time).takeWhile isUnquotedChar
        (unquoted? (spelling ++ ' ' :: clock)).map
          (·, (c :: time).dropWhile isUnquotedChar)
      else (unquoted? spelling).map (·, rest)
  | rest => (unquoted? spelling).map (·, rest)

mutual

/-- Read a value that nests at most `depth` deep.  Each round takes one from
`limit`. -/
def readValueWithin : (limit depth : Nat) → Text → Found Value
  | 0, _, _ => none
  | limit + 1, depth, t =>
      match t, depth with
      | '"' :: _, _ => (readString t).map fun (s, rest) => (.string s, rest)
      | '\'' :: _, _ => (readString t).map fun (s, rest) => (.string s, rest)
      | '[' :: _, 0 => none
      | '[' :: rest, depth + 1 =>
          (readItemsWithin limit depth rest).map fun (items, rest) => (.array items, rest)
      | '\x7b' :: _, 0 => none
      | '\x7b' :: rest, depth + 1 =>
          (readEntriesWithin limit depth rest).bind fun (entries, rest) =>
            (Table.ofEntries? entries).map fun _ => (.inlineTable entries, rest)
      | t, _ => readUnquoted t

/-- Read the items of an array behind its opening bracket or a comma, through
its closing bracket. -/
def readItemsWithin : (limit depth : Nat) → Text → Found (List Value)
  | 0, _, _ => none
  | limit + 1, depth, t =>
      (skipLayout false t).bind fun
        | ']' :: rest => some ([], rest)
        | t =>
            (readValueWithin limit depth t).bind fun (item, rest) =>
              (skipLayout false rest).bind fun
                | ']' :: rest => some ([item], rest)
                | ',' :: rest =>
                    (readItemsWithin limit depth rest).map fun (items, rest) =>
                      (item :: items, rest)
                | _ => none

/-- Read the entries of an inline table behind its opening brace or a comma,
through its closing brace.  Anywhere but within a key a line may end. -/
def readEntriesWithin : (limit depth : Nat) → Text → Found (List (Key × Value))
  | 0, _, _ => none
  | limit + 1, depth, t =>
      (skipLayout false t).bind fun
        | '\x7d' :: rest => some ([], rest)
        | t =>
            (readKey t).bind fun (key, rest) =>
              ((skipLayout false rest).bind (expect '=')).bind fun rest =>
                (skipLayout false rest).bind fun rest =>
                  (readValueWithin limit depth rest).bind fun (value, rest) =>
                    (skipLayout false rest).bind fun
                      | '\x7d' :: rest => some ([(key, value)], rest)
                      | ',' :: rest =>
                          (readEntriesWithin limit depth rest).map fun (entries, rest) =>
                            ((key, value) :: entries, rest)
                      | _ => none

end

/-- Read a value. -/
def readValue (t : Text) : Found Value :=
  readValueWithin (2 * t.length + 1) nestingLimit t

/-- What one line of a document says; a value may extend it over several. -/
inductive Statement where
  | define (key : Key) (value : Value)
  | heading (key : Key)
  | itemHeading (key : Key)
deriving Repr

/-- Read a heading behind its opening brackets, through its closing ones. -/
def readHeading (closing : Text) (t : Text) : Found Key :=
  (readKey (skipSpaces t)).bind fun (key, rest) =>
    let rest := skipSpaces rest
    if closing.isPrefixOf rest then some (key, rest.drop closing.length) else none

/-- Read one statement, which the text begins with. -/
def readStatement (t : Text) : Found Statement :=
  match t with
  | '[' :: '[' :: rest =>
      (readHeading [']', ']'] rest).map fun (key, rest) => (.itemHeading key, rest)
  | '[' :: rest => (readHeading [']'] rest).map fun (key, rest) => (.heading key, rest)
  | t =>
      (readKey t).bind fun (key, rest) =>
        (expect '=' (skipSpaces rest)).bind fun rest =>
          (readValue (skipSpaces rest)).map fun (value, rest) => (.define key value, rest)

/-- Read at most `limit` statements, each up to the end of its last line. -/
def readStatementsWithin : (limit : Nat) → Text → Option (List Statement)
  | 0, _ => none
  | limit + 1, t =>
      (skipLayout false t).bind fun
        | [] => some []
        | t =>
            (readStatement t).bind fun (statement, rest) =>
              (skipLineEnd false rest).bind fun rest =>
                (readStatementsWithin limit rest).map (statement :: ·)

/-- Drop a byte order mark. -/
def dropMark (t : Text) : Text :=
  Text.dropLead '\ufeff' t

def readStatements (t : Text) : Option (List Statement) :=
  readStatementsWithin (t.length + 1) (dropMark t)

/-- What some statements define, the first of them within the table at
`here`. -/
def Table.ofStatements? (table : Table) (here : Way) : List Statement → Option Table
  | [] => some table
  | .define key value :: others =>
      (table.define? here key value).bind fun table => ofStatements? table here others
  | .heading key :: others =>
      (table.open? key).bind fun (here, table) => ofStatements? table here others
  | .itemHeading key :: others =>
      (table.openItem? key).bind fun (here, table) => ofStatements? table here others

/-- The table that a document is, if it is a document. -/
def readDocument (t : Text) : Option Table :=
  (readStatements t).bind (Table.ofStatements? [] [])

/-- What stands under a name at the top of a document. -/
def Table.top? (table : Table) (name : Text) : Option Entry :=
  table.find? [.name name]

end SqlScript.Toml

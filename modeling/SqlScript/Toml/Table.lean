/-
What the lines of a TOML document define.  Every key may be defined once; a
table may be opened once by a heading, and grown by dotted keys only while it
is one that dotted keys made.
-/
import SqlScript.Toml.Value

namespace SqlScript.Toml

/-- A step on the way into a document: a name, or an item of an array of
tables. -/
inductive Step where
  | name (name : Text)
  | item (index : Nat)
deriving Repr, DecidableEq

/-- The way from the top of a document to something in it. -/
abbrev Way := List Step

/-- How a table came about. -/
inductive Origin where
  /-- By a heading of its own. -/
  | heading
  /-- On the way of a heading to a deeper table. -/
  | implied
  /-- On the way of a dotted key. -/
  | dotted
deriving Repr, DecidableEq

/-- What stands at a place of a document. -/
inductive Entry where
  | value (value : Value)
  | table (origin : Origin)
  /-- An array of tables with so many items. -/
  | tables (count : Nat)
deriving Repr

/-- Everything a document defines, by place; what was defined last comes
first. -/
abbrev Table := List (Way × Entry)

namespace Table

def find? (table : Table) (way : Way) : Option Entry :=
  table.lookup way

def put (table : Table) (way : Way) (entry : Entry) : Table :=
  (way, entry) :: table

/-- Go from one table down a key, opening the tables on the way that are not
there.  An array of tables is entered at its last item.  Dotted keys do not
enter tables that have a heading. -/
def descend (origin : Origin) (table : Table) (here : Way) : Key → Option (Way × Table)
  | [] => some (here, table)
  | name :: key =>
      let there := here ++ [.name name]
      match table.find? there with
      | none => descend origin (table.put there (.table origin)) there key
      | some (.table found) =>
          if origin = .dotted ∧ found = .heading then none
          else descend origin table there key
      | some (.tables count) => descend origin table (there ++ [.item (count - 1)]) key
      | some (.value _) => none

/-- Cut a key into the way to its last name, and that name. -/
def cutLast (key : Key) : Option (Key × Text) :=
  key.getLast?.map fun name => (key.dropLast, name)

/-- Define a value.  A dotted key ends in a table that dotted keys made. -/
def define? (table : Table) (here : Way) (key : Key) (value : Value) : Option Table :=
  (cutLast key).bind fun (lead, name) =>
    (descend .dotted table here lead).bind fun (place, table) =>
      let made := lead = [] ∨ (table.find? place matches some (.table .dotted))
      let there := place ++ [.name name]
      if made ∧ (table.find? there).isNone then some (table.put there (.value value)) else none

/-- Open a table by its heading; a table that is only implied may still be
opened. -/
def open? (table : Table) (key : Key) : Option (Way × Table) :=
  (cutLast key).bind fun (lead, name) =>
    (descend .implied table [] lead).bind fun (place, table) =>
      let there := place ++ [.name name]
      match table.find? there with
      | none => some (there, table.put there (.table .heading))
      | some (.table .implied) => some (there, table.put there (.table .heading))
      | _ => none

/-- Open a further item of an array of tables. -/
def openItem? (table : Table) (key : Key) : Option (Way × Table) :=
  (cutLast key).bind fun (lead, name) =>
    (descend .implied table [] lead).bind fun (place, table) =>
      let there := place ++ [.name name]
      match table.find? there with
      | none => some (there ++ [.item 0], table.put there (.tables 1))
      | some (.tables count) => some (there ++ [.item count], table.put there (.tables (count + 1)))
      | _ => none

/-- Define the entries of an inline table among themselves. -/
def ofEntries? (entries : List (Key × Value)) : Option Table :=
  entries.foldlM (fun table (key, value) => define? table [] key value) []

end Table

end SqlScript.Toml

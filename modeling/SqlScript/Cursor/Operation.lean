/-
Sequences of operations on one cursor, with the answer to each and the position
behind it.
-/
import SqlScript.Cursor.Basic

namespace SqlScript.Cursor

/-- What may be asked of a cursor. -/
inductive Operation where
  | token
  | next
  | peek
  | unread (c : Char)
  | position
  /-- The reader of tokens gives the cursor back. -/
  | release
deriving Repr, DecidableEq

/-- What a cursor answers. -/
inductive Answer where
  | token (found : Option Token)
  | char (found : Option Char)
  | nothing
deriving Repr, DecidableEq

/-- Carry out one operation. -/
def perform (cursor : Cursor) : Operation → Except ReadError Answer × Cursor
  | .token => (cursor.nextToken.1.map .token, cursor.nextToken.2)
  | .next => (cursor.next.1.map .char, cursor.next.2)
  | .peek => (cursor.peek.1.map .char, cursor.peek.2)
  | .unread c => (.ok .nothing, cursor.unread c)
  | .position => (.ok .nothing, cursor)
  | .release => (.ok .nothing, cursor)

/-- Carry out operations in order; one that fails does not stop the others. -/
def performAll (cursor : Cursor) : List Operation → List (Except ReadError Answer × Nat)
  | [] => []
  | operation :: others =>
      let (answer, cursor) := cursor.perform operation
      (answer, cursor.position) :: performAll cursor others

end SqlScript.Cursor

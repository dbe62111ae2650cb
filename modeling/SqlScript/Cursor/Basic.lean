/-
A cursor over a source, shared by whoever reads single characters and whoever
reads tokens.  It looks one character ahead, takes one character back, and
counts the characters that were taken.
-/
import SqlScript.Source
import SqlScript.Token.Reader

namespace SqlScript

/-- A place in a source. -/
structure Cursor where
  /-- The characters and errors in front of the ending. -/
  ahead : List (Except ReadError Char)
  ending : Ending
  /-- How many characters have been taken and not put back. -/
  position : Nat

namespace Cursor

def ofSource (source : Source) : Cursor :=
  ⟨source.deliveries, source.ending, 0⟩

def ofText (t : Text) : Cursor :=
  ⟨t.map .ok, .endOfInput, 0⟩

/-- What reading beyond everything gives: nothing, or the failure again. -/
def beyond {α : Type} (ending : Ending) : Except ReadError (Option α) :=
  match ending.error? with
  | none => .ok none
  | some e => .error e

/-- Take the next character.  An error is passed with the bytes behind it. -/
def next (cursor : Cursor) : Except ReadError (Option Char) × Cursor :=
  match cursor.ahead with
  | [] => (beyond cursor.ending, cursor)
  | .ok c :: others =>
      (.ok (some c), { cursor with ahead := others, position := cursor.position + 1 })
  | .error e :: others => (.error e, { cursor with ahead := others })

/-- Look at the next character without taking it.  Looking at an error passes
it. -/
def peek (cursor : Cursor) : Except ReadError (Option Char) × Cursor :=
  match cursor.ahead with
  | [] => (beyond cursor.ending, cursor)
  | .ok c :: _ => (.ok (some c), cursor)
  | .error e :: others => (.error e, { cursor with ahead := others })

/-- Put a character in front, in place of the one taken last. -/
def unread (cursor : Cursor) (c : Char) : Cursor :=
  { cursor with ahead := .ok c :: cursor.ahead, position := cursor.position - 1 }

/-- Give up `count` characters. -/
def advance (cursor : Cursor) (count : Nat) : Cursor :=
  { cursor with ahead := cursor.ahead.drop count, position := cursor.position + count }

/-- Take the next token.  A token that runs into an error or a failure is lost
with the characters that belonged to it. -/
def nextToken (cursor : Cursor) : Except ReadError (Option Token) × Cursor :=
  match textBefore cursor.ahead with
  | [] =>
      let (answer, cursor) := cursor.next
      (answer.map fun _ => none, cursor)
  | c :: t =>
      match Token.read c t with
      | .settled token _ => (.ok (some token), cursor.advance token.lexeme.length)
      | .cutShort token =>
          let (answer, cursor) := (cursor.advance (c :: t).length).peek
          (answer.map fun _ => some token, cursor)

end Cursor

end SqlScript

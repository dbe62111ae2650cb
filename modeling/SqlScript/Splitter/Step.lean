/-
The state of a splitter between events, and what one event does to it.
-/
import SqlScript.Event
import SqlScript.Log

namespace SqlScript

/-- A reader's choices about splitting. -/
structure Options where
  /-- Whether text in front of a directive is a statement of its own; without
  it that text is dropped. -/
  flushBeforeDirective : Bool := true
deriving Repr, DecidableEq

namespace Splitter

/-- What a splitter knows between two events. -/
structure State where
  /-- The active delimiter. -/
  delimiter : Text := Event.semicolon
  /-- How many blocks are open. -/
  depth : Nat := 0
  /-- Pieces of text that no statement has taken yet, the last one first. -/
  pieces : List Text := []
  /-- How many characters have been read. -/
  position : Nat := 0
deriving Repr, DecidableEq

/-- An event, what it gave out, and the state it led to. -/
structure Step where
  event : Event
  statements : List Text
  log : List Record
  next : State
deriving Repr, DecidableEq

/-- A text as a list of statements: itself, or none when it is blank. -/
def unlessBlank (t : Text) : List Text :=
  if Text.allBlank t then [] else [t]

/-- A text as a list of statements: itself, or none when it is empty. -/
def unlessEmpty (t : Text) : List Text :=
  if t = [] then [] else [t]

namespace State

/-- The text that no statement has taken yet. -/
def buffer (state : State) : Text :=
  state.pieces.reverse.flatten

/-- Add a piece to the buffer. -/
def collect (state : State) (piece : Text) : State :=
  { state with pieces := piece :: state.pieces, position := state.position + piece.length }

/-- Empty the buffer, after `count` more characters. -/
def clear (state : State) (count : Nat) : State :=
  { state with pieces := [], position := state.position + count }

@[simp] theorem buffer_collect (state : State) (piece : Text) :
    (state.collect piece).buffer = state.buffer ++ piece := by
  simp [buffer, collect]

@[simp] theorem buffer_clear (state : State) (count : Nat) :
    (state.clear count).buffer = [] := rfl

@[simp] theorem delimiter_collect (state : State) (piece : Text) :
    (state.collect piece).delimiter = state.delimiter := rfl

@[simp] theorem delimiter_clear (state : State) (count : Nat) :
    (state.clear count).delimiter = state.delimiter := rfl

@[simp] theorem depth_collect (state : State) (piece : Text) :
    (state.collect piece).depth = state.depth := rfl

@[simp] theorem depth_clear (state : State) (count : Nat) :
    (state.clear count).depth = state.depth := rfl

/-- What a directive with the argument `argument` reports: the change it made,
or that it made none. -/
def directiveRecord (state : State) (argument : Text) : Record :=
  if argument = [] then .delimiterMissing state.position state.delimiter
  else .delimiterChanged state.delimiter argument

/-- An empty argument keeps the active delimiter. -/
def setDelimiter (state : State) (argument : Text) : State :=
  if argument = [] then state else { state with delimiter := argument }

@[simp] theorem buffer_setDelimiter (state : State) (argument : Text) :
    (state.setDelimiter argument).buffer = state.buffer := by
  unfold setDelimiter
  split <;> rfl

@[simp] theorem delimiter_setDelimiter (state : State) (argument : Text) :
    (state.setDelimiter argument).delimiter =
      if argument = [] then state.delimiter else argument := by
  unfold setDelimiter
  split <;> rfl

/-- Take in a token: only a semicolon outside every block ends a statement, and
only a directive changes the delimiter. -/
def takeToken (options : Options) (state : State) (token : Token) : Step :=
  let collected := state.collect token.lexeme
  match token with
  | .text _ => ⟨.token token, [], [], collected⟩
  | .blockOpen _ => ⟨.token token, [], [], { collected with depth := state.depth + 1 }⟩
  | .blockClose _ => ⟨.token token, [], [], { collected with depth := state.depth - 1 }⟩
  | .statementEnd =>
      if state.depth = 0 then
        ⟨.token token, [collected.buffer], [], state.clear token.lexeme.length⟩
      else ⟨.token token, [], [], collected⟩
  | .directive directive =>
      let flushed := if options.flushBeforeDirective then unlessBlank state.buffer else []
      let cleared := state.clear token.lexeme.length
      ⟨.token token, flushed, [cleared.directiveRecord directive.delimiter],
        cleared.setDelimiter directive.delimiter⟩

/-- Take in an event.  What a raw scan found takes the place of the buffer, and
becomes a statement unless it is blank; only the remainder of a script stays in
the buffer. -/
def take (options : Options) (state : State) (event : Event) : Step :=
  let cleared := state.clear event.lexeme.length
  match event with
  | .token token => state.takeToken options token
  | .statement text _ => ⟨event, unlessBlank text, [], cleared⟩
  | .directive preceding directive =>
      ⟨event, unlessBlank preceding, [cleared.directiveRecord directive.delimiter],
        cleared.setDelimiter directive.delimiter⟩
  | .remainder text _ => ⟨event, [], [], { cleared with pieces := [text] }⟩

/-- What is left in the buffer at the end of a script is its last statement,
even when it is blank. -/
def leftover (state : State) : List Text :=
  unlessEmpty state.buffer

end State

end Splitter

end SqlScript

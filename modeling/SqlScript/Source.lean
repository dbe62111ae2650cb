/-
Sources of bytes, and why reading from one may fail.
-/
import SqlScript.Utf8

namespace SqlScript

/-- What a source answers once its bytes are used up. -/
inductive Ending where
  | endOfInput
  /-- Every further read fails for this reason. -/
  | failure (reason : Text)
deriving Repr, DecidableEq

/-- A source gives its bytes and then its ending. -/
structure Source where
  bytes : Bytes
  ending : Ending
deriving Repr, DecidableEq

inductive ReadError where
  /-- Bytes that are no character, `offset` bytes into the source. -/
  | invalidUtf8 (offset : Nat)
  /-- A line that is no text. -/
  | invalidLine
  /-- The source itself failed. -/
  | failed (reason : Text)
deriving Repr, DecidableEq

/-- The reason given when bytes read as a whole are no text. -/
def notText : Text := "stream did not contain valid UTF-8".toList

def ReadError.message : ReadError → Text
  | .invalidUtf8 offset =>
      "Invalid UTF-8 in input at byte offset ".toList ++ (toString offset).toList
  | .invalidLine => "IO error: ".toList ++ notText
  | .failed reason => "IO error: ".toList ++ reason

/-- The error that an ending is, if it is one. -/
def Ending.error? : Ending → Option ReadError
  | .endOfInput => none
  | .failure reason => some (.failed reason)

namespace Source

def ofText (t : Text) : Source :=
  ⟨Utf8.encode t, .endOfInput⟩

/-- What one piece gives its reader.  The source fails before a broken off
character is complete, if it fails; then its bytes are never seen. -/
def deliver (ending : Ending) : Piece → Option (Except ReadError Char)
  | .char c => some (.ok c)
  | .malformed offset => some (.error (.invalidUtf8 offset))
  | .brokenOff offset =>
      match ending with
      | .endOfInput => some (.error (.invalidUtf8 offset))
      | .failure _ => none

/-- The characters and errors that a source gives its reader before its
ending. -/
def deliveries (source : Source) : List (Except ReadError Char) :=
  (Utf8.pieces source.bytes).filterMap (deliver source.ending)

end Source

/-- The characters in front of the first error. -/
def textBefore : List (Except ReadError Char) → Text
  | .ok c :: others => c :: textBefore others
  | _ => []

/-- The first error, if there is one. -/
def firstError? : List (Except ReadError Char) → Option ReadError
  | [] => none
  | .ok _ :: others => firstError? others
  | .error e :: _ => some e

namespace Source

/-- The text that can be read before anything goes wrong. -/
def text (source : Source) : Text :=
  textBefore source.deliveries

/-- What stands behind the readable text, unless that is the end of input. -/
def obstacle? (source : Source) : Option ReadError :=
  (firstError? source.deliveries).or source.ending.error?

end Source

end SqlScript

/-
Bytes as characters.  Decoding cuts any bytes into pieces: encoded characters,
and stretches that no character's encoding begins.
-/
import SqlScript.Text.Basic

namespace SqlScript

abbrev Bytes := List UInt8

/-- One piece of decoded bytes; offsets count the bytes before a piece. -/
inductive Piece where
  | char (c : Char)
  /-- A stretch that is no character's encoding. -/
  | malformed (offset : Nat)
  /-- The last bytes, of which the first announces more than there are. -/
  | brokenOff (offset : Nat)
deriving Repr, DecidableEq

/-- The character of a piece that is one. -/
def Piece.char? : Piece → Option Char
  | .char c => some c
  | _ => none

namespace Utf8

/-- The bytes that encode a text. -/
def encode (t : Text) : Bytes :=
  t.flatMap String.utf8EncodeChar

/-- The character whose encoding the bytes begin with, if any. -/
def firstChar? (bytes : Bytes) : Option Char :=
  (bytes.take 4).toByteArray.utf8DecodeChar? 0

/-- How many bytes a lead byte announces, itself included; none when no
encoding begins with it. -/
def announcedWidth? (lead : UInt8) : Option Nat :=
  if lead ≤ 0x7f then some 1
  else if 0xc2 ≤ lead ∧ lead ≤ 0xdf then some 2
  else if 0xe0 ≤ lead ∧ lead ≤ 0xef then some 3
  else if 0xf0 ≤ lead ∧ lead ≤ 0xf4 then some 4
  else none

/-- How many bytes a stretch takes that is no character: as many as its lead
byte announces, or that byte alone. -/
def stretchWidth (lead : UInt8) : Nat :=
  (announcedWidth? lead).getD 1

theorem stretchWidth_pos (lead : UInt8) : 0 < stretchWidth lead := by
  unfold stretchWidth announcedWidth?
  repeat' split
  all_goals decide

/-- Cut bytes into pieces, `offset` bytes into the whole. -/
def piecesFrom (offset : Nat) : Bytes → List Piece
  | [] => []
  | lead :: bytes =>
      match firstChar? (lead :: bytes) with
      | some c =>
          .char c :: piecesFrom (offset + c.utf8Size) ((lead :: bytes).drop c.utf8Size)
      | none =>
          let width := stretchWidth lead
          if (lead :: bytes).length < width then [.brokenOff offset]
          else .malformed offset :: piecesFrom (offset + width) ((lead :: bytes).drop width)
termination_by bytes => bytes.length
decreasing_by
  · have := c.utf8Size_pos
    simp only [List.length_drop, List.length_cons]
    omega
  · have := stretchWidth_pos lead
    simp only [List.length_drop, List.length_cons]
    omega

/-- Cut bytes into characters and stretches that are none. -/
def pieces (bytes : Bytes) : List Piece :=
  piecesFrom 0 bytes

/-- The text that the bytes encode, if they encode one. -/
def decode? (bytes : Bytes) : Option Text :=
  (pieces bytes).mapM Piece.char?

end Utf8

end SqlScript

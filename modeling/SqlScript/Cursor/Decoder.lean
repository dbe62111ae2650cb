/-
A decoder holds the bytes of a source that were not pulled yet, and one character
that was looked at or put back.  It answers the operations of a cursor: a
character is decoded when it is asked for, and a token is taken character by
character.
-/
import SqlScript.Cursor.Operation
import SqlScript.Token.Stage

namespace SqlScript

structure Decoder where
  /-- The bytes that were not pulled yet. -/
  bytes : Bytes
  ending : Ending
  /-- The character that comes before all bytes. -/
  pending : Option Char
  /-- How many bytes were pulled. -/
  offset : Nat
  /-- How many characters have been taken and not put back. -/
  position : Nat
deriving Repr, DecidableEq

namespace Decoder

def ofSource (source : Source) : Decoder :=
  ⟨source.bytes, source.ending, none, 0, 0⟩

/-- Pull `count` bytes, or as many as there are. -/
def pull (decoder : Decoder) (count : Nat) : Decoder :=
  { decoder with
    bytes := decoder.bytes.drop count
    offset := decoder.offset + (decoder.bytes.take count).length }

/-- Pull and decode the bytes of one character: as many as the first of them
announces, or that byte alone.  A source that fails does so before the last of
them is there. -/
def decode (decoder : Decoder) : Except ReadError (Option Char) × Decoder :=
  let invalid := ReadError.invalidUtf8 decoder.offset
  match decoder.bytes with
  | [] => (Cursor.beyond decoder.ending, decoder)
  | lead :: bytes =>
      match Utf8.announcedWidth? lead with
      | none => (.error invalid, decoder.pull 1)
      | some width =>
          if (lead :: bytes).length < width then
            (.error (decoder.ending.error?.getD invalid), decoder.pull width)
          else
            match Utf8.firstChar? ((lead :: bytes).take width) with
            | none => (.error invalid, decoder.pull width)
            | some c => (.ok (some c), decoder.pull width)

/-- Take the next character. -/
def next (decoder : Decoder) : Except ReadError (Option Char) × Decoder :=
  match decoder.pending with
  | some c => (.ok (some c), { decoder with pending := none, position := decoder.position + 1 })
  | none =>
      match decoder.decode with
      | (.ok (some c), behind) => (.ok (some c), { behind with position := behind.position + 1 })
      | (answer, behind) => (answer, behind)

/-- Look at the next character; it is decoded once, and then pending. -/
def peek (decoder : Decoder) : Except ReadError (Option Char) × Decoder :=
  match decoder.pending with
  | some c => (.ok (some c), decoder)
  | none =>
      match decoder.decode with
      | (.ok found, behind) => (.ok found, { behind with pending := found })
      | (.error e, behind) => (.error e, behind)

/-- Put a character in front, in place of the one taken last.  There is room for
it as long as no character is pending. -/
def unread (decoder : Decoder) (c : Char) : Decoder :=
  { decoder with pending := some c, position := decoder.position - 1 }

/-- Meet the next character by looking at it, or else by taking it. -/
def meet (looks : Bool) (decoder : Decoder) : Except ReadError (Option Char) × Decoder :=
  if looks then decoder.peek else decoder.next

/-- Take the character that was met, unless it is taken. -/
def accept (looks : Bool) (decoder : Decoder) : Decoder :=
  if looks then decoder.next.2 else decoder

/-- What there is to take: bytes, and the pending character. -/
def size (decoder : Decoder) : Nat :=
  decoder.bytes.length + decoder.pending.toList.length

/-- Decoding only pulls bytes. -/
theorem exists_decode_eq_pull (decoder : Decoder) :
    ∃ count, decoder.decode.2 = decoder.pull count := by
  have hnone : decoder = decoder.pull 0 := by simp [pull]
  unfold decode
  split
  · exact ⟨0, hnone⟩
  split
  · exact ⟨1, rfl⟩
  · rename_i width _
    split
    · exact ⟨width, rfl⟩
    · split <;> exact ⟨width, rfl⟩

/-- A character is decoded from at least one byte. -/
theorem bytes_decode_length_lt {decoder behind : Decoder} {c : Char}
    (h : decoder.decode = (.ok (some c), behind)) :
    behind.bytes.length < decoder.bytes.length := by
  rw [decode] at h
  split at h
  · rw [Cursor.beyond] at h
    split at h <;> simp at h
  rename_i lead bytes hbytes
  split at h
  · simp at h
  rename_i width hwidth
  split at h
  · simp at h
  split at h
  · simp at h
  · obtain ⟨-, rfl⟩ := Prod.mk.inj h
    have hpos := Utf8.stretchWidth_pos lead
    rw [Utf8.stretchWidth, hwidth, Option.getD_some] at hpos
    rw [pull, List.length_drop, hbytes, List.length_cons]
    omega

theorem pending_decode (decoder : Decoder) : decoder.decode.2.pending = decoder.pending := by
  obtain ⟨count, hcount⟩ := decoder.exists_decode_eq_pull
  rw [hcount]
  rfl

/-- Taking a character leaves less to take. -/
theorem size_next_lt {decoder behind : Decoder} {c : Char}
    (h : decoder.next = (.ok (some c), behind)) : behind.size < decoder.size := by
  rw [next] at h
  split at h
  · rename_i d hpending
    obtain ⟨-, rfl⟩ := Prod.mk.inj h
    simp [size, hpending]
  · rename_i hpending
    split at h
    · rename_i d after hdecode
      obtain ⟨-, rfl⟩ := Prod.mk.inj h
      have hkept : after.pending = decoder.pending := by rw [← decoder.pending_decode, hdecode]
      simp only [size, hkept]
      exact Nat.add_lt_add_right (bytes_decode_length_lt hdecode) _
    · rename_i answer after hother _
      obtain ⟨rfl, -⟩ := Prod.mk.inj h
      exact absurd rfl (hother c)

/-- A character that was looked at is pending, and whoever takes it takes the same
as without looking. -/
theorem next_of_peek {decoder seen : Decoder} {c : Char}
    (h : decoder.peek = (.ok (some c), seen)) :
    seen.pending = some c ∧ seen.next = decoder.next := by
  rw [peek] at h
  split at h
  · rename_i d hpending
    obtain ⟨hfound, rfl⟩ := Prod.mk.inj h
    exact ⟨hpending.trans (Except.ok.inj hfound), rfl⟩
  · rename_i hpending
    split at h
    · rename_i found after hdecode
      obtain ⟨hfound, rfl⟩ := Prod.mk.inj h
      obtain rfl : found = some c := Except.ok.inj hfound
      have hkept : after.pending = none := by
        rw [← hpending, ← decoder.pending_decode, hdecode]
      refine ⟨rfl, ?_⟩
      simp only [next, hpending, hdecode, hkept]
    · simp at h

/-- A character that was met is taken, looked at before or not. -/
theorem next_of_meet {looks : Bool} {decoder met : Decoder} {c : Char}
    (h : decoder.meet looks = (.ok (some c), met)) :
    decoder.next = (.ok (some c), met.accept looks) := by
  cases looks with
  | false => exact h
  | true =>
      obtain ⟨hpending, hnext⟩ := next_of_peek h
      have htaken : met.next = (.ok (some c), met.next.2) := by
        rw [next, hpending]
      rw [← hnext]
      exact htaken

/-- Take the rest of a token at a stage, if there is one. -/
def takeToken (decoder : Decoder) (stage : Token.Stage) :
    Except ReadError (Option Token) × Decoder :=
  match _h : decoder.meet stage.looks with
  | (.error e, met) => (.error e, met)
  | (.ok none, met) => (.ok stage.token?, met)
  | (.ok (some c), met) =>
      match stage.judge c with
      | .leave token => (.ok (some token), met)
      | .last token => (.ok (some token), met.accept stage.looks)
      | .goOn following => takeToken (met.accept stage.looks) following
termination_by decoder.size
decreasing_by exact size_next_lt (next_of_meet _h)

/-- Take the next token. -/
def nextToken (decoder : Decoder) : Except ReadError (Option Token) × Decoder :=
  decoder.takeToken .start

/-- Carry out one operation. -/
def perform (decoder : Decoder) : Cursor.Operation → Except ReadError Cursor.Answer × Decoder
  | .token => (decoder.nextToken.1.map .token, decoder.nextToken.2)
  | .next => (decoder.next.1.map .char, decoder.next.2)
  | .peek => (decoder.peek.1.map .char, decoder.peek.2)
  | .unread c => (.ok .nothing, decoder.unread c)
  | .position => (.ok .nothing, decoder)
  | .release => (.ok .nothing, decoder)

/-- Carry out operations in order, with the answer to each and the position behind
it. -/
def performAll (decoder : Decoder) :
    List Cursor.Operation → List (Except ReadError Cursor.Answer × Nat)
  | [] => []
  | operation :: others =>
      let (answer, decoder) := decoder.perform operation
      (answer, decoder.position) :: performAll decoder others

end Decoder

end SqlScript

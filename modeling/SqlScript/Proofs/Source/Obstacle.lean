/-
What can be read from any source.  Its text is the longest that its bytes begin
with.  Behind it stands the end of input, the failure of the source, or bytes
that begin with no encoding; a source that fails inside an encoding hides the
bytes in front of its failure.
-/
import SqlScript.Proofs.Source.Partition

namespace SqlScript

namespace Utf8

/-- Whether bytes end before their lead byte has all the bytes that it
announces; no bytes do. -/
def CutOff (bytes : Bytes) : Prop :=
  ∀ lead ∈ bytes.head?, ∃ width ∈ announcedWidth? lead, bytes.length < width

theorem cutOff_nil : CutOff [] := by
  intro lead hlead
  exact absurd hlead (by simp)

theorem cutOff_cons_iff {lead : UInt8} {bytes : Bytes} :
    CutOff (lead :: bytes) ↔ (lead :: bytes).length < stretchWidth lead := by
  simp only [CutOff, List.head?_cons, Option.mem_some_iff, forall_eq', stretchWidth]
  cases announcedWidth? lead with
  | none => simp
  | some width => simp

instance : DecidablePred CutOff := fun bytes =>
  match bytes with
  | [] => isTrue cutOff_nil
  | _ :: _ => decidable_of_iff _ cutOff_cons_iff.symm

/-- Behind a text that its bytes begin with, no text can go on where no encoding
begins. -/
theorem isPrefix_of_encode_isPrefix {p q : Text} {left : Bytes}
    (hleft : ∀ c, ¬ String.utf8EncodeChar c <+: left)
    (h : encode q <+: encode p ++ left) : q <+: p := by
  induction q generalizing p with
  | nil => exact List.nil_prefix
  | cons c q ih =>
      have hc : String.utf8EncodeChar c <+: encode (c :: q) := List.prefix_append _ _
      cases p with
      | nil => exact absurd (hc.trans h) (hleft c)
      | cons d p =>
          have hd : String.utf8EncodeChar d <+: encode (d :: p) ++ left := by
            rw [encode, List.flatMap_cons, List.append_assoc]
            exact List.prefix_append _ _
          obtain rfl := eq_of_utf8EncodeChar_isPrefix (hc.trans h) hd
          rw [encode, List.flatMap_cons, encode, List.flatMap_cons, List.append_assoc,
            List.prefix_append_right_inj] at h
          exact List.cons_prefix_cons.mpr ⟨rfl, ih h⟩

end Utf8

namespace Source

open Utf8

/-- What a reader meets behind the text of a source, `offset` bytes into it, when
the bytes `left` that begin with no encoding stand in front of the ending. -/
def obstacleAt? (ending : Ending) (offset : Nat) (left : Bytes) : Option ReadError :=
  match ending with
  | .endOfInput => if left = [] then none else some (.invalidUtf8 offset)
  | .failure reason =>
      if CutOff left then some (.failed reason) else some (.invalidUtf8 offset)

theorem length_encode_cons (c : Char) (t : Text) :
    (encode (c :: t)).length = c.utf8Size + (encode t).length := by
  rw [encode, List.flatMap_cons, List.length_append, String.length_utf8EncodeChar, encode]

theorem obstacleAt?_nil (ending : Ending) (offset : Nat) :
    obstacleAt? ending offset [] = ending.error? := by
  cases ending with
  | endOfInput => rfl
  | failure reason =>
      rw [obstacleAt?, if_pos cutOff_nil]
      rfl

/-- The bytes of a source are the text in front of the first error and bytes
that begin with no encoding, and those tell what the reader meets next. -/
theorem exists_left (ending : Ending) (offset : Nat) (bytes : Bytes) :
    let delivered := (piecesFrom offset bytes).filterMap (deliver ending)
    ∃ left, bytes = encode (textBefore delivered) ++ left ∧
      (∀ c, ¬ String.utf8EncodeChar c <+: left) ∧
      (firstError? delivered).or ending.error? =
        obstacleAt? ending (offset + (encode (textBefore delivered)).length) left := by
  fun_induction piecesFrom offset bytes with
  | case1 offset =>
      refine ⟨[], rfl, ?_, (obstacleAt?_nil ending offset).symm⟩
      intro c hc
      exact String.utf8EncodeChar_ne_nil (List.prefix_nil.mp hc)
  | case2 offset lead bytes c hfirst ih =>
      obtain ⟨left, hbytes, hleft, hobstacle⟩ := ih
      have hwhole := List.prefix_iff_eq_append.mp (firstChar?_eq_some_iff.mp hfirst)
      rw [String.length_utf8EncodeChar, hbytes, ← List.append_assoc] at hwhole
      refine ⟨left, hwhole.symm, hleft, ?_⟩
      rw [Nat.add_assoc, ← length_encode_cons] at hobstacle
      exact hobstacle
  | case3 offset lead bytes hfirst width hlength =>
      have hleft := firstChar?_eq_none_iff.mp hfirst
      cases ending with
      | endOfInput => exact ⟨lead :: bytes, rfl, hleft, rfl⟩
      | failure reason =>
          exact ⟨lead :: bytes, rfl, hleft, (if_pos (cutOff_cons_iff.mpr hlength)).symm⟩
  | case4 offset lead bytes hfirst width hlength ih =>
      have hleft := firstChar?_eq_none_iff.mp hfirst
      refine ⟨lead :: bytes, rfl, hleft, ?_⟩
      cases ending with
      | endOfInput => rfl
      | failure reason => exact (if_neg (mt cutOff_cons_iff.mp hlength)).symm

/-- The bytes of a source are its text and bytes that begin with no encoding. -/
theorem exists_bytes_eq (source : Source) :
    ∃ left, source.bytes = encode source.text ++ left ∧
      (∀ c, ¬ String.utf8EncodeChar c <+: left) ∧
      source.obstacle? = obstacleAt? source.ending (encode source.text).length left := by
  obtain ⟨left, hbytes, hleft, hobstacle⟩ := exists_left source.ending 0 source.bytes
  rw [Nat.zero_add] at hobstacle
  exact ⟨left, hbytes, hleft, hobstacle⟩

end Source

end SqlScript

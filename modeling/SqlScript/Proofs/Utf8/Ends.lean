/-
The ends of encodings.  The byte that a character's encoding begins with goes on
no other, so an encoded text ends with another exactly when the texts do: whoever
compares bytes at the end of a text finds what comparing characters finds.
-/
import Mathlib.Data.List.Induction
import SqlScript.Proofs.Utf8.Decoding

namespace SqlScript.Utf8

theorem encode_append (front t : Text) : encode (front ++ t) = encode front ++ encode t :=
  List.flatMap_append

theorem encode_concat (front : Text) (c : Char) :
    encode (front ++ [c]) = encode front ++ String.utf8EncodeChar c := by
  rw [encode_append, encode_cons, encode_nil, List.append_nil]

theorem not_isContinuation_of_utf8EncodeChar {c : Char} {lead : UInt8} {others : Bytes}
    (h : String.utf8EncodeChar c = lead :: others) : ¬ IsContinuation lead := by
  rintro ⟨hfirst, hlast⟩
  have hannounced := announcedWidth?_of_utf8EncodeChar h
  simp only [UInt8.le_iff_toNat_le, UInt8.lt_iff_toNat_lt, UInt8.reduceToNat] at hfirst hlast
  simp only [announcedWidth?, UInt8.le_iff_toNat_le, UInt8.reduceToNat] at hannounced
  repeat' split at hannounced
  all_goals first | omega | exact absurd hannounced (by simp)

/-- No character's encoding is a proper end of another's. -/
theorem eq_of_utf8EncodeChar_isSuffix {c d : Char}
    (h : String.utf8EncodeChar c <:+ String.utf8EncodeChar d) : c = d := by
  obtain ⟨lead, others, hc, -⟩ := exists_cons_of_utf8EncodeChar c
  obtain ⟨lead', others', hd, -, -, hothers'⟩ := exists_cons_of_utf8EncodeChar d
  rw [hc, hd] at h
  rcases List.suffix_cons_iff.mp h with hwhole | hshort
  · rw [← hc, ← hd] at hwhole
    exact eq_of_utf8EncodeChar_isPrefix (List.prefix_refl _) (hwhole ▸ List.prefix_refl _)
  · have hmem : lead ∈ others' := hshort.subset List.mem_cons_self
    exact absurd (hothers' lead hmem) (not_isContinuation_of_utf8EncodeChar hc)

theorem encode_isSuffix_encode_iff {mark t : Text} : encode mark <:+ encode t ↔ mark <:+ t := by
  constructor
  · intro h
    -- From the end: the last characters agree, and so do the texts in front of them.
    induction mark using List.reverseRecOn generalizing t with
    | nil => exact List.nil_suffix
    | append_singleton mark c ih =>
        rw [encode_concat] at h
        rcases List.eq_nil_or_concat t with rfl | ⟨front, d, rfl⟩
        · obtain ⟨lead, others, hc, -⟩ := exists_cons_of_utf8EncodeChar c
          simp [hc] at h
        · rw [List.concat_eq_append, encode_concat] at h
          rw [List.concat_eq_append]
          have hlast : c = d := by
            have hc := (List.suffix_append (encode mark) (String.utf8EncodeChar c)).trans h
            rcases List.suffix_or_suffix_of_suffix hc (List.suffix_append _ _) with hcd | hdc
            · exact eq_of_utf8EncodeChar_isSuffix hcd
            · exact (eq_of_utf8EncodeChar_isSuffix hdc).symm
          subst hlast
          exact List.suffix_append_self_iff.mpr (ih (List.suffix_append_self_iff.mp h))
  · rintro ⟨front, rfl⟩
    rw [encode_append]
    exact List.suffix_append _ _

/-- Where the bytes behind `opener` have room for those of `mark`, the end of the
whole tells whether `body` ends with `mark`, and `opener` has no part in it. -/
theorem encode_isSuffix_behind_iff {mark opener body : Text} :
    (encode mark).length ≤ (encode (opener ++ body)).length - (encode opener).length ∧
        encode mark <:+ encode (opener ++ body) ↔ mark <:+ body := by
  rw [encode_append, List.length_append, Nat.add_sub_cancel_left, ← encode_isSuffix_encode_iff]
  constructor
  · rintro ⟨hroom, hends⟩
    exact List.suffix_of_suffix_length_le hends (List.suffix_append _ _) hroom
  · intro hends
    exact ⟨hends.length_le, hends.trans (List.suffix_append _ _)⟩

end SqlScript.Utf8

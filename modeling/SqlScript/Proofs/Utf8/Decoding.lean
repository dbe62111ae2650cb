/-
Bytes as text.  Whole bytes decode to a text exactly when they are its encoding.
The newline byte is met in the encoding of a newline and nowhere else.
-/
import SqlScript.Proofs.Source.Partition

namespace SqlScript

namespace Utf8

@[simp] theorem encode_nil : encode [] = [] := rfl

@[simp] theorem encode_cons (c : Char) (t : Text) :
    encode (c :: t) = String.utf8EncodeChar c ++ encode t := rfl

@[simp] theorem encode_flatten (texts : List Text) :
    encode texts.flatten = (texts.map encode).flatten := by
  simp only [encode, List.flatMap_def, List.map_flatten, List.flatten_flatten, List.map_map]
  rfl

theorem decode?_encode (t : Text) : decode? (encode t) = some t := by
  have hchars : ∀ s : Text, (s.map Piece.char).mapM Piece.char? = some s := by
    intro s
    induction s with
    | nil => rfl
    | cons c s ih => simp [ih, Piece.char?]
  rw [decode?, pieces_encode, hchars]

/-- Pieces that are all characters are cut from an encoding. -/
theorem eq_encode_of_piecesFrom {offset : Nat} {bytes : Bytes} {t : Text}
    (h : (piecesFrom offset bytes).mapM Piece.char? = some t) : bytes = encode t := by
  fun_induction piecesFrom offset bytes generalizing t with
  | case1 offset =>
      obtain rfl : [] = t := by simpa using h
      rfl
  | case2 offset lead bytes c hfirst ih =>
      simp only [List.mapM_cons, Piece.char?, Option.pure_def, Option.bind_eq_bind,
        Option.bind_some, Option.bind_eq_some_iff, Option.some.injEq] at h
      obtain ⟨others, hothers, rfl⟩ := h
      have hwhole := List.prefix_iff_eq_append.mp (firstChar?_eq_some_iff.mp hfirst)
      rw [String.length_utf8EncodeChar, ih hothers] at hwhole
      exact hwhole.symm
  | case3 => simp [Piece.char?] at h
  | case4 => simp [Piece.char?] at h

theorem decode?_eq_some_iff {bytes : Bytes} {t : Text} :
    decode? bytes = some t ↔ bytes = encode t := by
  constructor
  · exact eq_encode_of_piecesFrom
  · rintro rfl
    exact decode?_encode t

theorem decode?_eq_none_iff {bytes : Bytes} :
    decode? bytes = none ↔ ∀ t, bytes ≠ encode t := by
  simp only [Option.eq_none_iff_forall_ne_some, ne_eq, decode?_eq_some_iff]

/-- The newline byte belongs to no other character's encoding: it would be a lead
byte that begins the encoding of a newline, or a byte that goes on. -/
theorem newline_not_mem_utf8EncodeChar {c : Char} (hc : c ≠ '\n') :
    0x0a ∉ String.utf8EncodeChar c := by
  obtain ⟨lead, others, hencoded, -, -, hothers⟩ := exists_cons_of_utf8EncodeChar c
  intro hmem
  rw [hencoded] at hmem
  rcases List.mem_cons.mp hmem with rfl | hmem
  · have hnewline : String.utf8EncodeChar '\n' <+: String.utf8EncodeChar c := by
      rw [hencoded]
      exact ⟨others, rfl⟩
    exact hc (eq_of_utf8EncodeChar_isPrefix (List.prefix_refl _) hnewline)
  · have hcontinuation := hothers _ hmem
    exact absurd hcontinuation.1 (by decide)

end Utf8

end SqlScript

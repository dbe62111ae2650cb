/-
Sources made from texts.  The bytes that encode a text are cut into exactly
its characters, so such a source delivers the text, meets no obstacle and then
ends.  Reading a text through its bytes never fails.
-/
import SqlScript.Cursor.Basic
import SqlScript.Splitter.Run

namespace SqlScript

namespace Utf8

/-- Decoding looks at no more bytes than the first character's encoding has. -/
theorem firstChar?_utf8EncodeChar_append (c : Char) (bytes : Bytes) :
    firstChar? (String.utf8EncodeChar c ++ bytes) = some c := by
  have hlength : (String.utf8EncodeChar c).length ≤ 4 := by
    rw [String.length_utf8EncodeChar]
    exact c.utf8Size_le_four
  rw [firstChar?, List.take_append, List.take_of_length_le hlength, List.toByteArray_append]
  exact ByteArray.utf8DecodeChar?_utf8EncodeChar_append

theorem piecesFrom_utf8EncodeChar_append (offset : Nat) (c : Char) (bytes : Bytes) :
    piecesFrom offset (String.utf8EncodeChar c ++ bytes) =
      .char c :: piecesFrom (offset + c.utf8Size) bytes := by
  have hdrop : (String.utf8EncodeChar c ++ bytes).drop c.utf8Size = bytes := by
    rw [← String.length_utf8EncodeChar, List.drop_left]
  have hfirst := firstChar?_utf8EncodeChar_append c bytes
  obtain ⟨lead, others, hencoded⟩ :=
    List.exists_cons_of_ne_nil (String.utf8EncodeChar_ne_nil (c := c))
  rw [hencoded, List.cons_append] at hdrop hfirst ⊢
  rw [piecesFrom, hfirst]
  simp only [hdrop]

theorem piecesFrom_encode (offset : Nat) (t : Text) :
    piecesFrom offset (encode t) = t.map .char := by
  induction t generalizing offset with
  | nil => rw [encode, List.flatMap_nil, piecesFrom, List.map_nil]
  | cons c t ih =>
      rw [encode, List.flatMap_cons, piecesFrom_utf8EncodeChar_append, List.map_cons]
      exact congrArg _ (ih (offset + c.utf8Size))

/-- The bytes of a text are cut into its characters and nothing else. -/
theorem pieces_encode (t : Text) : pieces (encode t) = t.map .char :=
  piecesFrom_encode 0 t

end Utf8

namespace Source

@[simp] theorem deliveries_ofText (t : Text) : (ofText t).deliveries = t.map .ok := by
  rw [deliveries, ofText, Utf8.pieces_encode, List.filterMap_map]
  have hdeliver : deliver .endOfInput ∘ Piece.char = fun c : Char => some (.ok c) := rfl
  rw [hdeliver, List.filterMap_eq_map']

end Source

@[simp] theorem textBefore_map_ok (t : Text) : textBefore (t.map .ok) = t := by
  induction t with
  | nil => rfl
  | cons c t ih => exact congrArg (c :: ·) ih

@[simp] theorem firstError?_map_ok (t : Text) : firstError? (t.map .ok) = none := by
  induction t with
  | nil => rfl
  | cons c t ih => exact ih

namespace Source

@[simp] theorem text_ofText (t : Text) : (ofText t).text = t := by
  rw [text, deliveries_ofText, textBefore_map_ok]

@[simp] theorem obstacle?_ofText (t : Text) : (ofText t).obstacle? = none := by
  rw [obstacle?, deliveries_ofText, firstError?_map_ok]
  rfl

end Source

/-- A cursor over the bytes of a text is a cursor over its characters. -/
theorem Cursor.ofSource_ofText (t : Text) : ofSource (.ofText t) = ofText t := by
  rw [ofSource, Source.deliveries_ofText]
  rfl

/-- Splitting the bytes of a text succeeds, with the statements and the records
of the text. -/
theorem splitSource_ofText (options : Options) (t : Text) :
    splitSource options (.ofText t) =
      ⟨.ok (split options t).statements, (split options t).log⟩ := by
  simp only [splitSource, Source.obstacle?_ofText, Source.text_ofText]
  rfl

end SqlScript

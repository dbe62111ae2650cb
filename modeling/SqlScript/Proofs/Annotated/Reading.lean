/-
Blocks of a source.  Cutting bytes into lines and decoding each line comes to
decoding the bytes and cutting the text: the lines of an encoding are the encodings
of the lines, and bytes are an encoding as soon as each of their lines is one.  So
what is read from a source is the split of its text, and any line that is no text
spoils the whole.
-/
import SqlScript.Annotated.Reader
import SqlScript.Proofs.Text.Lines
import SqlScript.Proofs.Utf8.Decoding

namespace SqlScript

theorem byteLines_encode (t : Text) :
    byteLines (Utf8.encode t) = (Text.cutBehind (· == '\n') t).map Utf8.encode := by
  induction t with
  | nil => rfl
  | cons c t ih =>
      rw [Utf8.encode_cons, byteLines]
      by_cases hc : c = '\n'
      · subst hc
        rw [Text.cutBehind_cons_of_end rfl, List.map_cons, ← ih]
        rfl
      · have hchar : (c == '\n') = false := by simpa using hc
        have hbytes : ∀ byte ∈ String.utf8EncodeChar c, (byte == 0x0a) = false := by
          intro byte hbyte
          have hne := ne_of_mem_of_not_mem hbyte (Utf8.newline_not_mem_utf8EncodeChar hc)
          simpa using hne
        rw [Text.cutBehind_append String.utf8EncodeChar_ne_nil hbytes, ← byteLines, ih,
          Text.cutBehind_cons (p := (· == '\n')) hchar]
        cases Text.cutBehind (· == '\n') t <;> simp


/-- Lines of bytes are all texts, or there is a first that is none. -/
theorem exists_texts_or_undecodable (lines : List Bytes) :
    (∃ texts : List Text, lines = texts.map Utf8.encode) ∨
      ∃ (front : List Text) (line : Bytes) (others : List Bytes),
        lines = front.map Utf8.encode ++ line :: others ∧ ∀ t, line ≠ Utf8.encode t := by
  induction lines with
  | nil => exact .inl ⟨[], rfl⟩
  | cons line lines ih =>
      by_cases hline : ∃ t, line = Utf8.encode t
      · obtain ⟨t, rfl⟩ := hline
        rcases ih with ⟨texts, rfl⟩ | ⟨front, bad, others, rfl, hbad⟩
        · exact .inl ⟨t :: texts, rfl⟩
        · exact .inr ⟨t :: front, bad, others, rfl, hbad⟩
      · exact .inr ⟨[], line, lines, rfl, fun t ht => hline ⟨t, ht⟩⟩

/-- Bytes that are no text have a first line that is none. -/
theorem exists_undecodable_line {bytes : Bytes} (h : ∀ t, bytes ≠ Utf8.encode t) :
    ∃ (front : List Text) (line : Bytes) (others : List Bytes),
      byteLines bytes = front.map Utf8.encode ++ line :: others ∧
        ∀ t, line ≠ Utf8.encode t := by
  rcases exists_texts_or_undecodable (byteLines bytes) with ⟨texts, htexts⟩ | hbad
  · have hbytes := Text.flatten_cutBehind (p := (· == 0x0a)) bytes
    rw [← byteLines, htexts, ← Utf8.encode_flatten] at hbytes
    exact absurd hbytes.symm (h texts.flatten)
  · exact hbad

theorem readLine_encode (t : Text) : readLine (Utf8.encode t) = .ok (Text.withoutEnding t) := by
  rw [readLine, Utf8.decode?_encode]

theorem readLine_of_ne_encode {line : Bytes} (h : ∀ t, line ≠ Utf8.encode t) :
    readLine line = .error .invalidLine := by
  rw [readLine, Utf8.decode?_eq_none_iff.mpr h]

/-- The lines that are read from the bytes of a text are its lines. -/
theorem map_readLine_encode (t : Text) :
    (byteLines (Utf8.encode t)).map readLine = (Text.lines t).map .ok := by
  rw [byteLines_encode, Text.lines_eq_map_withoutEnding, List.map_map, List.map_map]
  exact List.map_congr_left fun line _ => readLine_encode line

namespace BlockBuilder

variable {tool : Text} {builder : BlockBuilder}

theorem readAll_append (lines : List Text) (others : List (Except ReadError Text)) :
    builder.readAll tool (lines.map .ok ++ others) =
      (builder.pushAll tool lines).readAll tool others := by
  induction lines generalizing builder with
  | nil => rfl
  | cons line lines ih => exact ih

/-- The first line that is no text ends the reading. -/
theorem readAll_undecodable {bytes : Bytes} (h : ∀ t, bytes ≠ Utf8.encode t)
    (others : List (Except ReadError Text)) :
    builder.readAll tool ((byteLines bytes).map readLine ++ others) =
      ⟨.error .invalidLine, []⟩ := by
  obtain ⟨front, line, rest, hlines, hline⟩ := exists_undecodable_line h
  have hfront : (front.map Utf8.encode).map readLine =
      (front.map Text.withoutEnding).map .ok := by
    rw [List.map_map, List.map_map]
    exact List.map_congr_left fun t _ => readLine_encode t
  rw [hlines, List.map_append, List.map_cons, readLine_of_ne_encode hline, hfront,
    List.append_assoc, readAll_append]
  rfl

end BlockBuilder

section Sources

variable (tool : Text)

/-- Reading the bytes of a text comes to cutting the text. -/
theorem readAnnotated_ofText (t : Text) :
    readAnnotated tool (.ofText t) =
      ⟨.ok (splitAnnotated tool t), (splitAnnotated tool t).log⟩ := by
  rw [readAnnotated, Source.ofText, Source.lines, map_readLine_encode,
    ← List.append_nil (List.map _ _), BlockBuilder.readAll_append]
  rfl

theorem readAnnotated_undecodable {bytes : Bytes} (h : ∀ t, bytes ≠ Utf8.encode t) :
    readAnnotated tool ⟨bytes, .endOfInput⟩ = ⟨.error .invalidLine, []⟩ := by
  rw [readAnnotated, Source.lines, ← List.append_nil (List.map _ _)]
  exact BlockBuilder.readAll_undecodable h []

/-- A failure is met behind complete lines, unless one of them is no text. -/
theorem readAnnotated_failure (bytes : Bytes) (reason : Text) :
    ((∃ t, completeLines bytes = Utf8.encode t) ∧
      readAnnotated tool ⟨bytes, .failure reason⟩ = ⟨.error (.failed reason), []⟩) ∨
    ((∀ t, completeLines bytes ≠ Utf8.encode t) ∧
      readAnnotated tool ⟨bytes, .failure reason⟩ = ⟨.error .invalidLine, []⟩) := by
  by_cases h : ∃ t, completeLines bytes = Utf8.encode t
  · obtain ⟨t, ht⟩ := h
    refine .inl ⟨⟨t, ht⟩, ?_⟩
    rw [readAnnotated, Source.lines, ht, map_readLine_encode, BlockBuilder.readAll_append]
    rfl
  · have hne : ∀ t, completeLines bytes ≠ Utf8.encode t := fun t ht => h ⟨t, ht⟩
    exact .inr ⟨hne, BlockBuilder.readAll_undecodable hne _⟩

/-- A source that ends normally is cut into blocks when its bytes are a text, and
then as that text is, records included.  Else reading fails, without blocks and
without records.  A source that fails gives its own error, unless a line that is
complete before the failure is no text. -/
theorem readAnnotated_of_bytes (bytes : Bytes) :
    (∀ t, bytes = Utf8.encode t →
      readAnnotated tool ⟨bytes, .endOfInput⟩ =
        ⟨.ok (splitAnnotated tool t), (splitAnnotated tool t).log⟩) ∧
    ((∀ t, bytes ≠ Utf8.encode t) →
      readAnnotated tool ⟨bytes, .endOfInput⟩ = ⟨.error .invalidLine, []⟩) ∧
    ∀ reason,
      ((∃ t, completeLines bytes = Utf8.encode t) ∧
        readAnnotated tool ⟨bytes, .failure reason⟩ = ⟨.error (.failed reason), []⟩) ∨
      ((∀ t, completeLines bytes ≠ Utf8.encode t) ∧
        readAnnotated tool ⟨bytes, .failure reason⟩ = ⟨.error .invalidLine, []⟩) := by
  refine ⟨?_, readAnnotated_undecodable tool, readAnnotated_failure tool bytes⟩
  rintro t rfl
  exact readAnnotated_ofText tool t

end Sources

end SqlScript

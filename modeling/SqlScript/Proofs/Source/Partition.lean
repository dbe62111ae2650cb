/-
Decoding partitions any bytes.  Whoever takes characters from a source until
nothing is left gets one result for each chunk of the bytes: a character for its
encoding, an error for a stretch that begins with no encoding.
-/
import SqlScript.Proofs.Utf8.Shape

namespace SqlScript

namespace Utf8

/-- Bytes decode to a character first when they begin with its encoding. -/
theorem firstChar?_eq_some_iff {bytes : Bytes} {c : Char} :
    firstChar? bytes = some c ↔ String.utf8EncodeChar c <+: bytes := by
  constructor
  · intro h
    obtain ⟨behind, hbytes⟩ := ByteArray.exists_of_utf8DecodeChar?_eq_some h
    have hbegins := congrArg (fun array => array.data.toList) hbytes
    simp only [ByteArray.data_append, Array.toList_append, List.toList_data_toByteArray] at hbegins
    exact (List.prefix_append _ _).trans (hbegins ▸ List.take_prefix 4 bytes)
  · rintro ⟨behind, rfl⟩
    exact firstChar?_utf8EncodeChar_append c behind

theorem firstChar?_eq_none_iff {bytes : Bytes} :
    firstChar? bytes = none ↔ ∀ c, ¬ String.utf8EncodeChar c <+: bytes := by
  rw [Option.eq_none_iff_forall_ne_some]
  exact forall_congr' fun c => not_congr firstChar?_eq_some_iff

/-- The first character of bytes can be told from them. -/
theorem eq_of_utf8EncodeChar_isPrefix {bytes : Bytes} {c d : Char}
    (hc : String.utf8EncodeChar c <+: bytes) (hd : String.utf8EncodeChar d <+: bytes) :
    c = d := by
  have hfirst := firstChar?_eq_some_iff.mpr hc
  rw [firstChar?_eq_some_iff.mpr hd] at hfirst
  exact (Option.some.inj hfirst).symm

theorem stretchWidth_le_four (lead : UInt8) : stretchWidth lead ≤ 4 := by
  unfold stretchWidth announcedWidth?
  repeat' split
  all_goals decide

end Utf8

/-- One result of reading, and the bytes it stands for. -/
structure Chunk where
  bytes : Bytes
  result : Except ReadError Char

namespace Chunk

open Utf8

/-- What a chunk may be, `offset` bytes into a source that goes on with the
bytes `behind`. -/
inductive ReadsAt (offset : Nat) (behind : Bytes) : Chunk → Prop where
  | char (c : Char) : ReadsAt offset behind ⟨String.utf8EncodeChar c, .ok c⟩
  /-- A stretch is as long as its lead byte announces, as far as there are
  bytes; the lead byte stands alone when it announces nothing. -/
  | malformed {lead : UInt8} {stretch : Bytes} (hlead : stretch.head? = some lead)
      (hwidth : stretch.length = min (stretchWidth lead) (stretch ++ behind).length)
      (hnone : ∀ c, ¬ String.utf8EncodeChar c <+: stretch ++ behind) :
      ReadsAt offset behind ⟨stretch, .error (.invalidUtf8 offset)⟩

variable {chunk : Chunk} {offset : Nat} {behind : Bytes}

theorem ReadsAt.length_pos (h : chunk.ReadsAt offset behind) : 1 ≤ chunk.bytes.length := by
  cases h with
  | char c =>
      rw [String.length_utf8EncodeChar]
      exact c.utf8Size_pos
  | malformed hlead hwidth hnone =>
      apply List.length_pos_iff.mpr
      rintro rfl
      exact absurd hlead (by simp)

theorem ReadsAt.length_le_four (h : chunk.ReadsAt offset behind) : chunk.bytes.length ≤ 4 := by
  cases h with
  | char c =>
      rw [String.length_utf8EncodeChar]
      exact c.utf8Size_le_four
  | malformed hlead hwidth hnone =>
      rw [hwidth]
      exact Nat.le_trans (Nat.min_le_left _ _) (stretchWidth_le_four _)

/-- A chunk is as long as its lead byte announces, as far as there are bytes. -/
theorem ReadsAt.width (h : chunk.ReadsAt offset behind) :
    ∃ lead ∈ chunk.bytes.head?,
      chunk.bytes.length = min (stretchWidth lead) (chunk.bytes ++ behind).length := by
  cases h with
  | char c =>
      obtain ⟨lead, others, hencoded, -⟩ := exists_cons_of_utf8EncodeChar c
      have hannounced := announcedWidth?_of_utf8EncodeChar hencoded
      refine ⟨lead, by rw [hencoded]; rfl, ?_⟩
      rw [stretchWidth, hannounced, Option.getD_some, List.length_append,
        String.length_utf8EncodeChar, Nat.min_eq_left (Nat.le_add_right _ _)]
  | malformed hlead hwidth hnone => exact ⟨_, hlead, hwidth⟩

/-- Where an encoding begins, its character is read. -/
theorem ReadsAt.accepts (h : chunk.ReadsAt offset behind) {c : Char}
    (hc : String.utf8EncodeChar c <+: chunk.bytes ++ behind) : chunk.result = .ok c := by
  cases h with
  | char d => rw [eq_of_utf8EncodeChar_isPrefix hc (List.prefix_append _ _)]
  | malformed hlead hwidth hnone => exact absurd hc (hnone c)

/-- Bytes that are ill-formed are rejected where they begin. -/
theorem ReadsAt.rejects (h : chunk.ReadsAt offset behind)
    (hbytes : IllFormed (chunk.bytes ++ behind)) :
    chunk.result = .error (.invalidUtf8 offset) := by
  cases h with
  | char c => exact absurd (List.prefix_append _ _) (hbytes.not_isPrefix c)
  | malformed hlead hwidth hnone => rfl

/-- Chunks that are read one behind the other, the first of them `offset` bytes
into a source. -/
inductive ReadInTurn : (offset : Nat) → List Chunk → Prop where
  | nil (offset : Nat) : ReadInTurn offset []
  | cons {offset : Nat} {chunk : Chunk} {others : List Chunk}
      (hchunk : chunk.ReadsAt offset (others.flatMap Chunk.bytes))
      (hothers : ReadInTurn (offset + chunk.bytes.length) others) :
      ReadInTurn offset (chunk :: others)

/-- Each chunk is read where the chunks in front of it end. -/
theorem ReadInTurn.readsAt {before others : List Chunk}
    (h : ReadInTurn offset (before ++ chunk :: others)) :
    chunk.ReadsAt (offset + (before.flatMap Chunk.bytes).length)
      (others.flatMap Chunk.bytes) := by
  induction before generalizing offset with
  | nil =>
      cases h with
      | cons hchunk hothers => exact hchunk
  | cons first before ih =>
      cases h with
      | cons hchunk hothers =>
          have hread := ih hothers
          rwa [Nat.add_assoc, ← List.length_append, ← List.flatMap_cons] at hread

/-- Any bytes are chunks that are read in turn, with the results that a source
of these bytes delivers. -/
theorem exists_readInTurn (offset : Nat) (bytes : Bytes) :
    ∃ chunks, ReadInTurn offset chunks ∧ chunks.flatMap Chunk.bytes = bytes ∧
      chunks.map Chunk.result =
        (piecesFrom offset bytes).filterMap (Source.deliver .endOfInput) := by
  fun_induction piecesFrom offset bytes with
  | case1 offset => exact ⟨[], .nil offset, rfl, rfl⟩
  | case2 offset lead bytes c hfirst ih =>
      obtain ⟨chunks, hturn, hbytes, hresults⟩ := ih
      rw [← String.length_utf8EncodeChar] at hturn hbytes
      refine ⟨⟨String.utf8EncodeChar c, .ok c⟩ :: chunks, .cons (.char c) hturn, ?_, ?_⟩
      · rw [List.flatMap_cons, hbytes]
        exact List.prefix_iff_eq_append.mp (firstChar?_eq_some_iff.mp hfirst)
      · exact congrArg (.ok c :: ·) hresults
  | case3 offset lead bytes hfirst width hlength =>
      refine ⟨[⟨lead :: bytes, .error (.invalidUtf8 offset)⟩], .cons ?_ (.nil _),
        List.append_nil _, rfl⟩
      apply ReadsAt.malformed rfl
      · rw [List.flatMap_nil, List.append_nil, Nat.min_eq_right (Nat.le_of_lt hlength)]
      · rw [List.flatMap_nil, List.append_nil]
        exact firstChar?_eq_none_iff.mp hfirst
  | case4 offset lead bytes hfirst width hlength ih =>
      obtain ⟨chunks, hturn, hbytes, hresults⟩ := ih
      have hwidth : ((lead :: bytes).take width).length = width := by
        rw [List.length_take]
        omega
      have hwhole : (lead :: bytes).take width ++ chunks.flatMap Chunk.bytes = lead :: bytes := by
        rw [hbytes, List.take_append_drop]
      refine ⟨⟨(lead :: bytes).take width, .error (.invalidUtf8 offset)⟩ :: chunks,
        .cons ?_ ?_, hwhole, ?_⟩
      · have hlead : ((lead :: bytes).take width).head? = some lead := by
          rw [List.head?_take, if_neg (Nat.ne_of_gt (stretchWidth_pos lead))]
          rfl
        apply ReadsAt.malformed hlead
        · rw [hwhole, hwidth, Nat.min_eq_left (Nat.le_of_not_lt hlength)]
        · rw [hwhole]
          exact firstChar?_eq_none_iff.mp hfirst
      · rwa [hwidth]
      · exact congrArg (.error (.invalidUtf8 offset) :: ·) hresults

end Chunk

namespace Cursor

/-- Taking characters from a cursor until it answers that nothing is left; an
error does not stop the taking. -/
inductive Drains : Cursor → List (Except ReadError Char) → Cursor → Prop where
  | done {cursor last : Cursor} (h : cursor.next = (.ok none, last)) : Drains cursor [] last
  | char {cursor behind last : Cursor} {c : Char} {results : List (Except ReadError Char)}
      (h : cursor.next = (.ok (some c), behind)) (hbehind : Drains behind results last) :
      Drains cursor (.ok c :: results) last
  | error {cursor behind last : Cursor} {e : ReadError} {results : List (Except ReadError Char)}
      (h : cursor.next = (.error e, behind)) (hbehind : Drains behind results last) :
      Drains cursor (.error e :: results) last

/-- Nothing but the end of input stops the taking, and characters are counted. -/
theorem drains_ahead (ahead : List (Except ReadError Char)) (position : Nat) :
    Drains ⟨ahead, .endOfInput, position⟩ ahead
      ⟨[], .endOfInput, position + (ahead.filterMap Except.toOption).length⟩ := by
  induction ahead generalizing position with
  | nil => exact .done rfl
  | cons result others ih =>
      cases result with
      | ok c =>
          have hothers := ih (position + 1)
          rw [Nat.add_assoc, Nat.add_comm 1] at hothers
          exact .char rfl hothers
      | error e => exact .error rfl (ih position)

/-- The bytes of a source that ends normally are cut into chunks, one for each
result of taking characters until nothing is left.  A character stands for its
encoding.  An error stands for one to four bytes, as many as their lead byte
announces, that begin with no encoding; it tells how many bytes there are in
front of them.  The cursor has counted the characters. -/
theorem drains_partition (bytes : Bytes) :
    ∃ (chunks : List Chunk) (last : Cursor),
      Drains (ofSource ⟨bytes, .endOfInput⟩) (chunks.map Chunk.result) last ∧
      chunks.flatMap Chunk.bytes = bytes ∧
      last.position = ((chunks.map Chunk.result).filterMap Except.toOption).length ∧
      ∀ before chunk others, chunks = before ++ chunk :: others →
        let offset := (before.flatMap Chunk.bytes).length
        let behind := others.flatMap Chunk.bytes
        chunk.ReadsAt offset behind ∧
        (1 ≤ chunk.bytes.length ∧ chunk.bytes.length ≤ 4) ∧
        (∃ lead ∈ chunk.bytes.head?,
          chunk.bytes.length = min (Utf8.stretchWidth lead) (chunk.bytes ++ behind).length) ∧
        (∀ c, String.utf8EncodeChar c <+: chunk.bytes ++ behind → chunk.result = .ok c) ∧
        (Utf8.IllFormed (chunk.bytes ++ behind) →
          chunk.result = .error (.invalidUtf8 offset)) := by
  obtain ⟨chunks, hturn, hbytes, hresults⟩ := Chunk.exists_readInTurn 0 bytes
  have hsource : ofSource ⟨bytes, .endOfInput⟩ = ⟨chunks.map Chunk.result, .endOfInput, 0⟩ := by
    rw [hresults]
    rfl
  have hdrains := drains_ahead (chunks.map Chunk.result) 0
  rw [← hsource, Nat.zero_add] at hdrains
  refine ⟨chunks, _, hdrains, hbytes, rfl, ?_⟩
  rintro before chunk others rfl
  have hread := hturn.readsAt
  rw [Nat.zero_add] at hread
  exact ⟨hread, ⟨hread.length_pos, hread.length_le_four⟩, hread.width,
    fun c => hread.accepts, hread.rejects⟩

end Cursor

end SqlScript

/-
The shapes of encodings.  A value can be put into the shape of one to four
bytes; a character's encoding is its value in the shortest shape that has room
for it.  Shapes can be told apart by their bytes, so bytes that hold a value in
a longer shape than necessary, a value that is no character's, or only the
front of an encoding, begin with no encoding at all.
-/
import SqlScript.Proofs.Source.RoundTrip

namespace SqlScript.Utf8

/-- How many values fit into the shape of `width` bytes. -/
def room : (width : Nat) → Nat
  | 1 => 0x80
  | 2 => 0x800
  | 3 => 0x10000
  | 4 => 0x200000
  | _ => 0

/-- A byte behind the lead byte, with the last six bits of a value. -/
def continuation (value : Nat) : UInt8 :=
  .ofNat (value % 0x40 + 0x80)

/-- A value in the shape of `width` bytes. -/
def shape : (width value : Nat) → Bytes
  | 1, value => [.ofNat value]
  | 2, value => [.ofNat (value / 0x40 + 0xc0), continuation value]
  | 3, value =>
      [.ofNat (value / 0x1000 + 0xe0), continuation (value / 0x40), continuation value]
  | 4, value =>
      [.ofNat (value / 0x40000 + 0xf0), continuation (value / 0x1000),
        continuation (value / 0x40), continuation value]
  | _, _ => []

/-- Whether a byte may only stand behind a lead byte. -/
def IsContinuation (byte : UInt8) : Prop :=
  0x80 ≤ byte ∧ byte < 0xc0

theorem toNat_continuation (value : Nat) : (continuation value).toNat = value % 0x40 + 0x80 := by
  rw [continuation, UInt8.toNat_ofNat']
  omega

theorem isContinuation_continuation (value : Nat) : IsContinuation (continuation value) := by
  rw [IsContinuation, UInt8.le_iff_toNat_le, UInt8.lt_iff_toNat_lt, toNat_continuation]
  simp only [UInt8.reduceToNat]
  omega

theorem width_of_lt_room {width value : Nat} (h : value < room width) :
    width = 1 ∨ width = 2 ∨ width = 3 ∨ width = 4 := by
  unfold room at h
  split at h <;> omega

theorem room_le_room {shorter width : Nat} (h : shorter ≤ width) (hwidth : width ≤ 4) :
    room shorter ≤ room width := by
  unfold room
  split <;> split <;> grind

theorem length_shape {width value : Nat} (h : value < room width) :
    (shape width value).length = width := by
  rcases width_of_lt_room h with rfl | rfl | rfl | rfl <;> rfl

theorem exists_cons_of_shape {width value : Nat} (h : value < room width) :
    ∃ lead others, shape width value = lead :: others := by
  rcases width_of_lt_room h with rfl | rfl | rfl | rfl
  all_goals exact ⟨_, _, rfl⟩

theorem isContinuation_of_mem_tail_shape {width value : Nat} {byte : UInt8}
    (h : byte ∈ (shape width value).tail) : IsContinuation byte := by
  have hbyte : ∃ bits, byte = continuation bits := by
    unfold shape at h
    split at h <;> grind
  obtain ⟨bits, rfl⟩ := hbyte
  exact isContinuation_continuation bits

/-- How wide the shape is that begins with a lead byte. -/
def shapeWidth (lead : UInt8) : Nat :=
  if lead < 0x80 then 1
  else if lead < 0xe0 then 2
  else if lead < 0xf0 then 3
  else 4

theorem shapeWidth_of_shape {width value : Nat} {lead : UInt8} {others : Bytes}
    (hvalue : value < room width) (h : shape width value = lead :: others) :
    shapeWidth lead = width := by
  rcases width_of_lt_room hvalue with rfl | rfl | rfl | rfl
  all_goals
    simp only [shape, List.cons.injEq] at h
    obtain ⟨rfl, -⟩ := h
    simp only [room] at hvalue
    simp only [shapeWidth, UInt8.lt_iff_toNat_lt, UInt8.toNat_ofNat', UInt8.reduceToNat]
    repeat' split
    all_goals omega

/-- A value can be read off its shape. -/
theorem shape_injective {width value value' : Nat} (hvalue : value < room width)
    (hvalue' : value' < room width) (h : shape width value = shape width value') :
    value = value' := by
  rcases width_of_lt_room hvalue with rfl | rfl | rfl | rfl
  all_goals
    simp only [room] at hvalue hvalue'
    simp only [shape, List.cons.injEq, ← UInt8.toNat_inj, UInt8.toNat_ofNat',
      toNat_continuation] at h
    omega

/-- The width of a shape and the value in it can be read off bytes that begin
with it. -/
theorem eq_of_shape_isPrefix {width value width' value' : Nat} {rest : Bytes}
    (hvalue : value < room width) (hvalue' : value' < room width')
    (h : shape width value <+: shape width' value' ++ rest) :
    width = width' ∧ value = value' := by
  obtain ⟨lead, others, hshape⟩ := exists_cons_of_shape hvalue
  obtain ⟨lead', others', hshape'⟩ := exists_cons_of_shape hvalue'
  have hlead : lead = lead' := by
    rw [hshape, hshape', List.cons_append, List.cons_prefix_cons] at h
    exact h.1
  have hwidth : width = width' := by
    rw [← shapeWidth_of_shape hvalue hshape, hlead, shapeWidth_of_shape hvalue' hshape']
  subst hwidth
  refine ⟨rfl, shape_injective hvalue hvalue' ?_⟩
  have hlength : (shape width value).length = (shape width value').length := by
    rw [length_shape hvalue, length_shape hvalue']
  exact List.append_inj_left (List.prefix_iff_eq_append.mp h) hlength

/-- A character's encoding is as wide as the value of the character needs. -/
theorem utf8Size_eq (c : Char) :
    c.utf8Size =
      if c.toNat ≤ 0x7f then 1
      else if c.toNat ≤ 0x7ff then 2
      else if c.toNat ≤ 0xffff then 3
      else 4 := by
  simp only [Char.utf8Size, UInt32.le_iff_toNat_le]
  rfl

theorem toNat_lt_room (c : Char) : c.toNat < room c.utf8Size := by
  have hvalid : c.toNat.isValidChar := c.valid
  rw [utf8Size_eq]
  repeat' split
  all_goals
    simp only [room]
    omega

/-- No shorter shape has room for a character. -/
theorem room_le_toNat {c : Char} {width : Nat} (h : width < c.utf8Size) :
    room width ≤ c.toNat := by
  rw [utf8Size_eq] at h
  unfold room
  split <;> grind

theorem utf8EncodeChar_eq_shape (c : Char) :
    String.utf8EncodeChar c = shape c.utf8Size c.toNat := by
  have hvalid : c.toNat.isValidChar := c.valid
  rw [utf8Size_eq]
  simp only [String.utf8EncodeChar, Char.toNat_val]
  repeat' split
  all_goals simp (disch := omega) only [shape, continuation, Nat.mod_eq_of_lt]

/-- Bytes that begin with no encoding, although a lead byte announces one. -/
inductive IllFormed : Bytes → Prop where
  /-- A value in a longer shape than it needs. -/
  | overlong {width shorter value : Nat} (hshorter : shorter < width)
      (hwidth : width ≤ 4) (hvalue : value < room shorter) (rest : Bytes) :
      IllFormed (shape width value ++ rest)
  /-- Half of a surrogate pair, in any shape. -/
  | surrogate {width value : Nat} (hvalue : value < room width) (hfirst : 0xd800 ≤ value)
      (hlast : value ≤ 0xdfff) (rest : Bytes) :
      IllFormed (shape width value ++ rest)
  /-- A value beyond the last character. -/
  | beyond {width value : Nat} (hvalue : value < room width) (hbeyond : 0x10ffff < value)
      (rest : Bytes) :
      IllFormed (shape width value ++ rest)
  /-- Only the front of an encoding, with no byte behind it that goes on. -/
  | truncated (c : Char) {count : Nat} (hpos : 0 < count) (hcount : count < c.utf8Size)
      (rest : Bytes) (hrest : ∀ byte ∈ rest.head?, ¬ IsContinuation byte) :
      IllFormed ((String.utf8EncodeChar c).take count ++ rest)

/-- The only encoding that bytes in the shape of a value can begin with is that
of the value, and it has the same width. -/
theorem eq_of_isPrefix_shape {c : Char} {width value : Nat} {rest : Bytes}
    (hvalue : value < room width)
    (h : String.utf8EncodeChar c <+: shape width value ++ rest) :
    c.utf8Size = width ∧ c.toNat = value := by
  rw [utf8EncodeChar_eq_shape] at h
  exact eq_of_shape_isPrefix (toNat_lt_room c) hvalue h

/-- An encoding is a lead byte that tells its width, and bytes that go on. -/
theorem exists_cons_of_utf8EncodeChar (c : Char) :
    ∃ lead others, String.utf8EncodeChar c = lead :: others ∧ shapeWidth lead = c.utf8Size ∧
      others.length + 1 = c.utf8Size ∧ ∀ byte ∈ others, IsContinuation byte := by
  have hvalue := toNat_lt_room c
  obtain ⟨lead, others, hshape⟩ := exists_cons_of_shape hvalue
  refine ⟨lead, others, ?_, shapeWidth_of_shape hvalue hshape, ?_, ?_⟩
  · rw [utf8EncodeChar_eq_shape, hshape]
  · have hlength := length_shape hvalue
    rwa [hshape] at hlength
  · intro byte hbyte
    have htail : byte ∈ (shape c.utf8Size c.toNat).tail := by rwa [hshape]
    exact isContinuation_of_mem_tail_shape htail

/-- The table of lead bytes holds the lead byte of every value in the shortest
shape that has room for it, up to the last character. -/
theorem announcedWidth?_of_shape {width value : Nat} {lead : UInt8} {others : Bytes}
    (hvalue : value < room width) (hshortest : ∀ shorter < width, room shorter ≤ value)
    (hlast : value ≤ 0x10ffff) (h : shape width value = lead :: others) :
    announcedWidth? lead = some width := by
  have hpos : width - 1 < width := by
    have hwidth := width_of_lt_room hvalue
    omega
  have hneeded := hshortest (width - 1) hpos
  rcases width_of_lt_room hvalue with rfl | rfl | rfl | rfl
  all_goals
    simp only [shape, List.cons.injEq] at h
    obtain ⟨rfl, -⟩ := h
    simp only [room, Nat.reduceSub] at hvalue hneeded
    simp only [announcedWidth?, UInt8.le_iff_toNat_le, UInt8.toNat_ofNat', UInt8.reduceToNat]
    repeat' split
    all_goals first | rfl | omega

theorem announcedWidth?_of_utf8EncodeChar {c : Char} {lead : UInt8} {others : Bytes}
    (h : String.utf8EncodeChar c = lead :: others) : announcedWidth? lead = some c.utf8Size := by
  have hvalid : c.toNat.isValidChar := c.valid
  rw [utf8EncodeChar_eq_shape] at h
  exact announcedWidth?_of_shape (toNat_lt_room c) (fun _ => room_le_toNat) (by omega) h

/-- Behind the front of an encoding, only a byte that goes on can belong to an
encoding that the bytes begin with. -/
theorem not_isPrefix_of_truncated {c d : Char} {count : Nat} {rest : Bytes} (hpos : 0 < count)
    (hcount : count < d.utf8Size) (hrest : ∀ byte ∈ rest.head?, ¬ IsContinuation byte) :
    ¬ String.utf8EncodeChar c <+: (String.utf8EncodeChar d).take count ++ rest := by
  rintro ⟨behind, hbytes⟩
  obtain ⟨lead, others, hc, hwidth, hlength, hothers⟩ := exists_cons_of_utf8EncodeChar c
  obtain ⟨lead', others', hd, hwidth', hlength', -⟩ := exists_cons_of_utf8EncodeChar d
  obtain ⟨count, rfl⟩ : ∃ fewer, count = fewer + 1 := ⟨count - 1, by omega⟩
  rw [hc, hd, List.take_succ_cons, List.cons_append, List.cons_append] at hbytes
  obtain ⟨rfl, hbehind⟩ := List.cons.inj hbytes
  have hlt : count < others.length := by omega
  have htake : (others'.take count).length = count := by
    rw [List.length_take]
    omega
  -- The first byte behind the front stands where the encoding of `c` goes on.
  have hbyte : rest.head? = some others[count] := by
    rw [← List.getElem?_eq_getElem hlt, ← List.getElem?_append_left hlt, hbehind,
      List.getElem?_append_right (Nat.le_of_eq htake), htake, Nat.sub_self,
      List.head?_eq_getElem?]
  exact hrest _ hbyte (hothers _ (List.getElem_mem hlt))

theorem IllFormed.not_isPrefix {bytes : Bytes} (h : IllFormed bytes) (c : Char) :
    ¬ String.utf8EncodeChar c <+: bytes := by
  intro hbegins
  have hvalid : c.toNat.isValidChar := c.valid
  cases h with
  | overlong hshorter hwidth hvalue rest =>
      have hroom := room_le_room (Nat.le_of_lt hshorter) hwidth
      obtain ⟨hsize, heq⟩ :=
        eq_of_isPrefix_shape (Nat.lt_of_lt_of_le hvalue hroom) hbegins
      rw [← hsize] at hshorter
      have hle := room_le_toNat hshorter
      omega
  | surrogate hvalue hfirst hlast rest =>
      obtain ⟨-, heq⟩ := eq_of_isPrefix_shape hvalue hbegins
      omega
  | beyond hvalue hbeyond rest =>
      obtain ⟨-, heq⟩ := eq_of_isPrefix_shape hvalue hbegins
      omega
  | truncated d hpos hcount rest hrest =>
      exact not_isPrefix_of_truncated hpos hcount hrest hbegins

end SqlScript.Utf8

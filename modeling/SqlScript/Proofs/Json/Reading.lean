/-
JSON that is printed is read back.  Every character is read from how it stands in a
string, and no string ends before its closing quote.  Between values the reader skips
the newlines and the indents of the layout and nothing else, since no value begins
with a blank.
-/
import SqlScript.Json.Printer
import SqlScript.Json.Reader
import SqlScript.Proofs.Toml.Escaping

namespace SqlScript.Json

/-! ### Strings -/

theorem hexValue?_hexDigit : ∀ n < 16, Toml.hexValue? (hexDigit n) = some n := by
  decide

section Strings

variable {c e : Char} {rest : Text}

theorem readString_backslash (rest : Text) :
    readString .text ('\\' :: rest) = readString .escape rest := by
  simp [readString]

theorem readString_plain (hquote : c ≠ '"') (hbackslash : c ≠ '\\') (hc : ¬ c.toNat < 0x20)
    (rest : Text) : readString .text (c :: rest) = (readString .text rest).push c := by
  simp [readString, hquote, hbackslash, hc]

theorem readString_letter (hc : escapedChar? c = some e) (rest : Text) :
    readString .text ('\\' :: c :: rest) = (readString .text rest).push e := by
  simp [readString, hc]

theorem readString_digit {digit more value : Nat} (hc : Toml.hexValue? c = some digit)
    (rest : Text) :
    readString (.code none (more + 1) value) (c :: rest) =
      readString (.code none more (16 * value + digit)) rest := by
  simp [readString, hc]

theorem readString_lastDigit {digit value : Nat} (hc : Toml.hexValue? c = some digit)
    (he : 16 * value + digit = e.toNat) (rest : Text) :
    readString (.code none 0 value) (c :: rest) = (readString .text rest).push e := by
  have hwhole : isHighHalf e.toNat = false := by
    have hvalid : e.toNat.isValidChar := e.valid
    simp only [Nat.isValidChar] at hvalid
    simp only [isHighHalf, Bool.and_eq_false_iff, decide_eq_false_iff_not]
    omega
  simp [readString, hc, he, hwhole, unitChar?, Toml.charOfCode?_toNat]

/-- A control is read back from its code unit. -/
theorem readString_control (hc : c.toNat < 0x100) (rest : Text) :
    readString .text ('\\' :: 'u' :: '0' :: '0' :: hexDigit (c.toNat / 16) ::
      hexDigit (c.toNat % 16) :: rest) = (readString .text rest).push c := by
  have hzero : Toml.hexValue? '0' = some 0 := rfl
  have hhigh := hexValue?_hexDigit (c.toNat / 16) (by omega)
  have hlow := hexValue?_hexDigit (c.toNat % 16) (by omega)
  have hunit : readString .escape ('u' :: '0' :: '0' :: hexDigit (c.toNat / 16) ::
      hexDigit (c.toNat % 16) :: rest) = readString (.code none 3 0) ('0' :: '0' ::
      hexDigit (c.toNat / 16) :: hexDigit (c.toNat % 16) :: rest) := by
    simp [readString, escapedChar?]
  rw [readString_backslash, hunit, readString_digit hzero, readString_digit hzero,
    readString_digit hhigh, readString_lastDigit (e := c) hlow (by omega)]

/-- A character is read back from how it stands in a string. -/
theorem readString_escapeChar (c : Char) (rest : Text) :
    readString .text (escapeChar c ++ rest) = (readString .text rest).push c := by
  unfold escapeChar
  split
  case h_8 hquote hbackslash _ _ _ _ _ =>
    split
    · exact readString_control (by omega) rest
    · exact readString_plain hquote hbackslash ‹_› rest
  all_goals exact readString_letter rfl rest

/-- A text is read back from its string, whatever stands behind. -/
theorem readString_flatMap_escapeChar (t rest : Text) :
    readString .text (t.flatMap escapeChar ++ '"' :: rest) = some (t, rest) := by
  induction t with
  | nil => simp [readString]
  | cons c t ih =>
      rw [List.flatMap_cons, List.append_assoc, readString_escapeChar, ih]
      rfl

theorem quote_append (t rest : Text) :
    quote t ++ rest = '"' :: (t.flatMap escapeChar ++ '"' :: rest) := by
  simp [quote]

end Strings

/-! ### Layout -/

@[simp]
theorem skipSpaces_newline (depth : Nat) (t : Text) :
    skipSpaces (newline depth ++ t) = skipSpaces t := by
  have hindent : ∀ count, skipSpaces (List.replicate count ' ' ++ t) = skipSpaces t := by
    intro count
    induction count with
    | zero => rfl
    | succ count ih => exact ih
  exact hindent (2 * depth)

theorem skipSpaces_of_not_isSpace {c : Char} (h : isSpace c = false) (t : Text) :
    skipSpaces (c :: t) = c :: t := by
  simp [skipSpaces, h]

/-- Texts on lines of their own at some depth, with commas between them. -/
def onLines (depth : Nat) : List Text → Text
  | [] => []
  | [t] => newline depth ++ t
  | t :: next :: others => newline depth ++ t ++ ',' :: onLines depth (next :: others)

theorem prettyItems_eq (depth : Nat) : ∀ items : List Json,
    prettyItems depth items = onLines depth (items.map (pretty depth))
  | [] => by rw [prettyItems]; rfl
  | [item] => by rw [prettyItems]; rfl
  | item :: next :: items => by
      rw [prettyItems, prettyItems_eq depth (next :: items)]
      rfl

/-- A field on its line. -/
def prettyField (depth : Nat) (field : Text × Json) : Text :=
  quote field.1 ++ ':' :: ' ' :: pretty depth field.2

theorem prettyFields_eq (depth : Nat) : ∀ fields : List (Text × Json),
    prettyFields depth fields = onLines depth (fields.map (prettyField depth))
  | [] => by rw [prettyFields]; rfl
  | [(key, item)] => by rw [prettyFields, List.append_assoc]; rfl
  | (key, item) :: next :: fields => by
      rw [prettyFields, prettyFields_eq depth (next :: fields)]
      simp [onLines, prettyField]

theorem onLines_cons (depth : Nat) (t : Text) (others : List Text) :
    ∃ behind, onLines depth (t :: others) = newline depth ++ (t ++ behind) := by
  cases others with
  | nil => exact ⟨[], by rw [List.append_nil]; rfl⟩
  | cons next others => exact ⟨_, by rw [onLines, List.append_assoc]⟩

theorem length_lt_of_mem_onLines (depth : Nat) {t : Text} : ∀ {texts : List Text},
    t ∈ texts → t.length < (onLines depth texts).length
  | [_], h => by
      obtain rfl := List.mem_singleton.mp h
      simp only [onLines, newline, List.length_append, List.length_cons]
      omega
  | s :: next :: others, h => by
      simp only [onLines, newline, List.length_append, List.length_cons]
      rcases List.mem_cons.mp h with rfl | h
      · omega
      · have hothers := length_lt_of_mem_onLines depth h
        omega

theorem length_le_length_onLines (depth : Nat) : ∀ texts : List Text,
    texts.length ≤ (onLines depth texts).length
  | [] => Nat.le_refl 0
  | [t] => by
      simp only [onLines, newline, List.length_append, List.length_cons, List.length_nil]
      omega
  | t :: next :: others => by
      have hothers := length_le_length_onLines depth (next :: others)
      simp only [onLines, newline, List.length_append, List.length_cons] at hothers ⊢
      omega

/-! ### Values with commas between them -/

section Separated

variable {α : Type} {close : Char} {print : α → Text} {readOne : Text → Found α}
  {t rest : Text} {a : α} {limit : Nat}

theorem readSeparated_last {behind : Text} (ha : readOne t = some (a, rest))
    (hrest : skipSpaces rest = close :: behind) :
    readSeparated close readOne (limit + 1) t = some ([a], behind) := by
  simp [readSeparated, ha, hrest]

theorem readSeparated_comma (hclose : close ≠ ',') (ha : readOne t = some (a, ',' :: rest)) :
    readSeparated close readOne (limit + 1) t =
      (readSeparated close readOne limit rest).map fun (others, rest) => (a :: others, rest) := by
  have hcomma := skipSpaces_of_not_isSpace (by decide : isSpace ',' = false) rest
  simp [readSeparated, ha, hcomma, hclose.symm]

/-- What is printed on lines of its own is read back, through the closing mark on a
line behind. -/
theorem readSeparated_onLines (hspace : isSpace close = false) (hclose : close ≠ ',')
    (depth closing : Nat) {as : List α} (has : as ≠ [])
    (hread : ∀ a ∈ as, ∀ rest, readOne (newline depth ++ (print a ++ rest)) = some (a, rest))
    (hlimit : as.length ≤ limit) (rest : Text) :
    readSeparated close readOne limit
        (onLines depth (as.map print) ++ (newline closing ++ close :: rest)) =
      some (as, rest) := by
  induction limit generalizing as with
  | zero => exact absurd (List.eq_nil_of_length_eq_zero (Nat.le_zero.mp hlimit)) has
  | succ limit ih =>
      match as with
      | [a] =>
          rw [List.map_singleton, onLines, List.append_assoc]
          apply readSeparated_last (hread a List.mem_cons_self _)
          rw [skipSpaces_newline, skipSpaces_of_not_isSpace hspace]
      | a :: next :: others =>
          have hothers := ih (List.cons_ne_nil next others)
            (fun b hb => hread b (List.mem_cons_of_mem a hb)) (Nat.le_of_succ_le_succ hlimit)
          rw [List.map_cons, List.map_cons, onLines, ← List.map_cons, List.append_assoc,
            List.append_assoc, List.cons_append,
            readSeparated_comma hclose (hread a List.mem_cons_self _), hothers]
          rfl

/-- The same between an opening and a closing mark, when nothing that is printed looks
like the closing mark. -/
theorem readEnclosed_onLines (hspace : isSpace close = false) (hclose : close ≠ ',')
    (depth closing : Nat) {as : List α} (has : as ≠ [])
    (hread : ∀ a ∈ as, ∀ rest, readOne (newline depth ++ (print a ++ rest)) = some (a, rest))
    (hprint : ∀ a ∈ as, ∃ c others, print a = c :: others ∧ isSpace c = false ∧ c ≠ close)
    (rest : Text) :
    readEnclosed close readOne
        (onLines depth (as.map print) ++ (newline closing ++ close :: rest)) =
      some (as, rest) := by
  have hlength : as.length ≤
      (onLines depth (as.map print) ++ (newline closing ++ close :: rest)).length := by
    have hle := length_le_length_onLines depth (as.map print)
    rw [List.length_map] at hle
    rw [List.length_append]
    omega
  have hseparated := readSeparated_onLines hspace hclose depth closing has hread hlength rest
  match as with
  | a :: others =>
      obtain ⟨c, shown, hshown, hc, hne⟩ := hprint a List.mem_cons_self
      obtain ⟨behind, hbehind⟩ := onLines_cons depth (print a) (others.map print)
      have hskip : skipSpaces (onLines depth ((a :: others).map print) ++
          (newline closing ++ close :: rest)) =
            c :: (shown ++ (behind ++ (newline closing ++ close :: rest))) := by
        rw [List.map_cons, hbehind, hshown, List.append_assoc, skipSpaces_newline,
          List.append_assoc, List.cons_append, skipSpaces_of_not_isSpace hc]
      rw [readEnclosed, hskip]
      simp only [hne, if_false]
      exact hseparated

end Separated

/-! ### Values -/

/-- A value begins with a quote, a letter or an opening mark. -/
theorem exists_cons_of_pretty (depth : Nat) (value : Json) :
    ∃ c others, pretty depth value = c :: others ∧ isSpace c = false ∧ c ≠ ']' := by
  rcases value with t | (_ | _) | (_ | ⟨item, items⟩) | (_ | ⟨field, fields⟩)
  all_goals exact ⟨_, _, rfl, by decide, by decide⟩

/-- No blank is skipped in front of a value. -/
theorem skipSpaces_pretty (depth : Nat) (value : Json) (rest : Text) :
    skipSpaces (pretty depth value ++ rest) = pretty depth value ++ rest := by
  obtain ⟨c, others, hvalue, hspace, -⟩ := exists_cons_of_pretty depth value
  rw [hvalue, List.cons_append, skipSpaces_of_not_isSpace hspace]

theorem readField_prettyField {readItem : Text → Found Json} {depth : Nat}
    {field : Text × Json} {rest : Text}
    (hitem : readItem (' ' :: (pretty depth field.2 ++ rest)) = some (field.2, rest)) :
    readField readItem (newline depth ++ (prettyField depth field ++ rest)) =
      some (field, rest) := by
  have hquote := skipSpaces_of_not_isSpace (by decide : isSpace '"' = false)
  have hcolon := skipSpaces_of_not_isSpace (by decide : isSpace ':' = false)
  rw [prettyField, List.append_assoc, quote_append, readField, skipSpaces_newline, hquote]
  simp [readString_flatMap_escapeChar, hcolon, hitem]

section Nested

variable {items : List Json} {fields : List (Text × Json)}

theorem pretty_array (depth : Nat) (h : items ≠ []) (rest : Text) :
    pretty depth (.array items) ++ rest =
      '[' :: (onLines (depth + 1) (items.map (pretty (depth + 1))) ++
        (newline depth ++ ']' :: rest)) := by
  obtain ⟨item, items, rfl⟩ := List.exists_cons_of_ne_nil h
  rw [pretty, prettyItems_eq]
  simp

theorem pretty_object (depth : Nat) (h : fields ≠ []) (rest : Text) :
    pretty depth (.object fields) ++ rest =
      '\x7b' :: (onLines (depth + 1) (fields.map (prettyField (depth + 1))) ++
        (newline depth ++ '\x7d' :: rest)) := by
  obtain ⟨field, fields, rfl⟩ := List.exists_cons_of_ne_nil h
  rw [pretty, prettyFields_eq]
  simp

/-- What an array holds is shorter than the array. -/
theorem length_pretty_item (depth : Nat) {item : Json} (h : item ∈ items) :
    (pretty (depth + 1) item).length < (pretty depth (.array items)).length := by
  have hline := length_lt_of_mem_onLines (depth + 1)
    (List.mem_map_of_mem (f := pretty (depth + 1)) h)
  have harray := pretty_array depth (List.ne_nil_of_mem h) []
  rw [List.append_nil] at harray
  rw [harray, List.length_cons, List.length_append]
  omega

theorem length_pretty_field (depth : Nat) {field : Text × Json} (h : field ∈ fields) :
    (pretty (depth + 1) field.2).length < (pretty depth (.object fields)).length := by
  have hline := length_lt_of_mem_onLines (depth + 1)
    (List.mem_map_of_mem (f := prettyField (depth + 1)) h)
  have hobject := pretty_object depth (List.ne_nil_of_mem h) []
  rw [List.append_nil] at hobject
  rw [prettyField, List.length_append, List.length_cons, List.length_cons] at hline
  rw [hobject, List.length_cons, List.length_append]
  omega

end Nested

/-- A value that is printed is read back, whatever stands behind. -/
theorem readValueWithin_pretty {limit depth : Nat} {value : Json} {t rest : Text}
    (hlimit : (pretty depth value).length ≤ limit)
    (ht : skipSpaces t = pretty depth value ++ rest) :
    readValueWithin limit t = some (value, rest) := by
  -- Each level of nesting takes one from the limit, and what stands inside is shorter
  -- than the whole.
  induction limit generalizing depth value t rest with
  | zero =>
      obtain ⟨c, others, hvalue, -, -⟩ := exists_cons_of_pretty depth value
      rw [hvalue] at hlimit
      exact absurd hlimit (by simp)
  | succ limit ih =>
      rw [readValueWithin, ht]
      match value with
      | .string s =>
          rw [pretty, quote_append]
          simp [readString_flatMap_escapeChar]
      | .boolean true => rfl
      | .boolean false => rfl
      | .array [] => rfl
      | .object [] => rfl
      | .array (item :: items) =>
          have hread : ∀ a ∈ item :: items, ∀ behind, readValueWithin limit
              (newline (depth + 1) ++ (pretty (depth + 1) a ++ behind)) = some (a, behind) := by
            intro a ha behind
            have hshorter := length_pretty_item depth ha
            apply ih (by omega : (pretty (depth + 1) a).length ≤ limit)
            rw [skipSpaces_newline, skipSpaces_pretty]
          have hitems := readEnclosed_onLines (by decide : isSpace ']' = false) (by decide)
            (depth + 1) depth (List.cons_ne_nil item items) hread
            (fun a _ => exists_cons_of_pretty (depth + 1) a) rest
          rw [pretty_array depth (List.cons_ne_nil item items)]
          simp only [hitems]
          rfl
      | .object (field :: fields) =>
          have hread : ∀ a ∈ field :: fields, ∀ behind, readField (readValueWithin limit)
              (newline (depth + 1) ++ (prettyField (depth + 1) a ++ behind)) =
                some (a, behind) := by
            intro a ha behind
            have hshorter := length_pretty_field depth ha
            exact readField_prettyField (ih (by omega) (skipSpaces_pretty (depth + 1) a.2 behind))
          have hfields := readEnclosed_onLines (by decide : isSpace '\x7d' = false) (by decide)
            (depth + 1) depth (List.cons_ne_nil field fields) hread
            (fun a _ => ⟨'"', _, rfl, by decide, by decide⟩) rest
          rw [pretty_object depth (List.cons_ne_nil field fields)]
          simp only [hfields]
          rfl

/-- The text of a value is read as the value. -/
theorem read?_pretty (value : Json) : read? (pretty 0 value) = some value := by
  have hskip := skipSpaces_pretty 0 value []
  have hread := readValueWithin_pretty (Nat.le_succ (pretty 0 value).length) hskip
  rw [List.append_nil] at hread
  rw [read?, hread]
  rfl

end SqlScript.Json

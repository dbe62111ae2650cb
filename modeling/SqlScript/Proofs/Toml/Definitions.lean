/-
Definitions that are written are read back: a line that gives a value to a bare name
says just that, reading goes on with the next line, and the name has the value.
-/
import SqlScript.Proofs.Toml.Strings
import SqlScript.Toml.Reader

namespace SqlScript.Toml

/-! ### Values -/

/-- A spelling that is read as a value wherever its line ends behind it. -/
structure Spells (spelling : Text) (value : Value) : Prop where
  /-- It begins with no blank. -/
  begins : ∃ c ∈ spelling.head?, isSpace c = false
  read (rest : Text) : readValue (spelling ++ '\n' :: rest) = some (value, '\n' :: rest)

theorem exists_cons_of_writeString (t : Text) :
    ∃ others, writeString t = '"' :: others ∨ writeString t = '\'' :: others := by
  unfold writeString writeAs
  split
  · exact ⟨_, .inl rfl⟩
  · exact ⟨_, .inr rfl⟩
  · exact ⟨_, .inl rfl⟩
  · exact ⟨_, .inr rfl⟩

theorem spells_writeString (t : Text) : Spells (writeString t) (.string t) where
  begins := by
    obtain ⟨others, hwritten | hwritten⟩ := exists_cons_of_writeString t
    · exact ⟨'"', by rw [hwritten]; rfl, rfl⟩
    · exact ⟨'\'', by rw [hwritten]; rfl, rfl⟩
  read := by
    intro rest
    have hend : ∀ quote : Char, quote ≠ '\n' → ('\n' :: rest).head? ≠ some quote := by
      intro quote hquote h
      exact hquote (Option.some.inj h).symm
    have hread := readString_writeString t (hend '"' (by decide)) (hend '\'' (by decide))
    obtain ⟨others, hwritten | hwritten⟩ := exists_cons_of_writeString t
    all_goals
      rw [hwritten, List.cons_append] at hread ⊢
      simp [readValue, readValueWithin, hread]

theorem readUnquoted_append {spelling : Text} {value : Value}
    (hchars : ∀ c ∈ spelling, isUnquotedChar c = true) (hvalue : unquoted? spelling = some value)
    (rest : Text) : readUnquoted (spelling ++ '\n' :: rest) = some (value, '\n' :: rest) := by
  have htake : (spelling ++ '\n' :: rest).takeWhile isUnquotedChar = spelling := by
    rw [List.takeWhile_append_of_pos hchars]
    simp [isUnquotedChar]
  have hdrop : (spelling ++ '\n' :: rest).dropWhile isUnquotedChar = '\n' :: rest := by
    rw [List.dropWhile_append_of_pos hchars]
    simp [isUnquotedChar]
  rw [readUnquoted, htake, hdrop]
  simp [hvalue]

theorem spells_of_unquoted {spelling : Text} {value : Value} (hne : spelling ≠ [])
    (hchars : ∀ c ∈ spelling, isUnquotedChar c = true)
    (hvalue : unquoted? spelling = some value) : Spells spelling value := by
  obtain ⟨c, others, rfl⟩ := List.exists_cons_of_ne_nil hne
  have hc := hchars c List.mem_cons_self
  have hother : ∀ d : Char, isUnquotedChar d = false → c ≠ d := by
    intro d hd
    exact ne_of_apply_ne isUnquotedChar (by simp [hc, hd])
  refine ⟨⟨c, rfl, ?_⟩, fun rest => ?_⟩
  · simp [isSpace, hother ' ' rfl, hother '\t' rfl]
  · have hread := readUnquoted_append hchars hvalue rest
    rw [List.cons_append] at hread ⊢
    have hdouble := hother '"' rfl
    have hsingle := hother '\'' rfl
    have hbracket := hother '[' rfl
    have hbrace := hother '\x7b' rfl
    rw [readValue, readValueWithin]
    all_goals simp_all

theorem spells_writeBoolean (b : Bool) : Spells (writeBoolean b) (.boolean b) := by
  cases b with
  | false => exact spells_of_unquoted (by decide) (List.all_eq_true.mp (by decide)) rfl
  | true => exact spells_of_unquoted (by decide) (List.all_eq_true.mp (by decide)) rfl

/-! ### Lines -/

/-- A name that stands in a key without quotes. -/
structure IsBare (name : Text) : Prop where
  ne_nil : name ≠ []
  chars : ∀ c ∈ name, isBareKeyChar c = true

/-- A bare name begins with nothing that has a meaning of its own. -/
theorem IsBare.exists_cons {name : Text} (h : IsBare name) :
    ∃ c others, name = c :: others ∧ ∀ d, isBareKeyChar d = false → c ≠ d := by
  obtain ⟨c, others, rfl⟩ := List.exists_cons_of_ne_nil h.ne_nil
  refine ⟨c, others, rfl, fun d hd => ?_⟩
  exact ne_of_apply_ne isBareKeyChar (by simp [h.chars c List.mem_cons_self, hd])

theorem readKey_bare {name : Text} (h : IsBare name) (rest : Text) :
    readKey (name ++ ' ' :: '=' :: rest) = some ([name], ' ' :: '=' :: rest) := by
  have htake : (name ++ ' ' :: '=' :: rest).takeWhile isBareKeyChar = name := by
    rw [List.takeWhile_append_of_pos h.chars]
    simp [isBareKeyChar]
  have hdrop : (name ++ ' ' :: '=' :: rest).dropWhile isBareKeyChar = ' ' :: '=' :: rest := by
    rw [List.dropWhile_append_of_pos h.chars]
    simp [isBareKeyChar]
  have hname : readName (name ++ ' ' :: '=' :: rest) = some (name, ' ' :: '=' :: rest) := by
    obtain ⟨c, others, rfl, hother⟩ := h.exists_cons
    have hdouble := hother '"' rfl
    have hsingle := hother '\'' rfl
    unfold readName
    split
    all_goals simp_all
  rw [readKey, nestingLimit, readKeyWithin, hname]
  rfl

theorem readStatement_definition {name spelling : Text} {value : Value} (hname : IsBare name)
    (hvalue : Spells spelling value) (rest : Text) :
    readStatement (writeDefinition name spelling ++ rest) =
      some (.define [name] value, '\n' :: rest) := by
  have hwritten : writeDefinition name spelling ++ rest =
      name ++ ' ' :: '=' :: ' ' :: (spelling ++ '\n' :: rest) := by
    simp [writeDefinition]
  have hequals : expect '=' (skipSpaces (' ' :: '=' :: ' ' :: (spelling ++ '\n' :: rest))) =
      some (' ' :: (spelling ++ '\n' :: rest)) := rfl
  have hspaces : skipSpaces (' ' :: (spelling ++ '\n' :: rest)) = spelling ++ '\n' :: rest := by
    obtain ⟨c, hhead, hc⟩ := hvalue.begins
    obtain ⟨others, rfl⟩ := List.head?_eq_some_iff.mp hhead
    rw [skipSpaces, List.dropWhile_cons_of_pos rfl, List.cons_append,
      List.dropWhile_cons_of_neg (by simp [hc])]
  have hkey := readKey_bare hname (' ' :: (spelling ++ '\n' :: rest))
  rw [hwritten]
  obtain ⟨c, others, rfl, hother⟩ := hname.exists_cons
  have hbracket := hother '[' rfl
  unfold readStatement
  split
  · simp_all
  · simp_all
  · simp only [hkey, Option.bind_some, hequals, hspaces, hvalue.read, Option.map_some]

/-- Nothing is laid out in front of a bare name. -/
theorem skipLayout_bare {c : Char} (hother : ∀ d, isBareKeyChar d = false → c ≠ d) (t : Text) :
    skipLayout false (c :: t) = some (c :: t) := by
  have hnewline : atNewline (c :: t) = false := by
    have hline := hother '\n' rfl
    have hreturn := hother '\r' rfl
    unfold atNewline
    split <;> simp_all
  have hspace := hother ' ' rfl
  have htab := hother '\t' rfl
  have hcomment := hother '#' rfl
  simp [skipLayout, isSpace, hnewline, hspace, htab, hcomment]

/-- A written definition is the first statement of what it stands in front of. -/
theorem readStatementsWithin_definition {name spelling : Text} {value : Value}
    (hname : IsBare name) (hvalue : Spells spelling value) (limit : Nat) (rest : Text) :
    readStatementsWithin (limit + 1) (writeDefinition name spelling ++ rest) =
      (readStatementsWithin limit rest).map (.define [name] value :: ·) := by
  have hread := readStatement_definition hname hvalue rest
  obtain ⟨c, others, rfl, hother⟩ := hname.exists_cons
  obtain ⟨more, hwritten⟩ :
      ∃ more, writeDefinition (c :: others) spelling ++ rest = c :: more := ⟨_, rfl⟩
  rw [hwritten] at hread ⊢
  rw [readStatementsWithin, skipLayout_bare hother, Option.bind_some]
  simp [hread, skipLineEnd, atNewline, dropNewline]

/-! ### Tables -/

namespace Table

theorem find?_put_self (table : Table) (way : Way) (entry : Entry) :
    (table.put way entry).find? way = some entry := by
  simp [find?, put]

theorem find?_put_of_ne {table : Table} {way other : Way} (h : other ≠ way) (entry : Entry) :
    (table.put way entry).find? other = table.find? other := by
  have hne : (other == way) = false := by simpa using h
  simp only [find?, put, List.lookup_cons, hne]

/-- A name that is not defined at the top can be given a value there. -/
theorem define?_top {table : Table} {name : Text} (h : table.find? [.name name] = none)
    (value : Value) :
    table.define? [] [name] value = some (table.put [.name name] (.value value)) := by
  simp [define?, cutLast, descend, h]

end Table

end SqlScript.Toml

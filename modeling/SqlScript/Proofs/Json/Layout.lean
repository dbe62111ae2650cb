/-
The controls of printed JSON.  Strings hold none, since every control of a text is
escaped, so each control that is printed is a newline of the layout.
-/
import SqlScript.Proofs.Json.Reading

namespace SqlScript.Json

/-- The controls that a text holds as they are. -/
def controls (t : Text) : Text :=
  t.filter fun c => c.toNat < 0x20

theorem controls_append (t others : Text) :
    controls (t ++ others) = controls t ++ controls others :=
  List.filter_append t others

theorem controls_cons {c : Char} (h : 0x20 ≤ c.toNat) (t : Text) :
    controls (c :: t) = controls t := by
  simp [controls, h]

theorem controls_eq_nil_iff {t : Text} : controls t = [] ↔ ∀ c ∈ t, 0x20 ≤ c.toNat := by
  simp [controls]

/-! ### Strings -/

theorem le_toNat_hexDigit : ∀ n < 16, 0x20 ≤ (hexDigit n).toNat := by
  decide

theorem controls_escapeChar (c : Char) : controls (escapeChar c) = [] := by
  unfold escapeChar
  split
  case h_8 =>
    split
    · have hhigh := le_toNat_hexDigit (c.toNat / 16) (by omega)
      have hlow := le_toNat_hexDigit (c.toNat % 16) (by omega)
      simp [controls, hhigh, hlow]
    · rw [controls_cons (by omega)]
      rfl
  all_goals rfl

/-- Strings hold no controls, whatever the text. -/
theorem controls_quote (t : Text) : controls (quote t) = [] := by
  rw [controls_eq_nil_iff]
  intro c hc
  simp only [quote, List.mem_append, List.mem_cons, List.mem_flatMap, List.not_mem_nil,
    or_false] at hc
  rcases hc with (rfl | ⟨d, -, hc⟩) | rfl
  · decide
  · exact controls_eq_nil_iff.mp (controls_escapeChar d) c hc
  · decide

/-! ### Lines -/

theorem controls_newline (depth : Nat) : controls (newline depth) = ['\n'] := by
  simp [controls, newline]

/-- Each of the lines begins with a newline of its own. -/
theorem controls_onLines {count : Nat} (depth : Nat) : ∀ {texts : List Text},
    (∀ t ∈ texts, controls t = List.replicate count '\n') →
      controls (onLines depth texts) = List.replicate (texts.length * (count + 1)) '\n'
  | [], _ => by simp [onLines, controls]
  | [t], h => by
      rw [onLines, controls_append, controls_newline, h t List.mem_cons_self]
      simp [List.replicate_succ]
  | t :: next :: others, h => by
      have hothers := controls_onLines depth fun s hs => h s (List.mem_cons_of_mem t hs)
      have hline : controls (newline depth ++ t) = List.replicate (count + 1) '\n' := by
        rw [controls_append, controls_newline, h t List.mem_cons_self]
        rfl
      rw [onLines, controls_append, controls_cons (by decide), hline, hothers,
        List.replicate_append_replicate, Nat.add_comm, ← Nat.succ_mul]
      rfl

/-- The closing mark stands on a line of its own. -/
theorem controls_closed {count : Nat} (depth : Nat) {texts : List Text}
    (h : ∀ t ∈ texts, controls t = List.replicate count '\n') {close : Char}
    (hclose : 0x20 ≤ close.toNat) :
    controls (onLines (depth + 1) texts ++ (newline depth ++ [close])) =
      List.replicate (texts.length * (count + 1) + 1) '\n' := by
  rw [controls_append, controls_onLines (depth + 1) h, controls_append, controls_newline,
    controls_cons hclose, List.replicate_succ']
  rfl

theorem controls_array {count : Nat} (depth : Nat) {items : List Json} (hitems : items ≠ [])
    (h : ∀ item ∈ items, controls (pretty (depth + 1) item) = List.replicate count '\n') :
    controls (pretty depth (.array items)) =
      List.replicate (items.length * (count + 1) + 1) '\n' := by
  have hlines := controls_closed depth (List.forall_mem_map.mpr h) (by decide : 0x20 ≤ ']'.toNat)
  rw [← List.append_nil (pretty depth (.array items)), pretty_array depth hitems,
    controls_cons (by decide), hlines, List.length_map]

theorem controls_object {count : Nat} (depth : Nat) {fields : List (Text × Json)}
    (hfields : fields ≠ [])
    (h : ∀ field ∈ fields, controls (pretty (depth + 1) field.2) = List.replicate count '\n') :
    controls (pretty depth (.object fields)) =
      List.replicate (fields.length * (count + 1) + 1) '\n' := by
  have hfield : ∀ field ∈ fields,
      controls (prettyField (depth + 1) field) = List.replicate count '\n' := by
    intro field hmem
    rw [prettyField, controls_append, controls_quote, controls_cons (by decide),
      controls_cons (by decide), h field hmem]
    rfl
  have hlines := controls_closed depth (List.forall_mem_map.mpr hfield)
    (by decide : 0x20 ≤ '\x7d'.toNat)
  rw [← List.append_nil (pretty depth (.object fields)), pretty_object depth hfields,
    controls_cons (by decide), hlines, List.length_map]

end SqlScript.Json

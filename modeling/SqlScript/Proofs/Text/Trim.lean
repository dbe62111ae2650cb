/-
Trimming takes off exactly the blanks around a text whose ends are not blank.
What is left is a part of the text that ends with no blank, and blanks behind the
text have no part in it.
-/
import Mathlib.Data.List.TakeWhile
import SqlScript.Text.Basic

namespace SqlScript.Text

/-- No blank stands at either end of a text. -/
structure Trimmed (t : Text) : Prop where
  first : ∀ c ∈ t.head?, isBlank c = false
  last : ∀ c ∈ t.getLast?, isBlank c = false

instance (t : Text) : Decidable (Trimmed t) :=
  let : Decidable (∀ c ∈ t.head?, isBlank c = false) := t.head?.decidableForallMem
  let : Decidable (∀ c ∈ t.getLast?, isBlank c = false) := t.getLast?.decidableForallMem
  decidable_of_iff ((∀ c ∈ t.head?, isBlank c = false) ∧ ∀ c ∈ t.getLast?, isBlank c = false)
    ⟨fun ⟨hfirst, hlast⟩ => ⟨hfirst, hlast⟩, fun h => ⟨h.first, h.last⟩⟩

/-- Dropping goes through a front that is all dropped and stops at the first
element that is not. -/
theorem dropWhile_append_of_head {p : Char → Bool} {front t : Text}
    (hfront : ∀ c ∈ front, p c = true) (ht : ∀ c ∈ t.head?, p c = false) :
    (front ++ t).dropWhile p = t := by
  rw [List.dropWhile_append_of_pos hfront]
  cases t with
  | nil => rfl
  | cons c t =>
      have hc : p c = false := ht c rfl
      rw [List.dropWhile_cons_of_neg (by simp [hc])]

theorem trim_of_surrounded {lead t trail : Text} (hlead : ∀ c ∈ lead, isBlank c = true)
    (htrail : ∀ c ∈ trail, isBlank c = true) (h : Trimmed t) (hne : t ≠ []) :
    trim (lead ++ t ++ trail) = t := by
  have hstart : trimStart (lead ++ t ++ trail) = t ++ trail := by
    rw [trimStart, List.append_assoc]
    apply dropWhile_append_of_head hlead
    obtain ⟨c, others, rfl⟩ := List.exists_cons_of_ne_nil hne
    exact h.first
  rw [trim, hstart, trimEnd, List.reverse_append]
  rw [dropWhile_append_of_head, List.reverse_reverse]
  · intro c hc
    exact htrail c (List.mem_reverse.mp hc)
  · rw [List.head?_reverse]
    exact h.last

/-- Blanks behind a text are trimmed off. -/
theorem trim_append_of_blank (t : Text) {trail : Text}
    (htrail : ∀ c ∈ trail, isBlank c = true) : trim (t ++ trail) = trim t := by
  have hdropped : trail.dropWhile isBlank = [] := List.dropWhile_eq_nil_iff.mpr htrail
  have hreversed : ∀ c ∈ trail.reverse, isBlank c = true := by simpa using htrail
  rw [trim, trimStart, List.dropWhile_append, hdropped]
  split
  · rename_i hblank
    rw [trim, trimStart, List.isEmpty_iff.mp hblank]
  · rw [trim, trimEnd, List.reverse_append, List.dropWhile_append_of_pos hreversed]
    rfl

theorem trimEnd_isPrefix (t : Text) : trimEnd t <+: t := by
  rw [trimEnd, ← List.reverse_suffix, List.reverse_reverse]
  exact List.dropWhile_suffix isBlank

theorem trim_isInfix (t : Text) : trim t <:+: t := by
  have hstart : trimStart t <:+ t := List.dropWhile_suffix isBlank
  exact (trimEnd_isPrefix (trimStart t)).isInfix.trans hstart.isInfix

/-- What trimming leaves does not end with a blank. -/
theorem getLast?_trim (t : Text) : ∀ c ∈ (trim t).getLast?, isBlank c = false := by
  intro c hc
  rw [trim, trimEnd, List.getLast?_reverse] at hc
  have hhead := List.head?_dropWhile_not isBlank (trimStart t).reverse
  rw [Option.mem_def.mp hc] at hhead
  exact hhead

/-- What trimming leaves does not begin with a blank. -/
theorem head?_trim (t : Text) : ∀ c ∈ (trim t).head?, isBlank c = false := by
  intro c hc
  have hfront : (trim t).head? = (trimStart t).head? := by
    obtain ⟨more, hmore⟩ := trimEnd_isPrefix (trimStart t)
    rw [← hmore, List.head?_append]
    exact (Option.or_of_isSome (Option.isSome_of_mem hc)).symm
  have hhead := List.head?_dropWhile_not isBlank t
  rw [hfront, trimStart] at hc
  rw [Option.mem_def.mp hc] at hhead
  exact hhead

theorem trimmed_trim (t : Text) : Trimmed (trim t) :=
  ⟨head?_trim t, getLast?_trim t⟩

end SqlScript.Text

/-
Lines with and without their endings.  A text is cut behind its newlines, and its
lines are the parts without the newline, and the carriage return directly before
it, that they end with.  Front first, a line takes in one character after the other
up to its ending.
-/
import SqlScript.Text.Lines

namespace SqlScript

namespace Text

theorem lines_newline (t : Text) : lines ('\n' :: t) = [] :: lines t := by
  rw [lines]

theorem lines_return_newline (t : Text) : lines ('\r' :: '\n' :: t) = [] :: lines t := by
  rw [lines]

/-- A character that neither is a newline nor belongs to an ending stands in front of
the first line that follows. -/
theorem lines_cons {c : Char} {t : Text} (hc : c ≠ '\n')
    (hreturn : c = '\r' → t.head? ≠ some '\n') :
    lines (c :: t) = (c :: (lines t).headD []) :: (lines t).tail := by
  rw [lines]
  · cases lines t <;> rfl
  · rintro rfl
    exact hc rfl
  · rintro others hc rfl
    exact hreturn hc rfl

variable {α : Type} {p : α → Bool}

@[simp] theorem cutBehind_nil : cutBehind p [] = [] := rfl

theorem cutBehind_cons_of_end {a : α} (h : p a = true) (others : List α) :
    cutBehind p (a :: others) = [a] :: cutBehind p others := by
  rw [cutBehind, if_pos h]

/-- An element that ends no line stands in front of the first line that
follows. -/
theorem cutBehind_cons {a : α} (h : p a = false) (others : List α) :
    cutBehind p (a :: others) =
      (a :: (cutBehind p others).headD []) :: (cutBehind p others).tail := by
  rw [cutBehind, if_neg (by simp [h])]
  cases cutBehind p others <;> rfl

theorem cutBehind_append {front : List α} (hne : front ≠ [])
    (h : ∀ a ∈ front, p a = false) (others : List α) :
    cutBehind p (front ++ others) =
      (front ++ (cutBehind p others).headD []) :: (cutBehind p others).tail := by
  induction front with
  | nil => exact absurd rfl hne
  | cons a front ih =>
      obtain ⟨ha, hfront⟩ := List.forall_mem_cons.mp h
      rw [List.cons_append, cutBehind_cons ha]
      cases front with
      | nil => rfl
      | cons b front => rw [ih (List.cons_ne_nil b front) hfront]; rfl

theorem flatten_cutBehind (l : List α) : (cutBehind p l).flatten = l := by
  induction l with
  | nil => rfl
  | cons a l ih =>
      cases ha : p a with
      | true => rw [cutBehind_cons_of_end ha, List.flatten_cons, ih, List.singleton_append]
      | false =>
          rw [cutBehind_cons ha, List.flatten_cons, List.cons_append]
          cases hlines : cutBehind p l <;> simp_all

/-- The first line begins with what the list begins with. -/
theorem head?_headD_cutBehind (l : List α) :
    ((cutBehind p l).headD []).head? = l.head? := by
  cases l with
  | nil => rfl
  | cons a l =>
      cases ha : p a with
      | true => rw [cutBehind_cons_of_end ha]; rfl
      | false => rw [cutBehind_cons ha]; rfl

theorem withoutEnding_cons {c : Char} {t : Text} (hc : c ≠ '\n')
    (hreturn : c = '\r' → t.head? ≠ some '\n') : withoutEnding (c :: t) = c :: withoutEnding t := by
  rw [withoutEnding]
  · rintro rfl -
    exact hc rfl
  · rintro hc rfl
    exact hreturn hc rfl

/-- A character that neither is a newline nor belongs to the ending of the line
stands in front of what the line is without its ending. -/
theorem map_withoutEnding_cutBehind_cons {c : Char} {rest : Text} (hc : c ≠ '\n')
    (hreturn : c = '\r' → rest.head? ≠ some '\n') :
    (cutBehind (· == '\n') (c :: rest)).map withoutEnding =
      match (cutBehind (· == '\n') rest).map withoutEnding with
      | [] => [[c]]
      | line :: others => (c :: line) :: others := by
  have hhead := @head?_headD_cutBehind Char (· == '\n') rest
  rw [cutBehind_cons (by simpa using hc), List.map_cons]
  rw [← hhead] at hreturn
  rw [withoutEnding_cons hc hreturn]
  cases cutBehind (· == '\n') rest <;> rfl

/-- The lines of a text are what it is cut into behind its newlines, without the
endings. -/
theorem lines_eq_map_withoutEnding (t : Text) :
    lines t = (cutBehind (· == '\n') t).map withoutEnding := by
  have hhead : ∀ {c : Char} {rest : Text},
      (∀ others, c = '\r' → rest = '\n' :: others → False) →
        c = '\r' → rest.head? ≠ some '\n' := by
    intro c rest h hc hnewline
    obtain ⟨others, hrest⟩ := List.head?_eq_some_iff.mp hnewline
    exact h others hc hrest
  fun_induction lines t with
  | case1 => rfl
  | case2 rest ih =>
      rw [cutBehind_cons_of_end rfl, List.map_cons, ← ih]
      rfl
  | case3 rest ih =>
      rw [cutBehind_cons (by decide), cutBehind_cons_of_end rfl, List.headD_cons, List.tail_cons,
        List.map_cons, ← ih]
      rfl
  | case4 c rest hc hreturn hnil ih =>
      rw [map_withoutEnding_cutBehind_cons hc (hhead hreturn), ← ih, hnil]
  | case5 c rest hc hreturn line others hlines ih =>
      rw [map_withoutEnding_cutBehind_cons hc (hhead hreturn), ← ih, hlines]

/-- A text begins with its first line. -/
theorem headD_lines_isPrefix (t : Text) : (lines t).headD [] <+: t := by
  fun_induction lines t with
  | case1 => exact List.prefix_refl _
  | case2 rest ih => exact List.nil_prefix
  | case3 rest ih => exact List.nil_prefix
  | case4 c rest hc hreturn hnil ih => exact ⟨rest, rfl⟩
  | case5 c rest hc hreturn line others hlines ih =>
      rw [hlines] at ih
      exact List.cons_prefix_cons.mpr ⟨rfl, ih⟩

theorem tail_lines_cons {c : Char} (hc : c ≠ '\n') (t : Text) :
    (lines (c :: t)).tail = (lines t).tail := by
  rw [lines_eq_map_withoutEnding, lines_eq_map_withoutEnding, cutBehind_cons (by simpa using hc)]
  simp

end Text

end SqlScript

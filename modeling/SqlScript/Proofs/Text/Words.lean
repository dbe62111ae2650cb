/-
The words of a text, front first.  Blanks in front of a text are no part of its
words, and its first word reaches up to the next blank.
-/
import SqlScript.Proofs.Text.Trim

namespace SqlScript.Text

variable {c : Char}

theorem words_cons_of_blank (h : isBlank c = true) (t : Text) : words (c :: t) = words t := by
  cases t with
  | nil => simp [words, h]
  | cons d t => simp [words, h]

/-- A word goes on up to the next blank. -/
theorem words_cons (h : isBlank c = false) (t : Text) :
    words (c :: t) = (c :: t.takeWhile (!isBlank ·)) :: words (t.dropWhile (!isBlank ·)) := by
  induction t generalizing c with
  | nil => simp [words, h]
  | cons d t ih =>
      cases hd : isBlank d with
      | true => simp [words, h, hd]
      | false => simp [words, h, hd, ih hd]

theorem words_trimStart (t : Text) : words (trimStart t) = words t := by
  induction t with
  | nil => rfl
  | cons c t ih =>
      cases hc : isBlank c with
      | true => rw [words_cons_of_blank hc, ← ih, trimStart, trimStart, List.dropWhile_cons_of_pos hc]
      | false => rw [trimStart, List.dropWhile_cons_of_neg (by simp [hc])]

/-- The first word begins a text without blanks in front. -/
theorem isPrefix_trimStart_of_words {t first : Text} {others : List Text}
    (h : words t = first :: others) : first <+: trimStart t := by
  rw [← words_trimStart] at h
  cases hstart : trimStart t with
  | nil => simp [hstart, words] at h
  | cons c s =>
      have hc : isBlank c = false := by
        have hhead := List.head?_dropWhile_not isBlank t
        rwa [← trimStart, hstart] at hhead
      rw [hstart, words_cons hc] at h
      obtain ⟨rfl, -⟩ := List.cons.inj h
      exact List.cons_prefix_cons.mpr ⟨rfl, List.takeWhile_prefix _⟩

/-- Trimming the end leaves a front without blanks. -/
theorem isPrefix_trimEnd_iff {front t : Text} (hfront : ∀ c ∈ front, isBlank c = false) :
    front <+: trimEnd t ↔ front <+: t := by
  constructor
  · intro h
    exact h.trans (trimEnd_isPrefix t)
  · rintro ⟨more, rfl⟩
    have hkept : front.reverse.dropWhile isBlank = front.reverse := by
      have hhead : ∀ c ∈ front.reverse.head?, isBlank c = false := by
        intro c hc
        exact hfront c (List.mem_reverse.mp (List.mem_of_mem_head? hc))
      exact dropWhile_append_of_head (List.forall_mem_nil _) hhead
    rw [trimEnd, List.reverse_append, List.dropWhile_append]
    split
    · simp [hkept]
    · simp

/-- A trimmed text begins with a front without blanks just when its first word
does. -/
theorem isPrefix_trim_iff {front t : Text} (hne : front ≠ [])
    (hfront : ∀ c ∈ front, isBlank c = false) :
    front <+: trim t ↔ ∃ first others, words t = first :: others ∧ front <+: first := by
  rw [trim, isPrefix_trimEnd_iff hfront]
  constructor
  · rintro ⟨more, hmore⟩
    obtain ⟨c, front, rfl⟩ := List.exists_cons_of_ne_nil hne
    obtain ⟨hc, hothers⟩ := List.forall_mem_cons.mp hfront
    have hwords := words_trimStart t
    rw [← hmore, List.cons_append, words_cons hc] at hwords
    refine ⟨_, _, hwords.symm, ?_⟩
    rw [List.takeWhile_append_of_pos (by simpa using hothers)]
    exact List.cons_prefix_cons.mpr ⟨rfl, List.prefix_append _ _⟩
  · rintro ⟨first, others, hwords, hbegins⟩
    exact hbegins.trans (isPrefix_trimStart_of_words hwords)

end SqlScript.Text

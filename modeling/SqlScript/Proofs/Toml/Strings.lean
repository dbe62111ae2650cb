/-
Strings that are written are read back, whichever form they are written in.  The
basic forms hold every text.  The literal forms hold the texts that need no escapes,
and the writer chooses them for no others.
-/
import SqlScript.Proofs.Toml.Escaping

namespace SqlScript.Toml

/-! ### Literal forms -/

section Literal

variable {t rest : Text}

theorem readLiteral_append (h : ∀ c ∈ t, isPrintable c = true ∧ c ≠ '\'') (rest : Text) :
    readLiteral (t ++ '\'' :: rest) = some (t, rest) := by
  induction t with
  | nil => simp [readLiteral]
  | cons c t ih =>
      obtain ⟨⟨hprintable, hquote⟩, ht⟩ := List.forall_mem_cons.mp h
      rw [List.cons_append, readLiteral, if_neg hquote, if_pos hprintable, ih ht]
      rfl

theorem le_longestRunBehind (quote : Char) (current : Nat) (t : Text) :
    current ≤ longestRunBehind quote current t := by
  induction t generalizing current with
  | nil => exact Nat.le_refl current
  | cons c t ih =>
      rw [longestRunBehind]
      split
      · exact Nat.le_trans (Nat.le_succ current) (ih (current + 1))
      · exact Nat.le_max_left _ _

theorem longestRunBehind_mono (quote : Char) {current current' : Nat} (h : current ≤ current')
    (t : Text) : longestRunBehind quote current t ≤ longestRunBehind quote current' t := by
  induction t generalizing current current' with
  | nil => exact h
  | cons c t ih =>
      rw [longestRunBehind, longestRunBehind]
      split
      · exact ih (Nat.succ_le_succ h)
      · omega

theorem longestRun_le_of_suffix (quote : Char) {back : Text} (h : back <:+ t) :
    longestRun quote back ≤ longestRun quote t := by
  induction t with
  | nil =>
      obtain rfl := List.suffix_nil.mp h
      exact Nat.le_refl _
  | cons c t ih =>
      rcases List.suffix_cons_iff.mp h with rfl | h
      · exact Nat.le_refl _
      · refine Nat.le_trans (ih h) ?_
        rw [longestRun, longestRun, longestRunBehind]
        split
        · exact longestRunBehind_mono quote (Nat.zero_le 1) t
        · exact Nat.le_max_right _ _

/-- A run that a text begins with, and what stands in front of it, are a run. -/
theorem le_longestRunBehind_of_replicate {quote : Char} {count : Nat} (current : Nat)
    (h : List.replicate count quote <+: t) :
    current + count ≤ longestRunBehind quote current t := by
  induction t generalizing count current with
  | nil =>
      obtain rfl : count = 0 := by simpa using h
      exact Nat.le_refl current
  | cons c t ih =>
      cases count with
      | zero => exact le_longestRunBehind quote current (c :: t)
      | succ count =>
          obtain ⟨rfl, hmore⟩ := List.cons_prefix_cons.mp h
          have hrun := ih (current + 1) hmore
          rw [longestRunBehind, if_pos rfl]
          omega

theorem ne_of_longestRun_eq_zero {quote : Char} (h : longestRun quote t = 0) :
    ∀ c ∈ t, c ≠ quote := by
  rintro c hc rfl
  obtain ⟨front, back, rfl⟩ := List.append_of_mem hc
  have hback := longestRun_le_of_suffix c (List.suffix_append front (c :: back))
  have hfirst : List.replicate 1 c <+: c :: back := ⟨back, rfl⟩
  have hrun := le_longestRunBehind_of_replicate 0 hfirst
  rw [← longestRun] at hrun
  omega

theorem readLiteralLines_of_closed {found : Text × Text}
    (h : closeTripled? '\'' t = some found) : readLiteralLines t = some found := by
  cases t with
  | nil => simp [closeTripled?] at h
  | cons c t => simp [readLiteralLines, h]

theorem readLiteralLines_append (h : ∀ c ∈ t, isPrintable c = true ∨ c = '\n')
    (hruns : longestRun '\'' t ≤ 2) (hrest : rest.head? ≠ some '\'') :
    readLiteralLines (t ++ (List.replicate 3 '\'' ++ rest)) = some (t, rest) := by
  induction t with
  | nil => exact readLiteralLines_of_closed (closeTripled?_replicate (Nat.zero_le 2) hrest)
  | cons c t ih =>
      obtain ⟨hc, ht⟩ := List.forall_mem_cons.mp h
      have hbegins : ∀ count, List.replicate count '\'' <+: c :: t → count ≤ 2 := by
        intro count hcount
        have hrun := le_longestRunBehind_of_replicate 0 hcount
        rw [← longestRun] at hrun
        omega
      by_cases hother : ∃ d ∈ c :: t, d ≠ '\''
      · have hnone := closeTripled?_eq_none
          (fun hthree => absurd (hbegins 3 hthree) (by omega)) hother (List.replicate 3 '\'' ++ rest)
        have hatNewline : isPrintable c = true ∨
            atNewline (c :: (t ++ (List.replicate 3 '\'' ++ rest))) = true := by
          rcases hc with hc | rfl
          · exact .inl hc
          · exact .inr rfl
        have hsuffix := longestRun_le_of_suffix '\'' (List.suffix_cons c t)
        rw [List.cons_append] at hnone ⊢
        rw [readLiteralLines, hnone]
        simp only [if_pos hatNewline, ih ht (by omega)]
        rfl
      · have honly : ∀ d ∈ c :: t, d = '\'' := by simpa using hother
        have hall := List.eq_replicate_of_mem honly
        have hcount := hbegins (c :: t).length ⟨[], by rw [List.append_nil, ← hall]⟩
        have hclosed := closeTripled?_replicate hcount hrest
        rw [← hall, List.append_assoc] at hclosed
        exact readLiteralLines_of_closed hclosed

end Literal

/-! ### The choice of a form -/

/-- The texts that a form holds. -/
def StringForm.Holds : StringForm → Text → Prop
  | .basic, _ => True
  | .basicLines, _ => True
  | .literal, t => ∀ c ∈ t, isPrintable c = true ∧ c ≠ '\''
  | .literalLines, t => (∀ c ∈ t, isPrintable c = true ∨ c = '\n') ∧ longestRun '\'' t ≤ 2

theorem formOf_holds (t : Text) : (formOf t).Holds t := by
  have hprintable : t.any isRawControl = false → ∀ c ∈ t, c ≠ '\n' → isPrintable c = true := by
    intro hcontrol c hc
    exact isPrintable_of_not_isRawControl (by simpa using List.any_eq_false.mp hcontrol c hc)
  unfold formOf
  simp only [Bool.and_eq_true, Bool.not_eq_true', beq_iff_eq, decide_eq_true_eq]
  split
  · trivial
  split
  · rename_i h
    obtain ⟨⟨hcontrol, hsingle⟩, hnewline⟩ := h
    intro c hc
    have hne : c ≠ '\n' := ne_of_mem_of_not_mem hc (by simpa using hnewline)
    exact ⟨hprintable hcontrol c hc hne, ne_of_longestRun_eq_zero hsingle c hc⟩
  split
  · trivial
  split
  · rename_i h
    obtain ⟨hcontrol, hsingle⟩ := h
    refine ⟨fun c hc => ?_, hsingle⟩
    by_cases hne : c = '\n'
    · exact .inr hne
    · exact .inl (hprintable hcontrol c hc hne)
  split <;> trivial

/-- A newline is dropped behind the opening quotes exactly when one was put there. -/
theorem dropNewline_openingNewline {t body : Text}
    (h : '\n' ∉ t → ∀ c ∈ body.head?, isPrintable c = true) :
    dropNewline (openingNewline t ++ body) = body := by
  by_cases hnewline : '\n' ∈ t
  · simp [openingNewline, hnewline, dropNewline]
  · have hhead := h hnewline
    simp only [openingNewline, List.contains_eq_mem, hnewline, decide_false, Bool.false_eq_true,
      if_false, List.nil_append]
    unfold dropNewline
    split
    · exact absurd (hhead '\n' rfl) (by decide)
    · exact absurd (hhead '\r' rfl) (by decide)
    · rfl

/-- A second quote at the beginning of a string on one line is its end. -/
theorem readString_double {body : Text} (h : ¬ ['"', '"'] <+: body) :
    readString ('"' :: body) = readBasic .text body := by
  unfold readString
  split
  · rename_i hbody
    exact absurd ⟨_, (List.cons.inj hbody).2.symm⟩ h
  all_goals simp_all

theorem readString_single {body : Text} (h : ¬ ['\'', '\''] <+: body) :
    readString ('\'' :: body) = readLiteral body := by
  unfold readString
  split
  · simp_all
  · simp_all
  · rename_i hbody
    exact absurd ⟨_, (List.cons.inj hbody).2.symm⟩ h
  all_goals simp_all

theorem not_pair_isPrefix {quote : Char} {rest : Text} (h : rest.head? ≠ some quote) :
    ¬ [quote, quote] <+: quote :: rest := by
  rintro ⟨others, hothers⟩
  rw [← (List.cons.inj hothers).2] at h
  exact h rfl

section Forms

variable {t rest : Text}

theorem readString_basic (t : Text) (hrest : rest.head? ≠ some '"') :
    readString (writeAs .basic t ++ rest) = some (t, rest) := by
  have hquotes : ¬ ['"', '"'] <+: escapeBehind false 0 t ++ '"' :: rest := by
    cases t with
    | nil => exact not_pair_isPrefix hrest
    | cons c t =>
        obtain ⟨d, others, hwritten, hd, -⟩ :=
          exists_cons_of_escapeBehind (by simp : ¬ (c = '"' ∧ false = true ∧ 0 < 2)) t
        rw [hwritten]
        exact fun hpair => hd (List.cons_prefix_cons.mp hpair).1.symm
  have hread := readBasic_escapeBehind t rest
  rw [← readString_double hquotes] at hread
  simpa [writeAs] using hread

theorem readString_literal (h : StringForm.literal.Holds t) (hrest : rest.head? ≠ some '\'') :
    readString (writeAs .literal t ++ rest) = some (t, rest) := by
  have hquotes : ¬ ['\'', '\''] <+: t ++ '\'' :: rest := by
    cases t with
    | nil => exact not_pair_isPrefix hrest
    | cons c t =>
        have hc := (h c List.mem_cons_self).2
        exact fun hpair => hc (List.cons_prefix_cons.mp hpair).1.symm
  have hread := readLiteral_append h rest
  rw [← readString_single hquotes] at hread
  simpa [writeAs] using hread

/-- Without newlines, what is escaped begins with a character that may stand as it
is. -/
theorem isPrintable_head_escapeBehind (h : '\n' ∉ t) :
    ∀ c ∈ (escapeBehind true 0 t ++ (List.replicate 3 '"' ++ rest)).head?,
      isPrintable c = true := by
  intro c hc
  cases t with
  | nil =>
      obtain rfl : '"' = c := by simpa [escapeBehind] using hc
      rfl
  | cons d t =>
      have hne : d ≠ '\n' := ne_of_mem_of_not_mem List.mem_cons_self h
      by_cases hquote : d = '"'
      · subst hquote
        rw [escapeBehind_quote (by omega)] at hc
        obtain rfl : '"' = c := by simpa using hc
        rfl
      · obtain ⟨e, others, hwritten, -, hprintable⟩ := exists_cons_of_escapeBehind
          (fun hraw => hquote hraw.1 : ¬ (d = '"' ∧ true = true ∧ 0 < 2)) t
        rw [hwritten] at hc
        obtain rfl : e = c := by simpa using hc
        exact hprintable hne

theorem readString_basicLines (t : Text) (hrest : rest.head? ≠ some '"') :
    readString (writeAs .basicLines t ++ rest) = some (t, rest) := by
  have hread := readBasicLines_escapeBehind (Nat.zero_le 2) t hrest
  rw [← dropNewline_openingNewline isPrintable_head_escapeBehind] at hread
  simpa [readString, writeAs] using hread

theorem readString_literalLines (h : StringForm.literalLines.Holds t)
    (hrest : rest.head? ≠ some '\'') :
    readString (writeAs .literalLines t ++ rest) = some (t, rest) := by
  obtain ⟨hchars, hruns⟩ := h
  have hhead : '\n' ∉ t → ∀ c ∈ (t ++ (List.replicate 3 '\'' ++ rest)).head?,
      isPrintable c = true := by
    intro hnewline c hc
    cases t with
    | nil =>
        obtain rfl : '\'' = c := by simpa using hc
        rfl
    | cons d t =>
        obtain rfl : d = c := by simpa using hc
        have hne : d ≠ '\n' := ne_of_mem_of_not_mem List.mem_cons_self hnewline
        exact (hchars d List.mem_cons_self).resolve_right hne
  have hread := readLiteralLines_append hchars hruns hrest
  rw [← dropNewline_openingNewline hhead] at hread
  simpa [readString, writeAs] using hread

/-- A text is read back from any form that holds it. -/
theorem readString_writeAs {form : StringForm} (h : form.Holds t)
    (hdouble : rest.head? ≠ some '"') (hsingle : rest.head? ≠ some '\'') :
    readString (writeAs form t ++ rest) = some (t, rest) := by
  cases form with
  | basic => exact readString_basic t hdouble
  | literal => exact readString_literal h hsingle
  | basicLines => exact readString_basicLines t hdouble
  | literalLines => exact readString_literalLines h hsingle

end Forms

/-- A text is read back from the form that it is written in. -/
theorem readString_writeString (t : Text) {rest : Text}
    (hdouble : rest.head? ≠ some '"') (hsingle : rest.head? ≠ some '\'') :
    readString (writeString t ++ rest) = some (t, rest) :=
  readString_writeAs (formOf_holds t) hdouble hsingle

end SqlScript.Toml

/-
Line endings.  A carriage return in front of every newline leaves blank what was
blank, never separates a text from the line it stands on, and is trimmed off
together with its newline.
-/
import SqlScript.Proofs.Text.Trim

namespace SqlScript.Text

/-- The text with a carriage return in front of every newline. -/
def crlf : Text → Text
  | [] => []
  | c :: t => if c = '\n' then '\r' :: '\n' :: crlf t else c :: crlf t

example : crlf "a\n\nb".toList = "a\r\n\r\nb".toList := by decide

@[simp] theorem crlf_nil : crlf [] = [] := rfl

@[simp] theorem crlf_newline (t : Text) : crlf ('\n' :: t) = '\r' :: '\n' :: crlf t := rfl

theorem crlf_cons {c : Char} (h : c ≠ '\n') (t : Text) : crlf (c :: t) = c :: crlf t :=
  if_neg h

@[simp] theorem crlf_append (s t : Text) : crlf (s ++ t) = crlf s ++ crlf t := by
  induction s using crlf.induct with
  | case1 => rfl
  | case2 s ih => simp [ih]
  | case3 c s hc ih => simp [crlf_cons hc, ih]

@[simp] theorem crlf_eq_nil_iff {t : Text} : crlf t = [] ↔ t = [] := by
  constructor
  · intro h
    cases t using crlf.induct with
    | case1 => rfl
    | case2 t => simp at h
    | case3 c t hc => simp [crlf_cons hc] at h
  · rintro rfl
    rfl

/-- A text that stays on one line has no line ending to change. -/
theorem crlf_of_not_mem {t : Text} (h : '\n' ∉ t) : crlf t = t := by
  induction t with
  | nil => rfl
  | cons c t ih =>
      obtain ⟨hc, ht⟩ : '\n' ≠ c ∧ '\n' ∉ t := by simpa using h
      rw [crlf_cons (Ne.symm hc), ih ht]

@[simp] theorem allBlank_crlf (t : Text) : allBlank (crlf t) = allBlank t := by
  have hreturn : isBlank '\r' = true := by decide
  have hnewline : isBlank '\n' = true := by decide
  induction t using crlf.induct with
  | case1 => rfl
  | case2 t ih =>
      rw [allBlank, allBlank] at ih ⊢
      simp [hreturn, hnewline, ih]
  | case3 c t hc ih =>
      rw [allBlank, allBlank] at ih ⊢
      simp [crlf_cons hc, ih]

@[simp] theorem getLast?_crlf (t : Text) : (crlf t).getLast? = t.getLast? := by
  induction t using crlf.induct with
  | case1 => rfl
  | case2 t ih => simp [List.getLast?_cons, ih]
  | case3 c t hc ih => simp [crlf_cons hc, List.getLast?_cons, ih]

/-- A text that stays on one line begins a text wherever it begins the text with
other line endings, unless it ends between a carriage return and its newline. -/
theorem prefix_crlf_iff {front t : Text} (hnewline : '\n' ∉ front) (hreturn : '\r' ∉ front) :
    front <+: crlf t ↔ front <+: t := by
  induction front generalizing t with
  | nil => simp
  | cons c front ih =>
      obtain ⟨hc, hfront⟩ : '\n' ≠ c ∧ '\n' ∉ front := by simpa using hnewline
      obtain ⟨hr, hreturns⟩ : '\r' ≠ c ∧ '\r' ∉ front := by simpa using hreturn
      cases t using crlf.induct with
      | case1 => simp
      | case2 t => simp [hc.symm, hr.symm]
      | case3 d t hd => simp [crlf_cons hd, ih hfront hreturns]

theorem newline_mem_crlf_iff {t : Text} : '\n' ∈ crlf t ↔ '\n' ∈ t := by
  induction t using crlf.induct with
  | case1 => rfl
  | case2 t ih => simp
  | case3 c t hc ih => simp [crlf_cons hc, ih]

/-- A text that stays on one line ends a text wherever it ends the text with other
line endings. -/
theorem suffix_crlf_iff {back t : Text} (h : '\n' ∉ back) : back <:+ crlf t ↔ back <:+ t := by
  induction t using crlf.induct with
  | case1 => rfl
  | case2 t ih =>
      have hne {more : Text} (hmore : '\n' ∈ more) : back ≠ more := by
        rintro rfl
        exact h hmore
      rw [crlf_newline, List.suffix_cons_iff, List.suffix_cons_iff, List.suffix_cons_iff, ih,
        or_iff_right (hne (by simp)), or_iff_right (hne (by simp)), or_iff_right (hne (by simp))]
  | case3 c t hc ih =>
      have hsame : back = c :: crlf t ↔ back = c :: t := by
        constructor <;> rintro rfl
        · rw [crlf_of_not_mem fun ht => h (List.mem_cons_of_mem c (newline_mem_crlf_iff.mpr ht))]
        · rw [crlf_of_not_mem fun ht => h (List.mem_cons_of_mem c ht)]
      rw [crlf_cons hc, List.suffix_cons_iff, List.suffix_cons_iff, ih, hsame]

end SqlScript.Text

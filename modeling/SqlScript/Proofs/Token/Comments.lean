/-
Comments.  A comment is one token, which runs through the first mark that closes it
and stands behind its opener, or through everything.  What stands in between has no
say, and the tokens go on right behind the mark.
-/
import SqlScript.Proofs.Token.Bodies

namespace SqlScript

namespace Reading

variable {mark t : Text}

/-- A mark ends the front that reaches through it. -/
theorem isSuffix_take_of_isPrefix_drop {p : Nat} (h : mark <+: t.drop p) :
    mark <:+ t.take (p + mark.length) := by
  obtain ⟨rest, hrest⟩ := h
  rw [List.take_add, ← hrest, List.take_left]
  exact List.suffix_append (t.take p) mark

/-- A front that ends with a mark reaches through a place where the mark stands. -/
theorem exists_isPrefix_drop_of_isSuffix_take {n : Nat} (h : mark <:+ t.take n) :
    ∃ p, p + mark.length ≤ n ∧ mark <+: t.drop p := by
  obtain ⟨front, hfront⟩ := h
  refine ⟨front.length, ?_, ?_⟩
  · have hlength := congrArg List.length hfront
    simp only [List.length_append, List.length_take] at hlength
    omega
  · have hsplit : front ++ (mark ++ t.drop n) = t := by
      rw [← List.append_assoc, hfront, List.take_append_drop]
    rw [← hsplit, List.drop_left]
    exact List.prefix_append mark (t.drop n)

/-- Reading through a character is reading through the mark of that character. -/
theorem takeThrough_eq_takeThroughMark (stop : Char) (t : Text) :
    takeThrough (· == stop) t = takeThroughMark [stop] t := by
  induction t with
  | nil => rfl
  | cons c t ih =>
      by_cases hc : c = stop
      · simp [takeThrough, takeThroughMark, hc]
      · simp [takeThrough, takeThroughMark, hc, Ne.symm hc, ih]

end Reading

namespace Token

open Reading

/-- The token in front of `t` runs through the first `mark` that stands behind
`start` characters of the text, or through everything if none stands there. -/
structure RunsThroughFirst (t : Text) (start : Nat) (mark : Text) : Prop where
  closed : ∀ p, start ≤ p → mark <+: t.drop p → (∀ q < p, start ≤ q → ¬ mark <+: t.drop q) →
    IsNext t (.text (t.take (p + mark.length))) (t.drop (p + mark.length))
  unclosed : (∀ p, start ≤ p → ¬ mark <+: t.drop p) → IsNext t (.text t) []

variable {t opener mark body : Text}

/-- The shortest front of `body` that ends with the mark reaches through the first
mark behind the opener. -/
theorem ClosesAtFirst.runsThroughFirst (h : ClosesAtFirst t opener mark body)
    (hsplit : opener ++ body = t) : RunsThroughFirst t opener.length mark := by
  subst hsplit
  constructor
  · intro p hstart hp hfirst
    obtain ⟨k, rfl⟩ := Nat.exists_eq_add_of_le hstart
    rw [List.drop_length_add_append] at hp
    rw [Nat.add_assoc, List.take_length_add_append, List.drop_length_add_append]
    apply h.closed _ (isSuffix_take_of_isPrefix_drop hp)
    intro m hm hends
    obtain ⟨q, hq, hplace⟩ := exists_isPrefix_drop_of_isSuffix_take hends
    apply hfirst (opener.length + q) (by omega) (Nat.le_add_right _ q)
    rwa [List.drop_length_add_append]
  · intro hnone
    apply h.unclosed
    intro n hends
    obtain ⟨q, -, hplace⟩ := exists_isPrefix_drop_of_isSuffix_take hends
    apply hnone (opener.length + q) (Nat.le_add_right _ q)
    rwa [List.drop_length_add_append]

/-- Where no mark stands within the first characters, the first one behind them is
the first of all. -/
theorem RunsThroughFirst.from_start {start : Nat} (h : RunsThroughFirst t start mark)
    (hfront : ∀ q < start, ¬ mark <+: t.drop q) : RunsThroughFirst t 0 mark := by
  constructor
  · intro p _ hp hfirst
    have hstart : start ≤ p := Nat.le_of_not_lt fun hlt => hfront p hlt hp
    exact h.closed p hstart hp fun q hq _ => hfirst q hq (Nat.zero_le q)
  · intro hnone
    exact h.unclosed fun p _ => hnone p (Nat.zero_le p)

theorem value_read_blockComment (body : Text) :
    (read '/' ('*' :: body)).value =
      .text (['/', '*'] ++ (takeThroughMark ['*', '/'] body).value) := by
  simp [read, readSlash, readBlockComment]

theorem value_read_lineComment (body : Text) :
    (read '-' ('-' :: body)).value =
      .text (['-', '-'] ++ (takeThroughMark ['\n'] body).value) := by
  simp [read_lineComment, readLineComment, takeThrough_eq_takeThroughMark]

/-- A block comment runs through the first closing mark behind its opener, with
which the mark shares no star.  A line comment runs through the first newline. -/
theorem isNext_of_comment (t : Text) :
    (['/', '*'] <+: t → RunsThroughFirst t 2 ['*', '/']) ∧
      (['-', '-'] <+: t → RunsThroughFirst t 0 ['\n']) := by
  constructor
  · rintro ⟨body, rfl⟩
    have hcloses := closesAtFirst_of_value (by simp) (value_read_blockComment body) rfl
    exact hcloses.runsThroughFirst rfl
  · rintro ⟨body, rfl⟩
    have hcloses := closesAtFirst_of_value (by simp) (value_read_lineComment body) rfl
    apply (hcloses.runsThroughFirst rfl).from_start
    -- The two dashes are in front of every newline.
    intro q hq
    match q, hq with
    | 0, _ => simp
    | 1, _ => simp

/-- The star of the opener closes nothing, in a run of stars the last one does, and
a line comment takes its newline and no more. -/
theorem isNext_of_comment_among_stars :
    let script := "/*/ ';--/***/*/".toList
    let unclosed := "/*/".toList
    let line := "--/* BEGIN;'\r\n*/".toList
    (['/', '*'] <+: script ∧ ['/', '*'] <+: unclosed ∧ ['-', '-'] <+: line) ∧
      IsNext script (.text "/*/ ';--/***/".toList) "*/".toList ∧
        IsNext unclosed (.text unclosed) [] ∧
          IsNext line (.text "--/* BEGIN;'\r\n".toList) "*/".toList := by
  intro script unclosed line
  have hscript : ['/', '*'] <+: script := by decide
  have hunclosed : ['/', '*'] <+: unclosed := by decide
  have hline : ['-', '-'] <+: line := by decide
  refine ⟨⟨hscript, hunclosed, hline⟩, ?_, ?_, ?_⟩
  · exact ((isNext_of_comment script).1 hscript).closed 11 (by decide) (by decide) (by decide)
  · apply ((isNext_of_comment unclosed).1 hunclosed).unclosed
    intro p hp
    obtain ⟨k, rfl⟩ := Nat.exists_eq_add_of_le hp
    cases k with
    | zero => decide
    | succ k => simp [unclosed, Nat.add_comm]
  · exact ((isNext_of_comment line).2 hline).closed 13 (by decide) (by decide) (by decide)

end Token

end SqlScript

/-
How far readings reach.  A run ends in front of the first character that does
not belong to it, a line ends with the first character that ends it, and a text
that is closed by a mark ends with that mark.
-/
import SqlScript.Reading

namespace SqlScript.Reading

variable {α β γ : Type}

theorem map_map (r : Reading α) (f : α → β) (g : β → γ) :
    (r.map f).map g = r.map fun a => g (f a) := by
  cases r <;> rfl

theorem map_eq_settled {f : α → β} {r : Reading α} {b : β} {rest : Text}
    (h : r.map f = .settled b rest) : ∃ a, r = .settled a rest ∧ f a = b := by
  cases r with
  | settled a left =>
      obtain ⟨hb, hrest⟩ : f a = b ∧ left = rest := by simpa [map] using h
      exact ⟨a, by rw [hrest], hb⟩
  | cutShort a => exact absurd h (by simp [map])

/-- A run is only settled by the character that ends it. -/
theorem rest_ne_nil_of_takeRun {p : Char → Bool} {t run rest : Text}
    (h : takeRun p t = .settled run rest) : rest ≠ [] := by
  induction t generalizing run with
  | nil => simp [takeRun] at h
  | cons c t ih =>
      by_cases hc : p c = true
      · obtain ⟨more, hmore, -⟩ := map_eq_settled (by simpa [takeRun, hc] using h)
        exact ih hmore
      · obtain ⟨-, rfl⟩ : [] = run ∧ c :: t = rest := by simpa [takeRun, hc] using h
        exact List.cons_ne_nil c t

/-- What is read through the first character with a property ends with that
character, and has none before it.  Where the text has no such character,
everything is read. -/
theorem takeThrough_extent (p : Char → Bool) (t : Text) :
    (∃ body stop, (takeThrough p t).value = body ++ [stop] ∧ p stop = true ∧
        ∀ c ∈ body, p c = false) ∨
      (takeThrough p t).rest = [] ∧ ∀ c ∈ (takeThrough p t).value, p c = false := by
  induction t with
  | nil => exact .inr ⟨rfl, by simp [takeThrough]⟩
  | cons c t ih =>
      by_cases hc : p c = true
      · exact .inl ⟨[], c, by simp [takeThrough, hc], hc, by simp⟩
      · have hfalse : p c = false := eq_false_of_ne_true hc
        have hread : takeThrough p (c :: t) = (takeThrough p t).map (c :: ·) := by
          simp [takeThrough, hc]
        rw [hread, value_map, rest_map]
        rcases ih with ⟨body, stop, hvalue, hstop, hbody⟩ | ⟨hrest, hvalue⟩
        · refine .inl ⟨c :: body, stop, by rw [hvalue, List.cons_append], hstop, ?_⟩
          simpa [hfalse] using hbody
        · refine .inr ⟨hrest, ?_⟩
          simpa [hfalse] using hvalue

theorem mark_suffix_of_takeThroughMark {mark t taken rest : Text}
    (h : takeThroughMark mark t = .settled taken rest) : mark <:+ taken := by
  induction t generalizing taken with
  | nil => simp [takeThroughMark] at h
  | cons c t ih =>
      by_cases hmark : mark.isPrefixOf (c :: t) = true
      · obtain ⟨rfl, -⟩ : mark = taken ∧ (c :: t).drop mark.length = rest := by
          simpa only [takeThroughMark, hmark, if_true, settled.injEq] using h
        exact List.suffix_refl mark
      · obtain ⟨more, hmore, rfl⟩ := map_eq_settled (by simpa [takeThroughMark, hmark] using h)
        exact (ih hmore).trans (List.suffix_cons c more)

theorem value_takeRun (p : Char → Bool) (t : Text) : (takeRun p t).value = t.takeWhile p := by
  induction t with
  | nil => rfl
  | cons c t ih => cases hc : p c <;> simp [takeRun, hc, ih]

theorem rest_takeRun (p : Char → Bool) (t : Text) : (takeRun p t).rest = t.dropWhile p := by
  induction t with
  | nil => rfl
  | cons c t ih => cases hc : p c <;> simp [takeRun, hc, ih]

/-- A run ends right in front of the first character that does not belong to it. -/
theorem takeRun_append_cons {p : Char → Bool} {run : Text} {stop : Char}
    (hrun : ∀ c ∈ run, p c = true) (hstop : p stop = false) (rest : Text) :
    takeRun p (run ++ stop :: rest) = .settled run (stop :: rest) := by
  induction run with
  | nil => simp [takeRun, hstop]
  | cons c run ih =>
      obtain ⟨hc, hothers⟩ := List.forall_mem_cons.mp hrun
      rw [List.cons_append, takeRun, if_pos hc, ih hothers]
      rfl

/-- A line ends right behind the first character that ends it. -/
theorem takeThrough_append_cons {p : Char → Bool} {body : Text} {stop : Char}
    (hbody : ∀ c ∈ body, p c = false) (hstop : p stop = true) (rest : Text) :
    takeThrough p (body ++ stop :: rest) = .settled (body ++ [stop]) rest := by
  induction body with
  | nil => simp [takeThrough, hstop]
  | cons c body ih =>
      obtain ⟨hc, hothers⟩ := List.forall_mem_cons.mp hbody
      rw [List.cons_append, takeThrough, if_neg (by simp [hc]), ih hothers]
      rfl

/-- A text that is closed nowhere is read to its end. -/
theorem takeThroughMark_eq_cutShort {mark t : Text}
    (h : ∀ front, front <+: t → ¬ mark <:+ front) : takeThroughMark mark t = .cutShort t := by
  induction t with
  | nil => rfl
  | cons c t ih =>
      have hopen : ¬ mark.isPrefixOf (c :: t) = true := by
        intro hmark
        exact h mark (List.isPrefixOf_iff_prefix.mp hmark) (List.suffix_refl mark)
      have hothers : ∀ front, front <+: t → ¬ mark <:+ front := by
        intro front hfront hmark
        exact h (c :: front) (List.cons_prefix_cons.mpr ⟨rfl, hfront⟩)
          (hmark.trans (List.suffix_cons c front))
      rw [takeThroughMark, if_neg hopen, ih hothers]
      rfl

/-- A text is read through the place where the mark ends for the first time. -/
theorem takeThroughMark_append {mark body : Text} (hne : body ≠ []) (hmark : mark <:+ body)
    (hfirst : ∀ front, front <+: body → front ≠ body → ¬ mark <:+ front) (rest : Text) :
    takeThroughMark mark (body ++ rest) = .settled body rest := by
  induction body with
  | nil => exact absurd rfl hne
  | cons c body ih =>
      by_cases hhere : mark.isPrefixOf (c :: (body ++ rest)) = true
      · have hbegins : mark <+: c :: body :=
          List.prefix_of_prefix_length_le (List.isPrefixOf_iff_prefix.mp hhere)
            (List.prefix_append (c :: body) rest) hmark.length_le
        have hwhole : mark = c :: body :=
          Classical.byContradiction fun hother =>
            hfirst mark hbegins hother (List.suffix_refl mark)
        rw [List.cons_append, takeThroughMark, if_pos hhere, hwhole, ← List.cons_append,
          List.drop_left]
      · have hlater : mark <:+ body := by
          rcases List.suffix_cons_iff.mp hmark with rfl | hlater
          · exact absurd (List.isPrefixOf_iff_prefix.mpr (List.prefix_append _ _)) hhere
          · exact hlater
        have hbody : body ≠ [] := by
          rintro rfl
          rw [List.suffix_nil.mp hlater] at hhere
          exact hhere rfl
        have hothers : ∀ front, front <+: body → front ≠ body → ¬ mark <:+ front := by
          intro front hfront hshort hends
          exact hfirst (c :: front) (List.cons_prefix_cons.mpr ⟨rfl, hfront⟩)
            (mt List.tail_eq_of_cons_eq hshort) (hends.trans (List.suffix_cons c front))
        rw [List.cons_append, takeThroughMark, if_neg hhere, ih hbody hlater hothers]
        rfl

end SqlScript.Reading

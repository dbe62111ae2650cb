/-
Which characters words are made of.  The intervals of the blanks meet none of those
of the letters and the numerals, so a word ends in front of every blank; and a
character whose lower case is an ASCII letter is a letter itself.
-/
import SqlScript.Text.Word

namespace SqlScript.Text

/-- No interval of the one meets an interval of the other. -/
def Ranges.disjoint (ranges others : Ranges) : Bool :=
  ranges.all fun range => others.all fun other =>
    decide (range.2 < other.1) || decide (other.2 < range.1)

namespace Ranges

variable {ranges others : Ranges} {n : Nat}

theorem exists_of_contains (h : ranges.contains n = true) :
    ∃ range ∈ ranges, range.1 ≤ n ∧ n ≤ range.2 := by
  induction ranges with
  | nil => exact absurd h (by simp [contains])
  | cons range ranges ih =>
      simp only [contains] at h
      split at h
      · exact absurd h (by simp)
      · rename_i hlow
        rcases Bool.or_eq_true_iff.mp h with hhigh | hlater
        · exact ⟨range, List.mem_cons_self, Nat.le_of_not_lt hlow, of_decide_eq_true hhigh⟩
        · obtain ⟨other, hmem, hbounds⟩ := ih hlater
          exact ⟨other, List.mem_cons_of_mem range hmem, hbounds⟩

theorem not_contains_of_disjoint (hdisjoint : ranges.disjoint others = true)
    (h : ranges.contains n = true) : others.contains n = false := by
  apply eq_false_of_ne_true
  intro hother
  obtain ⟨range, hrange, hbounds⟩ := exists_of_contains h
  obtain ⟨other, hmem, hothers⟩ := exists_of_contains hother
  have happart := List.all_eq_true.mp (List.all_eq_true.mp hdisjoint range hrange) other hmem
  simp only [Bool.or_eq_true, decide_eq_true_eq] at happart
  omega

end Ranges

variable {c : Char}

/-- No blank belongs to a word. -/
theorem not_isWordChar_of_isBlank (h : isBlank c = true) : isWordChar c = false := by
  have hletter : isLetter c = false := Ranges.not_contains_of_disjoint (by decide +kernel) h
  have hnumeral : isNumeral c = false := Ranges.not_contains_of_disjoint (by decide +kernel) h
  have hunderscore : c ≠ '_' := by
    rintro rfl
    exact absurd h (by decide)
  simp [isWordChar, hletter, hnumeral, hunderscore]

/-- The capital and the small letters of ASCII are letters. -/
theorem isLetter_of_toNat (h : 65 ≤ c.toNat ∧ c.toNat ≤ 90 ∨ 97 ≤ c.toNat ∧ c.toNat ≤ 122) :
    isLetter c = true := by
  obtain ⟨others, hranges⟩ : ∃ others, letterRanges = (65, 90) :: (97, 122) :: others := ⟨_, rfl⟩
  simp only [isLetter, hranges, Ranges.contains]
  split
  · omega
  · split <;> simp <;> omega

/-- Lower case changes nothing but capitals. -/
theorem isLetter_of_toLower (h : 97 ≤ c.toLower.toNat ∧ c.toLower.toNat ≤ 122) :
    isLetter c = true := by
  apply isLetter_of_toNat
  by_cases hcapital : c.val ≥ 'A'.val ∧ c.val ≤ 'Z'.val
  · exact .inl ⟨UInt32.le_iff_toNat_le.mp hcapital.1, UInt32.le_iff_toNat_le.mp hcapital.2⟩
  · have hsame : c.toLower = c := dif_neg hcapital
    rw [hsame] at h
    exact .inr h

end SqlScript.Text

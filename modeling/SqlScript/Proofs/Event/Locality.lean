/-
Events are read locally, tokens and raw scans alike.  Whether a raw scan stops
behind some characters depends on one more character at most, so a scan that
stopped stops at the same place whatever is put behind the text.
-/
import SqlScript.Event
import SqlScript.Proofs.Token.Slices

namespace SqlScript

namespace Reading

variable {α : Type}

/-- A settled reading stays as it is when the text goes on. -/
theorem Local.append {read : Text → Reading α} (h : Local read) {t rest : Text} {a : α}
    (hread : read t = .settled a rest) (more : Text) :
    read (t ++ more) = .settled a (rest ++ more) := by
  obtain ⟨body, rfl, hbody⟩ := h t a rest hread
  rw [List.append_assoc]
  apply hbody.settled_before
  cases rest with
  | nil => exact .inl rfl
  | cons c rest => exact .inr rfl

/-- Behind a character that is already known, a line is read locally too. -/
theorem takeThrough_cons_local (p : Char → Bool) (c : Char) :
    Local fun t => takeThrough p (c :: t) := by
  by_cases hc : p c = true
  · simp only [takeThrough, hc, if_true]
    exact settled_local [c]
  · simp only [takeThrough, hc]
    exact (takeThrough_local p).map (c :: ·)

end Reading

namespace Event

open Reading

variable {mark seen : Text}

/-- A scan ends right behind the delimiter, whatever is left. -/
theorem scanBehind_of_mark {c : Char} (h : mark.reverse.isPrefixOf (c :: seen) = true) (t : Text) :
    scanBehind mark seen (c :: t) =
      .settled (.statement ((c :: seen).drop mark.length).reverse mark) t := by
  rw [scanBehind, stopAfter?, if_pos h]

/-- Where the delimiter does not stop a scan, one more character decides whether
a directive does, and the directive is read locally behind that character. -/
theorem stopAfter?_cons_local (h : ¬ mark.reverse.isPrefixOf seen = true) (c : Char) :
    (∀ t, stopAfter? mark seen (c :: t) = none) ∨
      ∃ read, Local read ∧ ∀ t, stopAfter? mark seen (c :: t) = some (read t) := by
  simp only [stopAfter?, if_neg h]
  cases keywordAtEnd? seen with
  | none => exact .inl fun _ => rfl
  | some found =>
      obtain ⟨before, word⟩ := found
      by_cases hc : c = ';' ∨ Text.isBlank c
      · let read (t : Text) := (Directive.read word (c :: t)).map (Event.directive before.reverse)
        refine .inr ⟨read, ?_, ?_⟩
        · exact ((takeThrough_cons_local Directive.endsDirective c).map _).map _
        · intro t
          simp only [if_pos hc, read]
      · refine .inl fun t => ?_
        simp only [if_neg hc]

/-- At the end of the text a scan that the delimiter does not end is cut short. -/
theorem scanBehind_singleton {c : Char} (h : ¬ mark.reverse.isPrefixOf (c :: seen) = true) :
    ∃ event, scanBehind mark seen [c] = .cutShort event := by
  rw [scanBehind, stopAfter?, if_neg h]
  cases keywordAtEnd? (c :: seen) with
  | none => exact ⟨_, rfl⟩
  | some found => exact ⟨_, rfl⟩

/-- A raw scan is local behind its first character, whatever it has seen. -/
theorem scanBehind_local (mark seen : Text) (c : Char) :
    Local fun t => scanBehind mark seen (c :: t) := by
  intro t
  induction t generalizing seen c with
  | nil =>
      by_cases hmark : mark.reverse.isPrefixOf (c :: seen) = true
      · simp only [scanBehind_of_mark hmark]
        exact settled_local _ []
      · obtain ⟨event, hcut⟩ := scanBehind_singleton hmark
        exact .of_cutShort hcut
  | cons d t ih =>
      by_cases hmark : mark.reverse.isPrefixOf (c :: seen) = true
      · simp only [scanBehind_of_mark hmark]
        exact settled_local _ (d :: t)
      · rcases stopAfter?_cons_local hmark d with hgoes | ⟨read, hread, hstops⟩
        · refine (ih (c :: seen) d).behind [d] fun t => ?_
          rw [List.singleton_append, scanBehind, hgoes]
        · refine (hread t).behind [d] fun t => ?_
          rw [List.singleton_append, scanBehind, hstops]

/-- Under every delimiter the next event is read locally. -/
theorem read_local (mark : Text) (c : Char) : Local (read mark c) := by
  unfold read
  split
  · exact (Token.read_local c).map _
  · exact scanBehind_local mark [] c

/-- A settled event is read again when the text goes on. -/
theorem read_append {mark t rest : Text} {c : Char} {event : Event}
    (h : read mark c t = .settled event rest) (more : Text) :
    read mark c (t ++ more) = .settled event (rest ++ more) :=
  (read_local mark c).append h more

end Event

end SqlScript

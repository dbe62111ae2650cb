/-
What directives name.  A directive ends with its line and names what trimming
leaves of it, so a delimiter is not empty, has no blank at either end and no
newline, and a semicolon in it ends it; every such text can be named on a line.
-/
import SqlScript.Proofs.Event.Shape
import SqlScript.Proofs.Text.Trim

namespace SqlScript

/-- A text that a directive can set as the delimiter. -/
structure PossibleDelimiter (mark : Text) : Prop where
  ne_nil : mark ≠ []
  trimmed : Text.Trimmed mark
  no_newline : '\n' ∉ mark
  semicolon_last : ';' ∉ mark.dropLast

theorem possibleDelimiter_semicolon : PossibleDelimiter Event.semicolon := by
  constructor <;> decide

namespace Directive

variable {d : Directive} {rest : Text}

/-- Only the last character of a directive ends it. -/
theorem IsBefore.not_endsDirective (h : d.IsBefore rest) {c : Char} (hc : c ∈ d.tail.dropLast) :
    c ≠ '\n' ∧ c ≠ ';' := by
  rcases h.tail with ⟨body, stop, hline, -, hbody⟩ | ⟨-, hopen⟩
  · rw [hline, List.dropLast_concat] at hc
    exact hbody c hc
  · exact hopen c ((List.dropLast_sublist d.tail).subset hc)

/-- A directive names a possible delimiter, if it names any. -/
theorem IsBefore.possibleDelimiter (h : d.IsBefore rest) (hne : d.delimiter ≠ []) :
    PossibleDelimiter d.delimiter := by
  obtain ⟨front, last, hmark⟩ := (List.eq_nil_or_concat d.delimiter).resolve_left hne
  rw [List.concat_eq_append] at hmark
  have hfront : ∀ c ∈ front, c ≠ '\n' ∧ c ≠ ';' := by
    obtain ⟨lead, trail, htail⟩ := Text.trim_isInfix d.tail
    intro c hc
    apply h.not_endsDirective
    rw [← htail, show Text.trim d.tail = front ++ [last] from hmark, List.append_assoc,
      List.append_assoc, List.singleton_append,
      List.dropLast_append_of_ne_nil (by simp), List.dropLast_append_of_ne_nil (by simp)]
    exact List.mem_append_right lead (List.mem_append_left _ hc)
  have htrimmed : Text.Trimmed d.delimiter := Text.trimmed_trim d.tail
  -- A newline may end the tail, but it is a blank, so trimming leaves none at the end.
  have hlast : last ≠ '\n' := by
    rintro rfl
    have hblank := htrimmed.last '\n' (by rw [hmark, List.getLast?_concat]; rfl)
    exact absurd hblank (by decide)
  refine ⟨hne, htrimmed, ?_, ?_⟩
  · rw [hmark, List.mem_append, List.mem_singleton]
    rintro (hc | hc)
    · exact (hfront _ hc).1 rfl
    · exact hlast hc.symm
  · rw [hmark, List.dropLast_concat]
    intro hc
    exact (hfront _ hc).2 rfl

end Directive

/-- A line can name every possible delimiter: a semicolon in it ends the line
itself, and behind any other a newline does. -/
theorem PossibleDelimiter.exists_line {mark : Text} (h : PossibleDelimiter mark) :
    ∃ argument stop trail, argument ++ [stop] = mark ++ trail ∧
      (∀ c ∈ trail, Text.isBlank c = true) ∧ Directive.endsDirective stop = true ∧
        ∀ c ∈ argument, Directive.endsDirective c = false := by
  obtain ⟨front, last, rfl⟩ := (List.eq_nil_or_concat mark).resolve_left h.ne_nil
  rw [List.concat_eq_append] at h ⊢
  have hsemicolon := h.semicolon_last
  have hnewline := h.no_newline
  rw [List.dropLast_concat] at hsemicolon
  rw [List.mem_append, List.mem_singleton, not_or] at hnewline
  have hfront : ∀ c ∈ front, Directive.endsDirective c = false := by
    intro c hc
    rw [Directive.endsDirective_eq_false_iff]
    exact ⟨fun heq => hnewline.1 (heq ▸ hc), fun heq => hsemicolon (heq ▸ hc)⟩
  by_cases hlast : last = ';'
  · subst hlast
    exact ⟨front, ';', [], by rw [List.append_nil], by simp, by decide, hfront⟩
  · refine ⟨front ++ [last], '\n', ['\n'], rfl, List.forall_mem_singleton.mpr (by decide),
      by decide, ?_⟩
    intro c hc
    rcases List.mem_append.mp hc with hc | hc
    · exact hfront c hc
    · obtain rfl := List.mem_singleton.mp hc
      exact (Directive.endsDirective_eq_false_iff c).mpr ⟨Ne.symm hnewline.2, hlast⟩

namespace Event

/-- The directive that an event is about, if it is about one. -/
def directive? : Event → Option Directive
  | .token (.directive d) => some d
  | .directive _ d => some d
  | _ => none

theorem Possible.isBefore_of_directive? {mark rest : Text} {event : Event} {d : Directive}
    (h : Possible mark event rest) (hd : event.directive? = some d) : d.IsBefore rest := by
  cases h with
  | @token token _ hmark hdirective =>
      cases token with
      | directive other =>
          obtain rfl := Option.some.inj hd
          exact hdirective other rfl
      | _ => exact absurd hd (by simp [directive?])
  | directive hmark hdirective =>
      obtain rfl := Option.some.inj hd
      exact hdirective
  | _ => exact absurd hd (by simp [directive?])

/-- A directive ends its event. -/
theorem exists_lexeme_of_directive? {event : Event} {d : Directive}
    (h : event.directive? = some d) : ∃ preceding, event.lexeme = preceding ++ d.lexeme := by
  cases event with
  | token token =>
      cases token with
      | directive other =>
          obtain rfl := Option.some.inj h
          exact ⟨[], rfl⟩
      | _ => exact absurd h (by simp [directive?])
  | directive preceding other =>
      obtain rfl := Option.some.inj h
      exact ⟨preceding, rfl⟩
  | _ => exact absurd h (by simp [directive?])

end Event

end SqlScript

/-
The delimiters that a splitter can be under.  A splitter starts under the semicolon
and goes on under what directives name, and every text that can be named is active
somewhere.  Under a delimiter other than the semicolon, a step finds nothing in the
buffer: only the remainder of a script stays there, and no step comes behind it.
-/
import SqlScript.Proofs.Splitter.OpenBlocks
import SqlScript.Proofs.Splitter.Pulling
import SqlScript.Proofs.Splitter.Transport

namespace SqlScript

namespace Splitter

/-- What holds in front of the text `rest`, where the steps `past` have led to. -/
structure Delimited (past : List Step) (state : State) (rest : Text) : Prop where
  possible : PossibleDelimiter state.delimiter
  free : (∀ last ∈ past.getLast?, ¬ last.event.isRemainder = true) → BufferFree state
  /-- Nothing comes behind the remainder. -/
  ends : (∃ last ∈ past.getLast?, last.event.isRemainder = true) → rest = []

theorem delimited_start (t : Text) : Delimited [] {} t :=
  ⟨possibleDelimiter_semicolon, fun _ _ => rfl, by simp⟩

theorem Delimited.firstStep (options : Options) {past : List Step} {state : State} {c : Char}
    {t : Text} (h : Delimited past state (c :: t)) :
    Delimited (past ++ [firstStep options state c t]) (firstStep options state c t).next
      (Event.read state.delimiter c t).rest := by
  have hpossible := Event.possible_read state.delimiter c t
  rw [Splitter.firstStep]
  generalize (Event.read state.delimiter c t).value = event at hpossible ⊢
  generalize (Event.read state.delimiter c t).rest = rest at hpossible ⊢
  refine ⟨?_, fun hlast => ?_, fun hlast => ?_⟩
  · exact possibleDelimiter_take options h.possible hpossible
  · rw [List.getLast?_concat] at hlast
    exact bufferFree_take options hpossible (event_take options state event ▸ hlast _ rfl)
  · -- Of all events only the remainder is known to leave nothing.
    rw [List.getLast?_concat] at hlast
    obtain ⟨last, hmem, hremainder⟩ := hlast
    obtain rfl := Option.some.inj hmem
    rw [event_take] at hremainder
    exact hpossible.rest_eq_nil hremainder

/-- Every possible delimiter is the active one behind the directive of some line. -/
theorem exists_stateAfter_of_possibleDelimiter (options : Options) {mark : Text}
    (h : PossibleDelimiter mark) : ∃ t, (stateAfter options {} t 1).delimiter = mark := by
  obtain ⟨argument, stop, trail, hline, htrail, hstop, hargument⟩ := h.exists_line
  -- The whole script is one directive, so one step leads there.
  refine ⟨Directive.capitals ++ ' ' :: (argument ++ [stop]), ?_⟩
  change (stateAfter options {} ('D' :: (Directive.capitals.tail ++ _)) 1).delimiter = mark
  rw [stateAfter_succ, stateAfter_zero, Splitter.firstStep, delimiter_take,
    read_of_semicolon rfl, Token.read_capitals hargument hstop]
  have hlead : ∀ c ∈ [' '], Text.isBlank c = true := List.forall_mem_singleton.mpr (by decide)
  have hnamed : Text.trim (' ' :: argument ++ [stop]) = mark := by
    rw [List.cons_append, hline]
    exact Text.trim_of_surrounded hlead htrail h.trimmed h.ne_nil
  change (if Text.trim _ = [] then _ else Text.trim _) = _
  rw [hnamed, if_neg h.ne_nil]

/-- The delimiters that are active wherever a splitter gets are just the possible
ones.  Under any but the semicolon the buffer is empty, unless the last step took
the remainder of the script; so it is empty wherever another step is taken, and
that step overwrites nothing. -/
theorem possibleDelimiter_stateAfter (options : Options) (t : Text) :
    (∀ n, PossibleDelimiter (stateAfter options {} t n).delimiter ∧
        ((∀ last ∈ ((run options {} t).steps.take n).getLast?,
            ¬ last.event.isRemainder = true) →
          (stateAfter options {} t n).delimiter ≠ Event.semicolon →
            (stateAfter options {} t n).buffer = []) ∧
        (n < (run options {} t).steps.length →
          (stateAfter options {} t n).delimiter ≠ Event.semicolon →
            (stateAfter options {} t n).buffer = [])) ∧
      ∀ mark, PossibleDelimiter mark ↔ ∃ t n, (stateAfter options {} t n).delimiter = mark := by
  have hreached : ∀ t n, ∃ rest, Delimited ((run options {} t).steps.take n)
      (stateAfter options {} t n) rest ∧ (run options (stateAfter options {} t n) rest).steps =
        (run options {} t).steps.drop n :=
    fun t n => stateAfter_induction options (Delimited.firstStep options) (delimited_start t) n
  refine ⟨fun n => ?_, fun mark => ⟨fun hmark => ?_, ?_⟩⟩
  · obtain ⟨rest, hdelimited, hothers⟩ := hreached t n
    refine ⟨hdelimited.possible, hdelimited.free, fun hn => hdelimited.free ?_⟩
    intro last hlast hremainder
    rw [hdelimited.ends ⟨last, hlast, hremainder⟩, steps_run_nil] at hothers
    exact absurd (List.drop_eq_nil_iff.mp hothers.symm) (Nat.not_le_of_lt hn)
  · obtain ⟨script, hscript⟩ := exists_stateAfter_of_possibleDelimiter options hmark
    exact ⟨script, 1, hscript⟩
  · rintro ⟨script, n, rfl⟩
    obtain ⟨rest, hdelimited, -⟩ := hreached script n
    exact hdelimited.possible

end Splitter

end SqlScript

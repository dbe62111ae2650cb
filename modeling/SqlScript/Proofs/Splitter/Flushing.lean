/-
What flushing decides.  Text is pending when a directive is met among tokens.  A
splitter that flushes makes it a statement, another one drops it, and both go on
in the same state: their runs keep the same events, records and states, and one
has the statements of the other without the pending texts.
-/
import SqlScript.Proofs.Splitter.OpenBlocks

namespace SqlScript

namespace Splitter

/-- Whether a step from `state` met a directive among tokens, so that the buffer
of `state` was pending. -/
def Step.interrupts (step : Step) (state : State) : Bool :=
  state.delimiter = Event.semicolon && step.metDirective

/-- A step from `state` without the pending text. -/
def Step.dropPending (step : Step) (state : State) : Step :=
  if step.interrupts state then { step with statements := [] } else step

/-- A run from `state` without the pending texts. -/
def Run.dropPending (state : State) : Run → Run
  | .done last => .done last
  | .cut last => .cut (last.dropPending state)
  | .step first others => .step (first.dropPending state) (others.dropPending first.next)

/-- A statement, and whether it was text pending at a directive. -/
structure Given where
  text : Text
  pending : Bool
deriving Repr, DecidableEq

def Step.given (step : Step) (state : State) : List Given :=
  step.statements.map fun text => ⟨text, step.interrupts state⟩

/-- What a text leaves at its end was never pending at a directive. -/
def State.givenLast (state : State) : List Given :=
  state.leftover.map fun text => ⟨text, false⟩

/-- The statements of a run from `state`, told apart by where they come from. -/
def Run.given (state : State) : Run → List Given
  | .done last => last.givenLast
  | .cut last => last.given state ++ last.next.givenLast
  | .step first others => first.given state ++ others.given first.next

/-- The texts, blank or not, that were pending at the directives which the steps
from `state` met among tokens. -/
def pendingTexts (state : State) : List Step → List Text
  | [] => []
  | first :: others =>
      (if first.interrupts state then [state.buffer] else []) ++ pendingTexts first.next others

variable {options : Options} {state : State} {event : Event} {rest : Text}

@[simp] theorem Step.next_dropPending (step : Step) (state : State) :
    (step.dropPending state).next = step.next := by
  unfold Step.dropPending
  split <;> rfl

@[simp] theorem Step.log_dropPending (step : Step) (state : State) :
    (step.dropPending state).log = step.log := by
  unfold Step.dropPending
  split <;> rfl

@[simp] theorem Step.interrupts_dropPending (step : Step) (state : State) :
    (step.dropPending state).interrupts state = step.interrupts state := by
  unfold Step.dropPending
  split <;> rfl

theorem Step.map_text_given (step : Step) (state : State) :
    (step.given state).map Given.text = step.statements := by
  simp [Step.given, Function.comp_def]

theorem State.map_text_givenLast (state : State) :
    state.givenLast.map Given.text = state.leftover := by
  simp [State.givenLast, Function.comp_def]

/-- The statements that stay are those that were not pending. -/
theorem Step.statements_dropPending (step : Step) (state : State) :
    (step.dropPending state).statements =
      ((step.given state).filter (!·.pending)).map Given.text := by
  rw [Step.dropPending, Step.given, List.filter_map]
  split <;> simp [*, Function.comp_def]

theorem State.filter_givenLast (state : State) :
    state.givenLast.filter (!·.pending) = state.givenLast ∧
      state.givenLast.filter (·.pending) = [] := by
  simp [State.givenLast]

namespace Run

/-- Dropping pending texts changes no record. -/
theorem log_dropPending (state : State) (run : Run) : (run.dropPending state).log = run.log := by
  induction run generalizing state with
  | done last => rfl
  | cut last => exact last.log_dropPending state
  | step first others ih => rw [dropPending, log, log, first.log_dropPending, ih]

theorem map_text_given (state : State) (run : Run) :
    (run.given state).map Given.text = run.statements := by
  induction run generalizing state with
  | done last => exact last.map_text_givenLast
  | cut last =>
      rw [given, List.map_append, last.map_text_given, last.next.map_text_givenLast, statements]
  | step first others ih => rw [given, List.map_append, first.map_text_given, ih, statements]

theorem statements_dropPending (state : State) (run : Run) :
    (run.dropPending state).statements =
      ((run.given state).filter (!·.pending)).map Given.text := by
  induction run generalizing state with
  | done last =>
      rw [given, last.filter_givenLast.1, last.map_text_givenLast]
      rfl
  | cut last =>
      rw [given, List.filter_append, List.map_append, ← last.statements_dropPending,
        last.next.filter_givenLast.1, last.next.map_text_givenLast, dropPending, statements,
        last.next_dropPending]
  | step first others ih =>
      rw [given, List.filter_append, List.map_append, ← first.statements_dropPending, ← ih]
      rfl

/-- Dropping pending texts changes none that comes later. -/
theorem pendingTexts_dropPending (state : State) (run : Run) :
    pendingTexts state (run.dropPending state).steps = pendingTexts state run.steps := by
  induction run generalizing state with
  | done last => rfl
  | cut last => simp [dropPending, steps, pendingTexts]
  | step first others ih => simp [dropPending, steps, pendingTexts, ih]

end Run

/-- A directive among tokens is the only one with pending text. -/
theorem interrupts_take_iff (h : event.Possible state.delimiter rest) :
    (state.take options event).interrupts state = true ↔ ∃ d, event = .token (.directive d) := by
  rw [Step.interrupts, Step.metDirective, event_take, Bool.and_eq_true, decide_eq_true_eq]
  cases h with
  | @token token _ hmark => cases token <;> simp [hmark]
  | statement hmark => simp
  | directive hmark => simp [hmark]
  | remainder hmark => simp

/-- Without flushing, a step only lacks the pending text. -/
theorem take_dropping (h : event.Possible state.delimiter rest) :
    state.take ⟨false⟩ event = (state.take ⟨true⟩ event).dropPending state := by
  rw [Step.dropPending]
  split
  · rename_i hinterrupts
    obtain ⟨d, rfl⟩ := (interrupts_take_iff h).mp hinterrupts
    rfl
  · rename_i hinterrupts
    cases event with
    | token token =>
        cases token with
        | directive d => exact absurd ((interrupts_take_iff h).mpr ⟨d, rfl⟩) hinterrupts
        | _ => rfl
    | _ => rfl

/-- With flushing, the pending text is the only statement of its step. -/
theorem given_take_flushing (h : event.Possible state.delimiter rest) :
    (((state.take ⟨true⟩ event).given state).filter (·.pending)).map Given.text =
      (pendingTexts state [state.take ⟨true⟩ event]).filter fun text => !Text.allBlank text := by
  rw [pendingTexts, pendingTexts, List.append_nil, Step.given, List.filter_map]
  split
  · rename_i hinterrupts
    obtain ⟨d, rfl⟩ := (interrupts_take_iff h).mp hinterrupts
    have hstatements : (state.take ⟨true⟩ (.token (.directive d))).statements =
        unlessBlank state.buffer := rfl
    rw [hstatements, unlessBlank]
    split <;> simp [*]
  · rename_i hinterrupts
    simp [hinterrupts, Function.comp_def]

/-- The two runs keep in step: pending text is dropped where it was flushed, and
nothing else depends on the option. -/
theorem run_dropping (state : State) (t : Text) :
    run ⟨false⟩ state t = (run ⟨true⟩ state t).dropPending state := by
  induction state, t using run_induction ⟨true⟩ with
  | done state =>
      rw [run_nil, run_nil]
      rfl
  | step state c t ih =>
      have htake := take_dropping (Event.possible_read state.delimiter c t)
      rw [firstStep] at ih
      cases hread : Event.read state.delimiter c t with
      | settled event rest =>
          rw [hread, Reading.value_settled] at htake ih
          rw [Reading.rest_settled] at ih
          calc run ⟨false⟩ state (c :: t)
              = .step ((state.take ⟨true⟩ event).dropPending state)
                  (run ⟨false⟩ (state.take ⟨true⟩ event).next rest) := by
                rw [run_cons_settled hread, htake, Step.next_dropPending]
            _ = (Run.step (state.take ⟨true⟩ event)
                  (run ⟨true⟩ (state.take ⟨true⟩ event).next rest)).dropPending state := by
                rw [Run.dropPending, ← ih]
            _ = (run ⟨true⟩ state (c :: t)).dropPending state := by
                rw [run_cons_settled hread]
      | cutShort event =>
          rw [hread] at htake
          rw [run_cons_cutShort hread, run_cons_cutShort hread, Run.dropPending]
          exact congrArg Run.cut htake

/-- With flushing, the statements that were pending are the pending texts that are
not blank. -/
theorem given_run_flushing (state : State) (t : Text) :
    (((run ⟨true⟩ state t).given state).filter (·.pending)).map Given.text =
      (pendingTexts state (run ⟨true⟩ state t).steps).filter fun text => !Text.allBlank text := by
  induction state, t using run_induction ⟨true⟩ with
  | done state =>
      rw [run_nil, Run.given, state.filter_givenLast.2]
      rfl
  | step state c t ih =>
      have htake := given_take_flushing (Event.possible_read state.delimiter c t)
      rw [pendingTexts, pendingTexts, List.append_nil] at htake
      rw [firstStep] at ih
      cases hread : Event.read state.delimiter c t with
      | settled event rest =>
          rw [hread] at htake ih
          rw [run_cons_settled hread, Run.given, List.filter_append, List.map_append, Run.steps,
            pendingTexts, List.filter_append]
          exact congrArg₂ _ htake ih
      | cutShort event =>
          rw [hread] at htake
          rw [run_cons_cutShort hread, Run.given, List.filter_append, (State.filter_givenLast _).2,
            List.append_nil, Run.steps, pendingTexts, pendingTexts, List.append_nil]
          exact htake

/-- Whether pending text is flushed changes no record of any text, and the
statements without flushing are those with it, in order, except for the texts that
were pending at a directive met among tokens and are not blank. -/
theorem split_dropping (t : Text) :
    let flushing := run ⟨true⟩ {} t
    (split ⟨false⟩ t).log = (split ⟨true⟩ t).log ∧
      (split ⟨true⟩ t).statements = (flushing.given {}).map Given.text ∧
      (split ⟨false⟩ t).statements =
        ((flushing.given {}).filter (!·.pending)).map Given.text ∧
      ((flushing.given {}).filter (·.pending)).map Given.text =
        (pendingTexts {} flushing.steps).filter (fun text => !Text.allBlank text) ∧
      pendingTexts {} (run ⟨false⟩ {} t).steps = pendingTexts {} flushing.steps := by
  intro flushing
  have hdropping : run ⟨false⟩ {} t = flushing.dropPending {} := run_dropping {} t
  refine ⟨?_, ?_, ?_, given_run_flushing {} t, ?_⟩
  · rw [split, hdropping]
    exact flushing.log_dropPending {}
  · exact (flushing.map_text_given {}).symm
  · rw [split, hdropping]
    exact flushing.statements_dropPending {}
  · rw [hdropping]
    exact flushing.pendingTexts_dropPending {}

example : (run ⟨true⟩ {} "a\nDELIMITER //\nb//".toList).given {} =
    [⟨"a\n".toList, true⟩, ⟨"b".toList, false⟩] := by decide +kernel

end Splitter

end SqlScript

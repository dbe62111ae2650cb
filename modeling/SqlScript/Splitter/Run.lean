/-
Whole runs of a splitter.  A run is the sequence of its steps; statements and
records are read off it.  A step is settled when nothing behind its event can
change it, so what settled steps give out holds for every continuation.
-/
import SqlScript.Splitter.Step
import SqlScript.Source

namespace SqlScript

namespace Splitter

/-- The steps of a splitter over a text. -/
inductive Run where
  /-- The text was used up in this state. -/
  | done (state : State)
  /-- The text ended inside the event of this step. -/
  | cut (last : Step)
  /-- A settled step, and the run behind it. -/
  | step (first : Step) (others : Run)
deriving Repr, DecidableEq

namespace Run

/-- All statements, with what the buffer holds at the end as the last. -/
def statements : Run → List Text
  | .done state => state.leftover
  | .cut last => last.statements ++ last.next.leftover
  | .step first others => first.statements ++ others.statements

def log : Run → List Record
  | .done _ => []
  | .cut last => last.log
  | .step first others => first.log ++ others.log

/-- The records of the settled steps alone. -/
def settledLog : Run → List Record
  | .done _ => []
  | .cut _ => []
  | .step first others => first.log ++ others.settledLog

/-- All steps, settled or cut short. -/
def steps : Run → List Step
  | .done _ => []
  | .cut last => [last]
  | .step first others => first :: others.steps

end Run

/-- Run a splitter over a text from a given state. -/
def run (options : Options) (state : State) : Text → Run
  | [] => .done state
  | c :: t =>
      let reading := Event.read state.delimiter c t
      let step := state.take options reading.value
      match reading with
      | .settled _ _ => .step step (run options step.next reading.rest)
      | .cutShort _ => .cut step
termination_by t => t.length
decreasing_by exact Event.rest_read_length_lt state.delimiter c t

@[simp] theorem run_nil (options : Options) (state : State) :
    run options state [] = .done state := by
  rw [run]

theorem run_cons_settled {options : Options} {state : State} {c : Char} {t rest : Text}
    {event : Event} (h : Event.read state.delimiter c t = .settled event rest) :
    run options state (c :: t) =
      .step (state.take options event) (run options (state.take options event).next rest) := by
  rw [run, h]
  rfl

theorem run_cons_cutShort {options : Options} {state : State} {c : Char} {t : Text}
    {event : Event} (h : Event.read state.delimiter c t = .cutShort event) :
    run options state (c :: t) = .cut (state.take options event) := by
  rw [run, h]
  rfl

end Splitter

/-- The statements of a script and what was reported on the way. -/
structure Split where
  statements : List Text
  log : List Record
deriving Repr, DecidableEq

/-- Split a script into its statements. -/
def split (options : Options) (script : Text) : Split :=
  let run := Splitter.run options {} script
  ⟨run.statements, run.log⟩

/-- Split every statement of a result once more. -/
def Split.again (options : Options) (result : Split) : List Split :=
  result.statements.map (split options)

/-- The answer of a reader that may fail, and what was reported until then. -/
structure Logged (α : Type) where
  answer : Except ReadError α
  log : List Record

/-- Split what a source gives.  An error leaves no statements; reported is what
the steps in front of it had settled. -/
def splitSource (options : Options) (source : Source) : Logged (List Text) :=
  let run := Splitter.run options {} source.text
  match source.obstacle? with
  | none => ⟨.ok run.statements, run.log⟩
  | some e => ⟨.error e, run.settledLog⟩

end SqlScript

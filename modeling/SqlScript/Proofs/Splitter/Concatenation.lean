/-
Scripts that end with a statement can be put in front of others.  Behind the
semicolon that ended it a splitter is in the state it started in, but for the
characters it has counted, and the count shows in the warnings alone.
-/
import SqlScript.Proofs.Event.Shape
import SqlScript.Proofs.Splitter.Settled

namespace SqlScript

/-- The same record from a place `count` characters later in a script. -/
def Record.moved (count : Nat) : Record → Record
  | .delimiterMissing position kept => .delimiterMissing (position + count) kept
  | record => record

namespace Splitter

namespace State

/-- The same state at a place `count` characters later in a script. -/
def moved (state : State) (count : Nat) : State :=
  { state with position := state.position + count }

variable (state : State) (count : Nat)

theorem collect_moved (piece : Text) :
    (state.moved count).collect piece = (state.collect piece).moved count := by
  simp only [moved, collect, Nat.add_right_comm]

theorem clear_moved (taken : Nat) :
    (state.moved count).clear taken = (state.clear taken).moved count := by
  simp only [moved, clear, Nat.add_right_comm]

theorem setDelimiter_moved (argument : Text) :
    (state.moved count).setDelimiter argument = (state.setDelimiter argument).moved count := by
  simp only [setDelimiter, apply_ite (State.moved · count)]
  rfl

theorem directiveRecord_moved (argument : Text) :
    (state.moved count).directiveRecord argument =
      (state.directiveRecord argument).moved count := by
  simp only [directiveRecord, apply_ite (Record.moved count)]
  rfl

end State

/-- The same step from a place `count` characters later in a script. -/
def Step.moved (step : Step) (count : Nat) : Step :=
  { step with log := step.log.map (Record.moved count), next := step.next.moved count }

variable (options : Options) (state : State) (count : Nat)

theorem takeToken_moved (token : Token) :
    (state.moved count).takeToken options token =
      (state.takeToken options token).moved count := by
  cases token with
  | statementEnd =>
      simp only [State.takeToken, State.collect_moved, State.clear_moved,
        apply_ite (Step.moved · count)]
      rfl
  | directive d =>
      simp only [State.takeToken, State.clear_moved, State.setDelimiter_moved,
        State.directiveRecord_moved]
      rfl
  | _ =>
      simp only [State.takeToken, State.collect_moved]
      rfl

/-- A step does the same wherever in a script it is taken. -/
theorem take_moved (event : Event) :
    (state.moved count).take options event = (state.take options event).moved count := by
  cases event with
  | token token => exact takeToken_moved options state count token
  | _ =>
      simp only [State.take, State.clear_moved, State.setDelimiter_moved,
        State.directiveRecord_moved]
      rfl

/-- A run does the same wherever in a script it begins; only the positions that
it reports move along. -/
theorem run_moved (t : Text) :
    (run options (state.moved count) t).statements = (run options state t).statements ∧
      (run options (state.moved count) t).log =
        (run options state t).log.map (Record.moved count) := by
  induction state, t using run_induction options with
  | done state =>
      simp only [statements_run_nil, log_run_nil]
      exact ⟨rfl, rfl⟩
  | step state c t ih =>
      have hfirst : firstStep options (state.moved count) c t =
          (firstStep options state c t).moved count := take_moved options state count _
      simp only [statements_run_cons, log_run_cons, hfirst, List.map_append]
      obtain ⟨hstatements, hlog⟩ := ih
      exact ⟨congrArg _ hstatements, congrArg _ hlog⟩

/-- The last event of a run was a semicolon that ended a statement. -/
def Run.EndsStatement (run : Run) : Prop :=
  ∃ last ∈ run.steps.getLast?, last.event = .token .statementEnd ∧ last.statements ≠ []

instance (run : Run) : Decidable run.EndsStatement :=
  inferInstanceAs (Decidable (∃ last ∈ run.steps.getLast?, _))

variable {options state} {c : Char} {t : Text}

/-- What has been counted and what is left are the text together. -/
theorem position_firstStep :
    (firstStep options state c t).next.position + (Event.read state.delimiter c t).rest.length =
      state.position + (c :: t).length := by
  have hsplit := congrArg List.length (Event.read_partitions state.delimiter c t)
  rw [List.length_append] at hsplit
  rw [firstStep, position_take, ← hsplit, Nat.add_assoc]

theorem Run.EndsStatement.ne_nil (h : (run options state t).EndsStatement) : t ≠ [] := by
  rintro rfl
  obtain ⟨last, hlast, -⟩ := h
  rw [steps_run_nil] at hlast
  exact absurd hlast (by simp)

/-- The semicolon that ends a run is its first event, and then there is nothing
else, or it is the last event of the run behind the first one. -/
theorem Run.EndsStatement.cases (h : (run options state (c :: t)).EndsStatement) :
    ((Event.read state.delimiter c t).rest = [] ∧
        (firstStep options state c t).event = .token .statementEnd ∧
        (firstStep options state c t).statements ≠ []) ∨
      (run options (firstStep options state c t).next
        (Event.read state.delimiter c t).rest).EndsStatement := by
  obtain ⟨last, hlast, hends⟩ := h
  rw [steps_run_cons, Option.mem_def, List.getLast?_cons, Option.some_inj] at hlast
  cases hrest : (Event.read state.delimiter c t).rest with
  | nil =>
      rw [hrest, steps_run_nil, List.getLast?_nil, Option.getD_none] at hlast
      rw [hlast]
      exact .inl ⟨rfl, hends⟩
  | cons d rest =>
      rw [hrest, steps_run_cons, List.getLast?_cons, Option.getD_some] at hlast
      refine .inr ⟨last, ?_, hends⟩
      rw [steps_run_cons, Option.mem_def, List.getLast?_cons, hlast]

/-- A semicolon is only met as a token under the semicolon, and nothing behind
it has a say. -/
theorem read_of_statementEnd {mark : Text}
    (h : (Event.read mark c t).value = .token .statementEnd) :
    mark = Event.semicolon ∧ Event.read mark c t = .settled (.token .statementEnd) t := by
  have hpossible := Event.possible_read mark c t
  have hsplit := Event.read_partitions mark c t
  rw [h] at hpossible
  rw [Reading.Partitions, h] at hsplit
  cases hpossible with
  | token hmark hdirective =>
      obtain ⟨rfl, -⟩ : ';' = c ∧ _ = t := by simpa [Event.lexeme] using hsplit
      refine ⟨hmark, ?_⟩
      rw [hmark, Event.read, if_pos rfl]
      rfl

/-- A semicolon that ends a statement leaves a splitter as it was at the start of
a script. -/
theorem take_statementEnd (hmark : state.delimiter = Event.semicolon)
    (hgiven : (state.take options (.token .statementEnd)).statements ≠ []) :
    (state.take options (.token .statementEnd)).next =
      ({} : State).moved (state.position + 1) := by
  have hdepth : state.depth = 0 := by
    by_contra hblock
    simp [State.take, State.takeToken, hblock] at hgiven
  simp [State.take, State.takeToken, State.clear, State.moved, hdepth, hmark]

/-- Where a splitter is again as it was at the start of a script, it splits the
rest as a script of its own. -/
theorem Advances.split_eq {statements : List Text} {log : List Record} {count : Nat} {left : Text}
    (h : Advances options {} t statements log (({} : State).moved count) left) :
    split options t =
      ⟨statements ++ (split options left).statements,
        log ++ (split options left).log.map (Record.moved count)⟩ := by
  obtain ⟨hstatements, hlog⟩ := run_moved options {} count left
  rw [split, h.statements_run, h.log_run, hstatements, hlog]
  rfl

/-- A run that ends with a statement is settled throughout. -/
theorem Run.EndsStatement.advances (h : (run options state t).EndsStatement) :
    ∃ statements log, Advances options state t statements log
      (({} : State).moved (state.position + t.length)) [] := by
  induction state, t using run_induction options with
  | done state => exact absurd rfl h.ne_nil
  | step state c t ih =>
      rcases h.cases with ⟨hrest, hevent, hgiven⟩ | hothers
      · rw [firstStep, event_take] at hevent
        obtain ⟨hmark, hread⟩ := read_of_statementEnd hevent
        rw [hread, Reading.rest_settled] at hrest
        subst hrest
        rw [firstStep, hevent] at hgiven
        have hadvances := Advances.single options hread
        rw [take_statementEnd hmark hgiven] at hadvances
        exact ⟨_, _, hadvances⟩
      · obtain ⟨statements, log, hadvances⟩ := ih hothers
        rw [position_firstStep] at hadvances
        have hrest := hothers.ne_nil
        cases hread : Event.read state.delimiter c t with
        | cutShort event =>
            rw [hread] at hrest
            exact absurd rfl hrest
        | settled event rest =>
            rw [firstStep, hread] at hadvances
            exact ⟨_, _, .step hread hadvances⟩

end Splitter

/-- Where a script ends with a statement, splitting it and what follows is the
same as splitting both on their own.  The positions reported for the second part
are those behind the first. -/
theorem split_append_of_endsStatement (options : Options) {t : Text}
    (h : (Splitter.run options {} t).EndsStatement) (more : Text) :
    split options (t ++ more) =
        ⟨(split options t).statements ++ (split options more).statements,
          (split options t).log ++ (split options more).log.map (Record.moved t.length)⟩ ∧
      splitSource options (.ofText (t ++ more)) =
        ⟨.ok ((split options t).statements ++ (split options more).statements),
          (split options t).log ++ (split options more).log.map (Record.moved t.length)⟩ := by
  obtain ⟨statements, log, hadvances⟩ := h.advances
  rw [show ({} : Splitter.State).position = 0 from rfl, Nat.zero_add] at hadvances
  have hwhole := (hadvances.append more).split_eq
  have hfront : split options t = ⟨statements, log⟩ := by
    rw [hadvances.split_eq, split_nil, List.map_nil, List.append_nil, List.append_nil]
  rw [List.nil_append] at hwhole
  rw [splitSource_ofText, hwhole, hfront]
  exact ⟨rfl, rfl⟩

/-- A script that changes the delimiter there and back, and a directive behind it
that names none. -/
theorem split_append_behind_custom_delimiter :
    (Splitter.run {} {} "DELIMITER //\na;//DELIMITER ;b;".toList).EndsStatement ∧
      split {} ("DELIMITER //\na;//DELIMITER ;b;".toList ++ "c DELIMITER \nd".toList) =
        ⟨["a;".toList, "b;".toList, "c ".toList, "d".toList],
          [.delimiterChanged ";".toList "//".toList, .delimiterChanged "//".toList ";".toList,
            .delimiterMissing 43 ";".toList]⟩ := by
  have hends : (Splitter.run {} {} "DELIMITER //\na;//DELIMITER ;b;".toList).EndsStatement := by
    decide +kernel
  obtain ⟨hsplit, -⟩ := split_append_of_endsStatement {} hends "c DELIMITER \nd".toList
  refine ⟨hends, ?_⟩
  rw [hsplit]
  decide +kernel

end SqlScript

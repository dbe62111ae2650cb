/-
Runs one step at a time.  A run over a nonempty text is the step of its first
event and the run over what that event leaves, whether or not the text breaks
the event off, so what holds of a run is proved by induction on its steps.
Most tokens are just collected; what else a step does is said case by case.
-/
import SqlScript.Proofs.Event.Naming
import SqlScript.Splitter.Run

namespace SqlScript

/-- How many blocks are open behind a token when `depth` are open in front of
it.  A token that would close a block where none is open changes nothing. -/
def Token.depthAfter (depth : Nat) : Token → Nat
  | .blockOpen _ => depth + 1
  | .blockClose _ => depth - 1
  | _ => depth

namespace Splitter

@[simp] theorem State.position_setDelimiter (state : State) (argument : Text) :
    (state.setDelimiter argument).position = state.position := by
  unfold State.setDelimiter
  split <;> rfl

@[simp] theorem State.depth_setDelimiter (state : State) (argument : Text) :
    (state.setDelimiter argument).depth = state.depth := by
  unfold State.setDelimiter
  split <;> rfl

/-- A step that only adds a token to the buffer. -/
structure Collects (state : State) (token : Token) (step : Step) : Prop where
  statements : step.statements = []
  log : step.log = []
  buffer : step.next.buffer = state.buffer ++ token.lexeme
  delimiter : step.next.delimiter = state.delimiter
  depth : step.next.depth = token.depthAfter state.depth

/-- Every token is collected, except a semicolon outside all blocks and a
directive. -/
theorem takeToken_collects (options : Options) {state : State} {token : Token}
    (hend : ¬ (token = .statementEnd ∧ state.depth = 0))
    (hdirective : ∀ d, token ≠ .directive d) :
    Collects state token (state.takeToken options token) := by
  cases token with
  | text lexeme =>
      exact ⟨rfl, rfl, State.buffer_collect state lexeme, State.delimiter_collect state lexeme,
        State.depth_collect state lexeme⟩
  | blockOpen word =>
      exact ⟨rfl, rfl, State.buffer_collect state word, State.delimiter_collect state word, rfl⟩
  | blockClose word =>
      exact ⟨rfl, rfl, State.buffer_collect state word, State.delimiter_collect state word, rfl⟩
  | statementEnd =>
      have hdepth : state.depth ≠ 0 := fun hzero => hend ⟨rfl, hzero⟩
      rw [State.takeToken, if_neg hdepth]
      exact ⟨rfl, rfl, State.buffer_collect state [';'], State.delimiter_collect state [';'],
        State.depth_collect state [';']⟩
  | directive d => exact absurd rfl (hdirective d)

/-- Only a directive changes the delimiter. -/
theorem delimiter_takeToken (options : Options) (state : State) {token : Token}
    (hdirective : ∀ d, token ≠ .directive d) :
    (state.takeToken options token).next.delimiter = state.delimiter := by
  by_cases hend : token = .statementEnd ∧ state.depth = 0
  · obtain ⟨rfl, hdepth⟩ := hend
    rw [State.takeToken, if_pos hdepth]
    exact State.delimiter_clear state _
  · exact (takeToken_collects options hend hdirective).delimiter

/-- The step of the first event of a nonempty text. -/
def firstStep (options : Options) (state : State) (c : Char) (t : Text) : Step :=
  state.take options (Event.read state.delimiter c t).value

/-- Under the semicolon the first event is the first token. -/
theorem read_of_semicolon {state : State} (h : state.delimiter = Event.semicolon) (c : Char)
    (t : Text) : Event.read state.delimiter c t = (Token.read c t).map .token := by
  rw [h, Event.read, if_pos rfl]

theorem firstStep_of_semicolon {options : Options} {state : State}
    (h : state.delimiter = Event.semicolon) (c : Char) (t : Text) :
    firstStep options state c t = state.takeToken options (Token.read c t).value := by
  rw [firstStep, read_of_semicolon h, Reading.value_map]
  rfl

@[simp] theorem event_take (options : Options) (state : State) (event : Event) :
    (state.take options event).event = event := by
  cases event with
  | token token =>
      cases token with
      | statementEnd =>
          rw [State.take, State.takeToken]
          split <;> rfl
      | _ => rfl
  | _ => rfl

/-- A step counts the characters of its event. -/
theorem position_take (options : Options) (state : State) (event : Event) :
    (state.take options event).next.position = state.position + event.lexeme.length := by
  cases event with
  | token token =>
      cases token with
      | statementEnd =>
          rw [State.take, State.takeToken]
          split <;> rfl
      | directive d => exact State.position_setDelimiter _ _
      | _ => rfl
  | directive preceding d => exact State.position_setDelimiter _ _
  | _ => rfl

/-- Only a directive that names a delimiter changes the active one. -/
theorem delimiter_take (options : Options) (state : State) (event : Event) :
    (state.take options event).next.delimiter =
      event.directive?.elim state.delimiter fun d =>
        if d.delimiter = [] then state.delimiter else d.delimiter := by
  cases event with
  | token token =>
      cases token with
      | directive d => exact State.delimiter_setDelimiter _ _
      | _ => exact delimiter_takeToken options state fun d => by simp
  | directive preceding d => exact State.delimiter_setDelimiter _ _
  | _ => rfl

theorem possibleDelimiter_take (options : Options) {state : State} {event : Event} {rest : Text}
    (h : PossibleDelimiter state.delimiter)
    (hpossible : Event.Possible state.delimiter event rest) :
    PossibleDelimiter (state.take options event).next.delimiter := by
  rw [delimiter_take]
  cases hd : event.directive? with
  | none => exact h
  | some d =>
      rw [Option.elim_some]
      split
      · exact h
      · rename_i hne
        exact (hpossible.isBefore_of_directive? hd).possibleDelimiter hne

/-- What holds of every state with nothing to read, and of a state in front of
an event when it holds of the next state behind that event, holds of every
state in front of every text. -/
theorem run_induction {motive : State → Text → Prop} (options : Options)
    (done : ∀ state, motive state [])
    (step : ∀ state c t,
      motive (firstStep options state c t).next (Event.read state.delimiter c t).rest →
        motive state (c :: t))
    (state : State) (t : Text) : motive state t := by
  have hlength : ∀ n : Nat, ∀ state : State, ∀ t : Text, t.length < n → motive state t := by
    intro n
    induction n with
    | zero =>
        intro state t ht
        exact absurd ht (Nat.not_lt_zero t.length)
    | succ n ih =>
        intro state t ht
        cases t with
        | nil => exact done state
        | cons c t =>
            apply step
            apply ih
            exact Nat.lt_of_lt_of_le (Event.rest_read_length_lt state.delimiter c t)
              (Nat.le_of_lt_succ ht)
  exact hlength (t.length + 1) state t (Nat.lt_succ_self t.length)

theorem statements_run_nil (options : Options) (state : State) :
    (run options state []).statements = state.leftover := by
  rw [run_nil]
  rfl

theorem log_run_nil (options : Options) (state : State) : (run options state []).log = [] := by
  rw [run_nil]
  rfl

theorem steps_run_nil (options : Options) (state : State) : (run options state []).steps = [] := by
  rw [run_nil]
  rfl

theorem statements_run_cons (options : Options) (state : State) (c : Char) (t : Text) :
    (run options state (c :: t)).statements =
      (firstStep options state c t).statements ++
        (run options (firstStep options state c t).next
          (Event.read state.delimiter c t).rest).statements := by
  rw [firstStep]
  cases hread : Event.read state.delimiter c t with
  | settled event rest =>
      rw [run_cons_settled hread]
      rfl
  | cutShort event =>
      rw [run_cons_cutShort hread, Reading.rest_cutShort, statements_run_nil]
      rfl

theorem log_run_cons (options : Options) (state : State) (c : Char) (t : Text) :
    (run options state (c :: t)).log =
      (firstStep options state c t).log ++
        (run options (firstStep options state c t).next
          (Event.read state.delimiter c t).rest).log := by
  rw [firstStep]
  cases hread : Event.read state.delimiter c t with
  | settled event rest =>
      rw [run_cons_settled hread]
      rfl
  | cutShort event =>
      rw [run_cons_cutShort hread, Reading.rest_cutShort, log_run_nil, List.append_nil]
      rfl

theorem steps_run_cons (options : Options) (state : State) (c : Char) (t : Text) :
    (run options state (c :: t)).steps =
      firstStep options state c t ::
        (run options (firstStep options state c t).next
          (Event.read state.delimiter c t).rest).steps := by
  rw [firstStep]
  cases hread : Event.read state.delimiter c t with
  | settled event rest =>
      rw [run_cons_settled hread]
      rfl
  | cutShort event =>
      rw [run_cons_cutShort hread, Reading.rest_cutShort, steps_run_nil]
      rfl

end Splitter

@[simp] theorem split_nil (options : Options) : split options [] = ⟨[], []⟩ := by
  rw [split, Splitter.run_nil]
  rfl

end SqlScript

/-
What a splitter has settled stays settled.  Settled steps are taken again when
the text goes on, so they give out the same statements and records whatever
comes.  Only one event of a text can be left open, and what an open event gives
out together with the buffer is at most one statement.
-/
import SqlScript.Proofs.Event.Locality
import SqlScript.Proofs.Source.RoundTrip
import SqlScript.Proofs.Splitter.Steps

namespace SqlScript

namespace Splitter

/-- Settled steps lead from a state in front of a text to another state in front
of the rest of it, and give out statements and records on the way. -/
inductive Advances (options : Options) :
    State → Text → List Text → List Record → State → Text → Prop where
  | refl (state : State) (t : Text) : Advances options state t [] [] state t
  | step {state last : State} {c : Char} {t rest left : Text} {event : Event}
      {statements : List Text} {log : List Record}
      (hread : Event.read state.delimiter c t = .settled event rest)
      (hothers : Advances options (state.take options event).next rest statements log last left) :
      Advances options state (c :: t) ((state.take options event).statements ++ statements)
        ((state.take options event).log ++ log) last left

namespace Advances

variable {options : Options} {state middle last : State} {t between left : Text}
  {statements others : List Text} {log more : List Record}

/-- One settled step on its own. -/
theorem single (options : Options) {c : Char} {rest : Text} {event : Event}
    (hread : Event.read state.delimiter c t = .settled event rest) :
    Advances options state (c :: t) (state.take options event).statements
      (state.take options event).log (state.take options event).next rest := by
  have hstep := Advances.step hread (.refl (state.take options event).next rest)
  rwa [List.append_nil, List.append_nil] at hstep

theorem trans (first : Advances options state t statements log middle between)
    (second : Advances options middle between others more last left) :
    Advances options state t (statements ++ others) (log ++ more) last left := by
  induction first with
  | refl state t => exact second
  | step hread hothers ih =>
      rw [List.append_assoc, List.append_assoc]
      exact .step hread (ih second)

/-- The same steps are taken when the text goes on. -/
theorem append (h : Advances options state t statements log last left) (more : Text) :
    Advances options state (t ++ more) statements log last (left ++ more) := by
  induction h with
  | refl state t => exact .refl state (t ++ more)
  | step hread hothers ih => exact .step (Event.read_append hread more) ih

/-- A run begins with what its settled steps give out. -/
theorem statements_run (h : Advances options state t statements log last left) :
    (run options state t).statements = statements ++ (run options last left).statements := by
  induction h with
  | refl state t => rfl
  | step hread hothers ih =>
      rw [run_cons_settled hread, Run.statements, ih, List.append_assoc]

theorem log_run (h : Advances options state t statements log last left) :
    (run options state t).log = log ++ (run options last left).log := by
  induction h with
  | refl state t => rfl
  | step hread hothers ih =>
      rw [run_cons_settled hread, Run.log, ih, List.append_assoc]

end Advances

theorem length_unlessBlank_le (t : Text) : (unlessBlank t).length ≤ 1 := by
  rw [unlessBlank]
  split <;> simp

theorem length_unlessEmpty_le (t : Text) : (unlessEmpty t).length ≤ 1 := by
  rw [unlessEmpty]
  split <;> simp

theorem leftover_setDelimiter_clear (state : State) (count : Nat) (argument : Text) :
    ((state.clear count).setDelimiter argument).leftover = [] := by
  rw [State.leftover, State.buffer_setDelimiter, State.buffer_clear]
  rfl

/-- What a step gives out and what it leaves in the buffer are at most one
statement together. -/
theorem length_statements_takeToken (options : Options) (state : State) (token : Token) :
    ((state.takeToken options token).statements ++
      (state.takeToken options token).next.leftover).length ≤ 1 := by
  by_cases hend : token = .statementEnd ∧ state.depth = 0
  · obtain ⟨rfl, hdepth⟩ := hend
    rw [State.takeToken, if_pos hdepth]
    exact Nat.le_refl 1
  by_cases hdirective : ∃ d, token = .directive d
  · obtain ⟨d, rfl⟩ := hdirective
    rw [State.takeToken, leftover_setDelimiter_clear, List.append_nil]
    split
    · exact length_unlessBlank_le state.buffer
    · exact Nat.zero_le 1
  · have hstep := takeToken_collects options hend fun d hd => hdirective ⟨d, hd⟩
    rw [hstep.statements, List.nil_append]
    exact length_unlessEmpty_le _

theorem length_statements_take (options : Options) (state : State) (event : Event) :
    ((state.take options event).statements ++
      (state.take options event).next.leftover).length ≤ 1 := by
  cases event with
  | token token => exact length_statements_takeToken options state token
  | statement text mark =>
      have hempty : (state.take options (.statement text mark)).next.leftover = [] := rfl
      rw [hempty, List.append_nil]
      exact length_unlessBlank_le text
  | directive preceding d =>
      rw [State.take, leftover_setDelimiter_clear, List.append_nil]
      exact length_unlessBlank_le preceding
  | remainder text keyword => exact length_unlessEmpty_le _

/-- A splitter advances until the text is used up or the next event is cut
short.  From there on it gives out at most one statement. -/
theorem exists_advances (options : Options) (state : State) (t : Text) :
    ∃ statements log last left, Advances options state t statements log last left ∧
      (run options last left).statements.length ≤ 1 := by
  induction state, t using run_induction options with
  | done state =>
      refine ⟨[], [], state, [], .refl state [], ?_⟩
      rw [statements_run_nil]
      exact length_unlessEmpty_le state.buffer
  | step state c t ih =>
      cases hread : Event.read state.delimiter c t with
      | settled event rest =>
          rw [firstStep, hread] at ih
          obtain ⟨statements, log, last, left, hadvances, hlast⟩ := ih
          exact ⟨_, _, last, left, .step hread hadvances, hlast⟩
      | cutShort event =>
          refine ⟨[], [], state, c :: t, .refl state (c :: t), ?_⟩
          rw [run_cons_cutShort hread]
          exact length_statements_take options state event

theorem dropLast_append_isPrefix {α : Type} (front : List α) {last : List α}
    (h : last.length ≤ 1) : (front ++ last).dropLast <+: front := by
  match last, h with
  | [], _ =>
      rw [List.append_nil]
      exact List.dropLast_prefix front
  | [a], _ =>
      rw [List.dropLast_concat]

end Splitter

/-- When a script goes on, it keeps all its statements but the last, whether the
text or its bytes are split. -/
theorem split_append_keeps (options : Options) (t more : Text) :
    (split options t).statements.dropLast <+: (split options (t ++ more)).statements ∧
      ∃ earlier later, (splitSource options (.ofText t)).answer = .ok earlier ∧
        (splitSource options (.ofText (t ++ more))).answer = .ok later ∧
        earlier.dropLast <+: later := by
  obtain ⟨statements, log, last, left, hadvances, hlast⟩ := Splitter.exists_advances options {} t
  have hfront : (split options t).statements =
      statements ++ (Splitter.run options last left).statements := hadvances.statements_run
  have hwhole : (split options (t ++ more)).statements =
      statements ++ (Splitter.run options last (left ++ more)).statements :=
    (hadvances.append more).statements_run
  have hkept : (split options t).statements.dropLast <+:
      (split options (t ++ more)).statements := by
    rw [hfront, hwhole]
    have hdropped := Splitter.dropLast_append_isPrefix statements hlast
    exact hdropped.trans (List.prefix_append statements _)
  refine ⟨hkept, _, _, ?_, ?_, hkept⟩
  · rw [splitSource_ofText]
  · rw [splitSource_ofText]

end SqlScript

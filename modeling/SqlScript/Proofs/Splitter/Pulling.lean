/-
A splitter that pulls its script from a cursor, character by character.  It
takes events until none is left, gives out their records as they come, and stops
at the first error, wherever inside an event that is met.  It comes to what the
run over the text ahead tells: everything at the end of input, and the records
of the settled steps in front of an error.
-/
import SqlScript.Proofs.Cursor.Pulling
import SqlScript.Proofs.Splitter.Conservation

namespace SqlScript

namespace Stop

variable (stop : Stop)

/-- A raw scan is done character by character as over a text. -/
theorem pullScan_behind (mark seen t : Text) (position : Nat) :
    Pulls stop (position + t.length) ((stop.behind t position).pullScan mark seen)
      (Event.scanBehind mark seen t) := by
  induction t generalizing seen position with
  | nil =>
      have hend : (stop.behind [] position).pullScan mark seen =
          Pulled.map (fun _ => .remainder seen.reverse []) (stop.answer position) := by
        rw [Cursor.pullScan_eq, next_behind_nil, answer]
        cases stop.error? <;> rfl
      rw [hend]
      exact .atEnd _ stop position
  | cons c t ih =>
      have hmore := ih (c :: seen) (position + 1)
      rw [Cursor.pullScan_eq, next_behind_cons, position_add_length_cons, Event.scanBehind,
        Event.stopAfter?]
      simp only
      by_cases hmark : mark.reverse.isPrefixOf (c :: seen) = true
      · rw [if_pos hmark, if_pos hmark]
        exact .settled _ rfl
      rw [if_neg hmark, if_neg hmark]
      rcases Event.keywordAtEnd? (c :: seen) with - | ⟨before, word⟩
      · exact hmore
      simp only
      cases t with
      | nil =>
          rw [next_behind_nil, answer]
          cases hstop : stop.error? with
          | none => exact .ended _ hstop
          | some e => exact .failed _ hstop
      | cons d t =>
          rw [next_behind_cons]
          simp only
          by_cases hend : d = ';'
          · subst hend
            rw [if_pos rfl, if_pos (.inl rfl), position_add_length_cons]
            exact .settled _ rfl
          rw [if_neg hend]
          by_cases hblank : Text.isBlank d = true
          · rw [if_pos hblank, if_pos (.inr hblank), position_add_length_cons]
            exact (stop.pullDirective_behind_lead word d t (position + 1 + 1)).map
              (Event.directive before.reverse)
          · rw [if_neg hblank, if_neg (by simp [hend, hblank])]
            exact hmore

theorem pullEvent_behind_cons (mark : Text) (c : Char) (t : Text) (position : Nat) :
    Pulls stop (position + (c :: t).length) ((stop.behind (c :: t) position).pullEvent mark)
      ((Event.read mark c t).map some) := by
  rw [Cursor.pullEvent, Event.read]
  split
  · have hread := (stop.pullToken_behind_cons c t position).map (Option.map Event.token)
    rw [Reading.map_map] at hread ⊢
    exact hread
  · exact (stop.pullScan_behind mark [] (c :: t) position).map some

/-- At the end of the text, tokens are used up, and a raw scan finds nothing. -/
theorem pullEvent_behind_nil (mark : Text) (position : Nat) :
    (stop.behind [] position).pullEvent mark =
      Pulled.map
        (fun _ => if mark = Event.semicolon then none else some (.remainder [] []))
        (stop.answer position) := by
  rw [Cursor.pullEvent]
  split
  · rw [Cursor.pullToken, next_behind_nil, answer]
    cases stop.error? <;> rfl
  · rw [Cursor.pullScan_eq, next_behind_nil, answer]
    cases stop.error? <;> rfl

/-- An event that is found at the end of the text is an empty remainder. -/
theorem eq_of_pullEvent_behind_nil {mark : Text} {position : Nat} {event : Event}
    {behind : Cursor} (h : (stop.behind [] position).pullEvent mark = (.ok (some event), behind)) :
    event = .remainder [] [] ∧ behind = stop.behind [] position := by
  rw [pullEvent_behind_nil, answer] at h
  cases hstop : stop.error? with
  | none =>
      rw [hstop] at h
      obtain ⟨hfound, rfl⟩ := Prod.mk.inj h
      have hevent := Except.ok.inj hfound
      split at hevent
      · exact absurd hevent (by simp)
      · exact ⟨(Option.some.inj hevent).symm, rfl⟩
  | some e =>
      rw [hstop] at h
      exact absurd (Prod.mk.inj h).1 (by simp [Except.map])

end Stop

/-- Whether an event is what is left at the end of a script. -/
def Event.isRemainder : Event → Bool
  | .remainder _ _ => true
  | _ => false

theorem Event.lexeme_read_ne_nil (mark : Text) (c : Char) (t : Text) :
    (Event.read mark c t).value.lexeme ≠ [] := by
  intro hnil
  have hsplit : (Event.read mark c t).value.lexeme ++ (Event.read mark c t).rest = c :: t :=
    Event.read_partitions mark c t
  have hrest := Event.rest_read_length_lt mark c t
  rw [hnil, List.nil_append] at hsplit
  rw [hsplit] at hrest
  exact Nat.lt_irrefl _ hrest

/-- Nothing comes behind the remainder of a script. -/
theorem Event.Possible.rest_eq_nil {mark rest : Text} {event : Event}
    (h : Event.Possible mark event rest) (hevent : event.isRemainder = true) : rest = [] := by
  cases h with
  | remainder => rfl
  | _ => exact absurd hevent Bool.false_ne_true

/-- An event is taken off the front of the text ahead.  Every event but the last
takes something, and the last leaves nothing. -/
theorem Cursor.exists_behind_of_pullEvent {mark : Text} {cursor behind : Cursor} {event : Event}
    (h : cursor.pullEvent mark = (.ok (some event), behind)) :
    ∃ (stop : Stop) (rest : Text),
      cursor = stop.behind (event.lexeme ++ rest) cursor.position ∧
        behind = stop.behind rest (cursor.position + event.lexeme.length) ∧
          (event.isRemainder = true → rest = []) ∧
            (¬ event.isRemainder = true → event.lexeme ≠ []) := by
  obtain ⟨stop, t, hcursor⟩ := cursor.exists_eq_behind
  rw [hcursor] at h
  cases t with
  | nil =>
      obtain ⟨rfl, rfl⟩ := stop.eq_of_pullEvent_behind_nil h
      exact ⟨stop, [], hcursor, rfl, fun _ => rfl, fun hevent => absurd rfl hevent⟩
  | cons c t =>
      have hpulls := stop.pullEvent_behind_cons mark c t cursor.position
      have hsplit := Event.read_partitions mark c t
      have hpulled : ((Event.read mark c t).map some).Partitions
          (fun found => found.elim [] Event.lexeme) (c :: t) := hsplit.map [] fun _ => rfl
      rw [h] at hpulls
      obtain ⟨hvalue, hbehind⟩ := hpulls.eq_of_ok hpulled
      rw [Reading.value_map] at hvalue
      rw [Reading.rest_map] at hbehind
      obtain rfl := Option.some.inj hvalue
      have hwhole : (Event.read mark c t).value.lexeme ++ (Event.read mark c t).rest = c :: t :=
        hsplit
      rw [← hwhole] at hcursor
      exact ⟨stop, _, hcursor, hbehind, (Event.possible_read mark c t).rest_eq_nil,
        fun _ => Event.lexeme_read_ne_nil mark c t⟩

theorem Cursor.ahead_pullEvent_length_lt {mark : Text} {cursor behind : Cursor} {event : Event}
    (h : cursor.pullEvent mark = (.ok (some event), behind))
    (hevent : ¬ event.isRemainder = true) : behind.ahead.length < cursor.ahead.length := by
  obtain ⟨stop, rest, hcursor, rfl, -, hlexeme⟩ := exists_behind_of_pullEvent h
  have hpos := List.length_pos_iff.mpr (hlexeme hevent)
  rw [hcursor]
  simp only [Stop.behind, List.length_append, List.length_map]
  omega

namespace Splitter

/-- Put what a step gave out in front of what comes behind it. -/
def Step.before (step : Step) (result : Logged (List Text)) : Logged (List Text) :=
  ⟨result.answer.map (step.statements ++ ·), step.log ++ result.log⟩

/-- Split what a cursor gives, going on from `state`. -/
def pullSplit (options : Options) (state : State) (cursor : Cursor) : Logged (List Text) :=
  match _h : cursor.pullEvent state.delimiter with
  | (.error e, _) => ⟨.error e, []⟩
  | (.ok none, _) => ⟨.ok state.leftover, []⟩
  | (.ok (some event), behind) =>
      let step := { state with position := cursor.position }.take options event
      if _hend : event.isRemainder = true then step.before ⟨.ok step.next.leftover, []⟩
      else step.before (pullSplit options step.next behind)
termination_by cursor.ahead.length
decreasing_by exact Cursor.ahead_pullEvent_length_lt _h _hend

theorem pullSplit_eq (options : Options) (state : State) (cursor : Cursor) :
    pullSplit options state cursor =
      match cursor.pullEvent state.delimiter with
      | (.error e, _) => ⟨.error e, []⟩
      | (.ok none, _) => ⟨.ok state.leftover, []⟩
      | (.ok (some event), behind) =>
          let step := { state with position := cursor.position }.take options event
          if event.isRemainder = true then step.before ⟨.ok step.next.leftover, []⟩
          else step.before (pullSplit options step.next behind) := by
  rw [pullSplit]
  split <;> simp only [*]
  rfl

/-- What a run gives when `obstacle?` stands behind its text. -/
def Run.outcome (run : Run) (obstacle? : Option ReadError) : Logged (List Text) :=
  match obstacle? with
  | none => ⟨.ok run.statements, run.log⟩
  | some e => ⟨.error e, run.settledLog⟩

theorem Run.outcome_step (first : Step) (others : Run) (obstacle? : Option ReadError) :
    (Run.step first others).outcome obstacle? = first.before (others.outcome obstacle?) := by
  cases obstacle? <;> rfl

theorem Run.outcome_cut_none (last : Step) :
    (Run.cut last).outcome none = last.before ⟨.ok last.next.leftover, []⟩ := by
  rw [Step.before, List.append_nil]
  rfl

theorem not_isRemainder_of_scanBehind {mark seen t rest : Text} {event : Event}
    (h : Event.scanBehind mark seen t = .settled event rest) : ¬ event.isRemainder = true := by
  induction t generalizing seen with
  | nil => exact absurd h (by simp [Event.scanBehind])
  | cons c t ih =>
      rw [Event.scanBehind] at h
      split at h
      · rename_i reading hstop
        subst h
        rw [Event.stopAfter?] at hstop
        split at hstop
        · obtain ⟨rfl, -⟩ := Reading.settled.inj (Option.some.inj hstop)
          exact Bool.false_ne_true
        split at hstop
        · exact absurd hstop (by simp)
        split at hstop
        · exact absurd (Option.some.inj hstop) (by simp)
        split at hstop
        · obtain ⟨directive, -, rfl⟩ := Reading.map_eq_settled (Option.some.inj hstop)
          exact Bool.false_ne_true
        · exact absurd hstop (by simp)
      · exact ih h

/-- A settled event is not the last. -/
theorem not_isRemainder_of_settled {mark t rest : Text} {c : Char} {event : Event}
    (h : Event.read mark c t = .settled event rest) : ¬ event.isRemainder = true := by
  rw [Event.read] at h
  split at h
  · obtain ⟨token, -, rfl⟩ := Reading.map_eq_settled h
    exact Bool.false_ne_true
  · exact not_isRemainder_of_scanBehind h

/-- Only what is left at the end of a script stays in the buffer of a raw scan. -/
theorem bufferFree_take (options : Options) {state : State} {event : Event} {rest : Text}
    (hpossible : Event.Possible state.delimiter event rest)
    (hevent : ¬ event.isRemainder = true) : BufferFree (state.take options event).next := by
  intro hcustom
  cases hpossible with
  | @token token _ hmark hdirective =>
      by_cases hdirectives : ∃ d, token = .directive d
      · obtain ⟨d, rfl⟩ := hdirectives
        exact State.buffer_setDelimiter _ _
      · have hsame := delimiter_takeToken options state fun d hd => hdirectives ⟨d, hd⟩
        exact absurd (hsame.trans hmark) hcustom
  | statement hmark => rfl
  | directive hmark hdirective => exact State.buffer_setDelimiter _ _
  | remainder hmark hkeyword => exact absurd rfl hevent

theorem pullSplit_behind_nil (options : Options) (stop : Stop) {state : State}
    (hfree : BufferFree state) (position : Nat) :
    pullSplit options state (stop.behind [] position) =
      (run options state []).outcome stop.error? := by
  rw [pullSplit_eq, stop.pullEvent_behind_nil, Stop.answer, run_nil]
  cases hstop : stop.error? with
  | none =>
      by_cases hmark : state.delimiter = Event.semicolon
      · rw [if_pos hmark]
        rfl
      · have hleftover : state.leftover = [] := by
          rw [State.leftover, hfree hmark]
          rfl
        rw [if_neg hmark, Run.outcome, Run.statements, hleftover]
        rfl
  | some e => rfl

/-- Pulling a script comes to the run over the text ahead of the cursor. -/
theorem pullSplit_behind (options : Options) (stop : Stop) (state : State) (t : Text)
    (hfree : BufferFree state) :
    pullSplit options state (stop.behind t state.position) =
      (run options state t).outcome stop.error? := by
  induction state, t using run_induction options with
  | done state => exact pullSplit_behind_nil options stop hfree state.position
  | step state c t ih =>
      have hpulls := stop.pullEvent_behind_cons state.delimiter c t state.position
      have hsplit := Event.read_partitions state.delimiter c t
      have hpossible := Event.possible_read state.delimiter c t
      have hposition : (stop.behind (c :: t) state.position).position = state.position := rfl
      rw [pullSplit_eq, hposition]
      generalize (stop.behind (c :: t) state.position).pullEvent state.delimiter = pulled at hpulls ⊢
      rw [firstStep] at ih
      cases hread : Event.read state.delimiter c t with
      | settled event rest =>
          rw [hread] at hpulls hsplit hpossible ih
          have hevent := not_isRemainder_of_settled hread
          rw [run_cons_settled hread, Run.outcome_step]
          cases hpulls with
          | @settled _ _ position htotal =>
              have hnext := ih (bufferFree_take options hpossible hevent)
              have hwhole : event.lexeme ++ rest = c :: t := hsplit
              rw [← hwhole, List.length_append, ← Nat.add_assoc] at htotal
              rw [Reading.value_settled, position_take, ← Nat.add_right_cancel htotal] at hnext
              simp only [if_neg hevent]
              exact congrArg _ hnext
      | cutShort event =>
          rw [hread] at hpulls hsplit hpossible ih
          rw [run_cons_cutShort hread]
          cases hpulls with
          | ended _ hstop =>
              rw [hstop, Run.outcome_cut_none]
              simp only
              split
              · rfl
              · rename_i hevent
                have hnext := pullSplit_behind_nil options stop
                  (bufferFree_take options hpossible hevent) (state.position + (c :: t).length)
                rw [hstop, run_nil] at hnext
                exact congrArg _ hnext
          | failed _ hstop =>
              rw [hstop]
              rfl

end Splitter

end SqlScript

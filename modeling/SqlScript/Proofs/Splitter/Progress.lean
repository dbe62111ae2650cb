/-
A splitter at work on a decoder, turn by turn.  Every turn but the last takes
something off the text that is left, so there is at most one turn more than there
are characters; and a raw scan takes the text one character a round, with nothing
pending where it puts one back.
-/
import SqlScript.Proofs.Cursor.Scanning
import SqlScript.Proofs.Source.Splitting

namespace SqlScript

namespace Splitter

/-- One turn of a splitter: it takes the next event from a decoder, or finds that
there is none. -/
structure Turn where
  state : State
  /-- The decoder at its beginning. -/
  start : Decoder
  /-- The rounds of its raw scan; under the semicolon there are none. -/
  rounds : List Decoder.Round
  found : Except ReadError (Option Event)
  /-- The decoder at its end. -/
  behind : Decoder

namespace Turn

/-- Whether another turn follows. -/
def goesOn (turn : Turn) : Bool :=
  match turn.found with
  | .ok (some event) => !event.isRemainder
  | _ => false

theorem goesOn_iff {turn : Turn} :
    turn.goesOn = true ↔
      ∃ event, turn.found = .ok (some event) ∧ ¬ event.isRemainder = true := by
  rw [goesOn]
  split <;> simp_all

/-- The text that a turn takes. -/
def taken (turn : Turn) : Text :=
  match turn.found with
  | .ok (some event) => event.lexeme
  | _ => []

end Turn

/-- Take a turn. -/
def turn (state : State) (decoder : Decoder) : Turn :=
  if state.delimiter = Event.semicolon then
    let token := decoder.nextToken
    ⟨state, decoder, [], token.1.map (Option.map .token), token.2⟩
  else
    let scan := decoder.scan state.delimiter []
    ⟨state, decoder, scan.rounds, scan.found.map some, scan.behind⟩

/-- A turn finds what the cursor of its decoder finds. -/
theorem turn_cursor (state : State) (decoder : Decoder) :
    decoder.cursor.pullEvent state.delimiter =
      ((turn state decoder).found, (turn state decoder).behind.cursor) := by
  rw [Cursor.pullEvent, turn]
  split
  · rw [Cursor.pullToken_eq_nextToken, Decoder.nextToken_cursor]
    rfl
  · rw [Decoder.scan_cursor]
    rfl

/-- A turn takes its event from the front of what is left.  Every event but the last
is some text, and the last leaves nothing. -/
theorem left_turn {state : State} {decoder : Decoder} {event : Event}
    (h : (turn state decoder).found = .ok (some event)) :
    decoder.left = event.lexeme ++ (turn state decoder).behind.left ∧
      (event.isRemainder = true → (turn state decoder).behind.left = []) ∧
        (¬ event.isRemainder = true → event.lexeme ≠ []) := by
  have hpull := turn_cursor state decoder
  rw [h] at hpull
  obtain ⟨stop, rest, hcursor, hbehind, hends, hlexeme⟩ := Cursor.exists_behind_of_pullEvent hpull
  rw [Decoder.left, Decoder.left, hcursor, hbehind, Stop.textBefore_behind,
    Stop.textBefore_behind]
  exact ⟨rfl, hends, hlexeme⟩

/-- A turn that finds no event finds no text. -/
theorem left_eq_nil_of_turn {state : State} {decoder : Decoder}
    (h : (turn state decoder).found = .ok none) : decoder.left = [] := by
  have hpull := turn_cursor state decoder
  obtain ⟨stop, t, hcursor⟩ := decoder.cursor.exists_eq_behind
  rw [Decoder.left, hcursor, Stop.textBefore_behind]
  cases t with
  | nil => rfl
  | cons c t =>
      have hpulls := stop.pullEvent_behind_cons state.delimiter c t decoder.cursor.position
      rw [← hcursor, hpull, h] at hpulls
      have hnone := hpulls.eq_value
      rw [Reading.value_map] at hnone
      exact absurd hnone (by simp)

theorem length_left_turn_lt {state : State} {decoder : Decoder} {event : Event}
    (h : (turn state decoder).found = .ok (some event)) (hevent : ¬ event.isRemainder = true) :
    (turn state decoder).behind.left.length < decoder.left.length := by
  obtain ⟨hleft, -, hlexeme⟩ := left_turn h
  have hpos := List.length_pos_iff.mpr (hlexeme hevent)
  rw [hleft, List.length_append]
  omega

/-- All turns of a splitter, and what they come to. -/
structure Course where
  turns : List Turn
  result : Logged (List Text)

/-- Split what a decoder gives, going on from `state`. -/
def course (options : Options) (state : State) (decoder : Decoder) : Course :=
  let first := turn state decoder
  match _h : first.found with
  | .error e => ⟨[first], .error e, []⟩
  | .ok none => ⟨[first], .ok state.leftover, []⟩
  | .ok (some event) =>
      let step := { state with position := decoder.position }.take options event
      if _hend : event.isRemainder = true then ⟨[first], step.before ⟨.ok step.next.leftover, []⟩⟩
      else
        let others := course options step.next first.behind
        ⟨first :: others.turns, step.before others.result⟩
termination_by decoder.left.length
decreasing_by exact length_left_turn_lt _h _hend

variable (options : Options)

/-- A course comes to pulling the script from the cursor of its decoder. -/
theorem result_course (state : State) (decoder : Decoder) :
    (course options state decoder).result = pullSplit options state decoder.cursor := by
  fun_induction course options state decoder with
  | case1 state decoder first e hfound =>
      rw [pullSplit_eq, turn_cursor, hfound]
  | case2 state decoder first hfound =>
      rw [pullSplit_eq, turn_cursor, hfound]
  | case3 state decoder first event hfound step hend =>
      rw [pullSplit_eq, turn_cursor, hfound]
      exact (if_pos hend).symm
  | case4 state decoder first event hfound step hend others ih =>
      rw [pullSplit_eq, turn_cursor, hfound]
      exact (congrArg step.before ih).trans (if_neg hend).symm

theorem length_turns_course_le (state : State) (decoder : Decoder) :
    (course options state decoder).turns.length ≤ decoder.left.length + 1 := by
  fun_induction course options state decoder with
  | case4 state decoder first event hfound step hend others ih =>
      have hlt := length_left_turn_lt hfound hend
      exact Nat.succ_le_succ (Nat.le_trans ih hlt)
  | _ => exact Nat.le_add_left _ _

/-- A course that meets no error takes all the text that is left. -/
theorem flatMap_taken_course {state : State} {decoder : Decoder}
    (h : ∀ e, (course options state decoder).result.answer ≠ .error e) :
    (course options state decoder).turns.flatMap Turn.taken = decoder.left := by
  fun_induction course options state decoder with
  | case1 state decoder first e hfound => exact absurd rfl (h e)
  | case2 state decoder first hfound =>
      rw [left_eq_nil_of_turn hfound, List.flatMap_singleton, Turn.taken, hfound]
  | case3 state decoder first event hfound step hend =>
      obtain ⟨hleft, hends, -⟩ := left_turn hfound
      rw [hleft, hends hend, List.append_nil, List.flatMap_singleton, Turn.taken, hfound]
  | case4 state decoder first event hfound step hend others ih =>
      obtain ⟨hleft, -, -⟩ := left_turn hfound
      have hothers : ∀ e, others.result.answer ≠ .error e := by
        intro e herror
        exact h e (by rw [Step.before, herror]; rfl)
      rw [hleft, List.flatMap_cons, ih hothers, Turn.taken, hfound]

theorem exists_of_mem_turns {state : State} {decoder : Decoder} {taken : Turn}
    (h : taken ∈ (course options state decoder).turns) :
    ∃ state decoder, taken = turn state decoder := by
  fun_induction course options state decoder with
  | case4 state decoder first event hfound step hend others ih =>
      rcases List.mem_cons.mp h with hfirst | hothers
      · exact ⟨state, decoder, hfirst⟩
      · exact ih hothers
  | case1 | case2 | case3 => exact ⟨_, _, List.mem_singleton.mp h⟩

/-- What a turn does to the text that is left. -/
structure Turn.Progresses (turn : Turn) : Prop where
  /-- A turn that another one follows leaves less. -/
  leavesLess : turn.goesOn = true → turn.behind.left.length < turn.start.left.length
  leads : turn.state.delimiter ≠ Event.semicolon →
    Decoder.Leads turn.start turn.rounds turn.behind
  /-- A round that another one follows leaves one character less. -/
  leavesOneLess : ∀ round ∈ turn.rounds, round.goesOn = true →
    round.start.left.length = round.behind.left.length + 1
  /-- A character is put back in place of the one just taken. -/
  putsBack : ∀ round ∈ turn.rounds, ∀ after ∈ round.putBack?,
    after.pending = none ∧ 1 ≤ after.position ∧
      ∃ (before : Decoder) (c : Char), before.next = (.ok (some c), after) ∧
        round.behind = after.unread c

@[simp] theorem start_turn (state : State) (decoder : Decoder) :
    (turn state decoder).start = decoder := by
  rw [turn]
  split <;> rfl

@[simp] theorem state_turn (state : State) (decoder : Decoder) :
    (turn state decoder).state = state := by
  rw [turn]
  split <;> rfl

theorem leads_turn {state : State} (h : state.delimiter ≠ Event.semicolon) (decoder : Decoder) :
    Decoder.Leads decoder (turn state decoder).rounds (turn state decoder).behind := by
  rw [turn, if_neg h]
  exact decoder.leads_scan state.delimiter []

theorem exists_possible_of_mem_rounds {state : State} {decoder : Decoder} {round : Decoder.Round}
    (h : round ∈ (turn state decoder).rounds) : ∃ seen, round.Possible round.start seen := by
  by_cases hmark : state.delimiter = Event.semicolon
  · rw [turn, if_pos hmark] at h
    exact absurd h List.not_mem_nil
  · exact (leads_turn hmark decoder).exists_possible h

theorem progresses_turn (state : State) (decoder : Decoder) :
    (turn state decoder).Progresses where
  leavesLess hgoesOn := by
    obtain ⟨event, hfound, hevent⟩ := Turn.goesOn_iff.mp hgoesOn
    rw [start_turn]
    exact length_left_turn_lt hfound hevent
  leads hmark := by
    rw [state_turn] at hmark
    rw [start_turn]
    exact leads_turn hmark decoder
  leavesOneLess round hround hgoesOn := by
    obtain ⟨seen, hpossible⟩ := exists_possible_of_mem_rounds hround
    exact hpossible.length_left hgoesOn
  putsBack round hround after hback := by
    obtain ⟨seen, hpossible⟩ := exists_possible_of_mem_rounds hround
    obtain ⟨before, c, hnext, hbehind⟩ := hpossible.taken_of_putBack? hback
    obtain ⟨hfree, hposition⟩ := Decoder.free_of_next hnext
    exact ⟨hfree, hposition, before, c, hnext, hbehind⟩

/-- Over a text, a course meets no error and comes to the split of the text. -/
theorem result_course_ofText (t : Text) :
    (course options {} (.ofSource (.ofText t))).result =
      ⟨.ok (split options t).statements, (split options t).log⟩ := by
  have hcursor : (Decoder.ofSource (.ofText t)).cursor = Cursor.ofSource (.ofText t) := rfl
  rw [result_course, hcursor, ← splitSource_eq_pullSplit, splitSource_ofText]

/-- Splitting a text always comes to an end.  Every turn that another one follows
leaves less of the text, and every round of a raw scan that another one follows
leaves just one character less, also when it puts one back; where that happens,
nothing is pending, and a character was just taken.  The turns take all of the
text, and there is at most one more of them than there are characters. -/
theorem course_progresses (t : Text) :
    let course := course options {} (.ofSource (.ofText t))
    (∀ turn ∈ course.turns, turn.Progresses) ∧
      course.turns.flatMap Turn.taken = t ∧
      course.turns.length ≤ t.length + 1 ∧
      course.result = ⟨.ok (split options t).statements, (split options t).log⟩ := by
  intro course
  refine ⟨fun taken hmem => ?_, ?_, ?_, result_course_ofText options t⟩
  · obtain ⟨state, decoder, rfl⟩ := exists_of_mem_turns options hmem
    exact progresses_turn state decoder
  · have herror : ∀ e, course.result.answer ≠ .error e := by
      intro e
      simp [course, result_course_ofText]
    simpa only [Decoder.left_ofText] using flatMap_taken_course options herror
  · simpa only [Decoder.left_ofText] using
      length_turns_course_le options {} (.ofSource (.ofText t))

/-- A keyword that goes on as a longer word has its next character put back. -/
example :
    let course := course {} {} (.ofSource (.ofText "DELIMITER //\nDELIMITERS//;".toList))
    course.turns.map (fun turn =>
      (turn.rounds.length, (turn.rounds.filterMap Decoder.Round.putBack?).map Decoder.position)) =
        [(0, []), (12, [23]), (2, [])] := by
  decide +kernel

end Splitter

end SqlScript

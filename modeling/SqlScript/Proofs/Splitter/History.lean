/-
What a log tells about the delimiter.  Every directive that a run meets leaves one
record: the change from the delimiter that was active to the one it names, or, when
it names none, the delimiter that stays and how far the script was read.  So the
active delimiter anywhere is the one that the records until then set last.
-/
import SqlScript.Proofs.Source.Splitting
import SqlScript.Proofs.Splitter.Delimiters

namespace SqlScript

/-- The delimiter that a record says was set. -/
def Record.new? : Record → Option Text
  | .delimiterChanged _ new => some new
  | _ => none

/-- A place where a script names a delimiter, or should. -/
structure Occurrence where
  directive : Directive
  /-- How many characters of the script there are through its end. -/
  through : Nat

namespace Occurrence

/-- What a directive leaves behind where `active` is the delimiter. -/
def record (active : Text) (o : Occurrence) : Record :=
  if o.directive.delimiter = [] then .delimiterMissing o.through active
  else .delimiterChanged active o.directive.delimiter

/-- A complete directive of the text `t`, which stands behind `position`
characters. -/
def StandsIn (position : Nat) (t : Text) (o : Occurrence) : Prop :=
  ∃ front rest, t = front ++ o.directive.lexeme ++ rest ∧
    o.through = position + (front ++ o.directive.lexeme).length ∧ o.directive.IsBefore rest

theorem level_record (active : Text) (o : Occurrence) :
    (o.record active).level = if o.directive.delimiter = [] then .warn else .debug := by
  rw [record]
  split <;> rfl

theorem new?_record (active : Text) (o : Occurrence) :
    (o.record active).new? = if o.directive.delimiter = [] then none
      else some o.directive.delimiter := by
  rw [record]
  split <;> rfl

variable {position : Nat} {t : Text} {o : Occurrence}

theorem StandsIn.position_lt (h : o.StandsIn position t) : position < o.through := by
  obtain ⟨front, rest, -, hthrough, hbefore⟩ := h
  have hkeyword := Directive.length_of_isKeyword hbefore.keyword
  rw [hthrough, Directive.lexeme, List.length_append, List.length_append, hkeyword]
  have hword : 0 < Keyword.delimiter.spelling.length := by decide
  omega

/-- What stands in the text behind `lead` stands in the whole. -/
theorem StandsIn.behind {lead : Text} (h : o.StandsIn (position + lead.length) t) :
    o.StandsIn position (lead ++ t) := by
  obtain ⟨front, rest, rfl, hthrough, hbefore⟩ := h
  refine ⟨lead ++ front, rest, ?_, ?_, hbefore⟩
  · simp only [List.append_assoc]
  · rw [hthrough]
    simp only [List.length_append, Nat.add_assoc]

end Occurrence

/-- The directives among some events that stand behind `position` characters. -/
def occurrences (position : Nat) : List Event → List Occurrence
  | [] => []
  | event :: others =>
      let through := position + event.lexeme.length
      (event.directive?.map (⟨·, through⟩)).toList ++ occurrences through others

/-- What some directives leave behind, one after another. -/
def records (active : Text) : List Occurrence → List Record
  | [] => []
  | o :: others => o.record active :: records (Splitter.activeAfter active o.directive) others

/-- The delimiter that some records set last, where it was `active` before. -/
def activeBehind (active : Text) (log : List Record) : Text :=
  (log.filterMap Record.new?).getLast?.getD active

theorem activeBehind_cons (active : Text) (o : Occurrence) (log : List Record) :
    activeBehind active (o.record active :: log) =
      activeBehind (Splitter.activeAfter active o.directive) log := by
  rw [activeBehind, activeBehind, Splitter.activeAfter]
  by_cases hnone : o.directive.delimiter = []
  · rw [List.filterMap_cons_none (by rw [Occurrence.new?_record, if_pos hnone]), if_pos hnone]
  · rw [List.filterMap_cons_some (by rw [Occurrence.new?_record, if_neg hnone]), if_neg hnone,
      List.getLast?_cons, Option.getD_some]

/-- Each record is that of the directive in its place, under the delimiter that the
records in front of it set last. -/
theorem getElem?_records (active : Text) (met : List Occurrence) (i : Nat) :
    (records active met)[i]? =
      met[i]?.map (Occurrence.record (activeBehind active ((records active met).take i))) := by
  induction met generalizing active i with
  | nil => rfl
  | cons o others ih =>
      cases i with
      | zero => rfl
      | succ i =>
          rw [records, List.getElem?_cons_succ, List.getElem?_cons_succ, List.take_succ_cons,
            activeBehind_cons]
          exact ih _ i

/-- Taking an event counts all its characters, those that were looked at and put
back included, wherever the cursor stands. -/
theorem Cursor.position_pullEvent {mark : Text} {cursor behind : Cursor} {event : Event}
    (h : cursor.pullEvent mark = (.ok (some event), behind)) :
    behind.position = cursor.position + event.lexeme.length := by
  obtain ⟨stop, rest, -, rfl, -, -⟩ := exists_behind_of_pullEvent h
  rfl

namespace Splitter

/-- A step reports its directive, and nothing else. -/
theorem log_take (options : Options) (state : State) (event : Event) :
    (state.take options event).log = (event.directive?.map fun d =>
      Occurrence.record state.delimiter ⟨d, state.position + event.lexeme.length⟩).toList := by
  cases event with
  | token token =>
      cases token with
      | statementEnd =>
          rw [State.take, State.takeToken]
          split <;> rfl
      | _ => rfl
  | _ => rfl

variable {options : Options}

/-- A run reports what its directives leave behind. -/
theorem log_run (options : Options) (state : State) (t : Text) :
    (run options state t).log =
      records state.delimiter
        (occurrences state.position ((run options state t).steps.map Step.event)) := by
  induction state, t using run_induction options with
  | done state =>
      rw [log_run_nil, steps_run_nil]
      rfl
  | step state c t ih =>
      rw [log_run_cons, steps_run_cons, List.map_cons, occurrences, ih]
      simp only [firstStep, event_take, position_take, delimiter_take, log_take]
      cases (Event.read state.delimiter c t).value.directive? <;> rfl

theorem lexeme_steps (options : Options) (state : State) (t : Text) :
    ((run options state t).steps.map Step.event).flatMap Event.lexeme = t := by
  induction state, t using run_induction options with
  | done state =>
      rw [steps_run_nil]
      rfl
  | step state c t ih =>
      rw [steps_run_cons, List.map_cons, List.flatMap_cons, ih, firstStep, event_take]
      exact Event.read_partitions state.delimiter c t

/-- The directives that a run meets stand in its text, in their order. -/
theorem occurrences_run (options : Options) (state : State) (t : Text) :
    let met := occurrences state.position ((run options state t).steps.map Step.event)
    (∀ o ∈ met, o.StandsIn state.position t) ∧ met.Pairwise fun o o' => o.through < o'.through := by
  induction state, t using run_induction options with
  | done state =>
      rw [steps_run_nil]
      exact ⟨by simp [occurrences], .nil⟩
  | step state c t ih =>
      have hpossible := Event.possible_read state.delimiter c t
      have hsplit : _ = c :: t := Event.read_partitions state.delimiter c t
      rw [steps_run_cons, List.map_cons, occurrences]
      simp only [firstStep, event_take, position_take] at ih ⊢
      generalize (Event.read state.delimiter c t).value = event at *
      generalize (Event.read state.delimiter c t).rest = rest at *
      -- What stands behind the event was counted from the end of the event.
      obtain ⟨hstand, horder⟩ := ih
      rw [← hsplit]
      cases hd : event.directive? with
      | none => exact ⟨fun o ho => (hstand o ho).behind, horder⟩
      | some d =>
          obtain ⟨preceding, hlexeme⟩ := Event.exists_lexeme_of_directive? hd
          have hbefore := hpossible.isBefore_of_directive? hd
          refine ⟨?_, List.pairwise_cons.mpr ⟨fun o ho => (hstand o ho).position_lt, horder⟩⟩
          intro o ho
          rcases List.mem_cons.mp ho with rfl | ho
          · exact ⟨preceding, rest, by rw [hlexeme], by rw [hlexeme], hbefore⟩
          · exact (hstand o ho).behind

/-- The log of a script is the history of its delimiter.  The events of a run are
the script, and there are just as many records as directives among them, in their
order: a change where the directive names a delimiter, and a warning where it names
none.  Each goes on from the delimiter that the records in front of it set last, or
from the semicolon, and a warning tells how many characters there are through the
end of its directive.  Pulling the script comes to the same log, and no character
is counted twice on the way. -/
theorem log_is_history (options : Options) (t : Text) :
    let events := (run options {} t).steps.map Step.event
    let met := occurrences 0 events
    let log := (split options t).log
    events.flatMap Event.lexeme = t ∧
      (∀ o ∈ met, o.StandsIn 0 t) ∧ met.Pairwise (fun o o' => o.through < o'.through) ∧
      (∀ i : Nat, log[i]? =
        met[i]?.map (Occurrence.record (activeBehind Event.semicolon (log.take i)))) ∧
      log.map Record.level =
        met.map (fun o => if o.directive.delimiter = [] then .warn else .debug) ∧
      (pullSplit options {} (Cursor.ofText t)).log = log ∧
      ∀ (mark : Text) (cursor behind : Cursor) (event : Event),
        cursor.pullEvent mark = (.ok (some event), behind) →
          behind.position = cursor.position + event.lexeme.length := by
  intro events met log
  have hlog : log = records Event.semicolon met := log_run options {} t
  have hrecords : ∀ i : Nat, log[i]? =
      met[i]?.map (Occurrence.record (activeBehind Event.semicolon (log.take i))) := by
    rw [hlog]
    exact getElem?_records Event.semicolon met
  obtain ⟨hstand, horder⟩ := occurrences_run options {} t
  refine ⟨lexeme_steps options {} t, hstand, horder, hrecords, ?_, ?_, ?_⟩
  · apply List.ext_getElem?
    intro i
    rw [List.getElem?_map, List.getElem?_map, hrecords, Option.map_map]
    exact congrArg (Option.map · met[i]?) (funext (Occurrence.level_record _))
  · rw [← Cursor.ofSource_ofText, ← splitSource_eq_pullSplit, splitSource_ofText]
  · intro mark cursor behind event
    exact Cursor.position_pullEvent

/-- A keyword right at the end of a script leaves no record in a raw scan. -/
example : (split {} "DELIMITER\nDELIMITER //\na//DELIMITER \nDELIMITER".toList).log =
    [.delimiterMissing 10 [';'], .delimiterChanged [';'] ['/', '/'],
      .delimiterMissing 37 ['/', '/']] := by
  decide +kernel

end Splitter

end SqlScript

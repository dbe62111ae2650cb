/-
A raw scan on a decoder finds what its cursor finds.  Putting back the character
that was just taken leaves the decoder where it was, with room for that character,
so a round that goes on takes just one character from what is left.
-/
import SqlScript.Cursor.Scanning
import SqlScript.Proofs.Cursor.Interleaving

namespace SqlScript

/-- A cursor gives a character that is ahead of it. -/
theorem Cursor.exists_of_next {cursor behind : Cursor} {c : Char}
    (h : cursor.next = (.ok (some c), behind)) :
    ∃ others, cursor = ⟨.ok c :: others, cursor.ending, cursor.position⟩ ∧
      behind = ⟨others, cursor.ending, cursor.position + 1⟩ := by
  obtain ⟨stop, t, hcursor⟩ := cursor.exists_eq_behind
  cases t with
  | nil =>
      rw [hcursor, Stop.next_behind_nil, Stop.answer] at h
      cases hstop : stop.error? <;> simp [hstop] at h
  | cons d t =>
      rw [hcursor, Stop.next_behind_cons] at h
      obtain ⟨hfound, rfl⟩ := Prod.mk.inj h
      obtain rfl : d = c := by simpa using hfound
      rw [hcursor]
      exact ⟨_, rfl, rfl⟩

namespace Decoder

/-- The text that is still to be read: the pending character, and what the bytes
deliver in front of the first error. -/
def left (decoder : Decoder) : Text :=
  textBefore decoder.cursor.ahead

@[simp] theorem left_ofText (t : Text) : (ofSource (.ofText t)).left = t := by
  have hcursor : (ofSource (.ofText t)).cursor = _ := Cursor.ofSource_ofText t
  rw [left, hcursor]
  exact textBefore_map_ok t

variable {decoder behind : Decoder} {c : Char}

theorem exists_cursor_of_next (h : decoder.next = (.ok (some c), behind)) :
    ∃ others, decoder.cursor = ⟨.ok c :: others, decoder.ending, decoder.position⟩ ∧
      behind.cursor = ⟨others, decoder.ending, decoder.position + 1⟩ := by
  have hnext := decoder.next_cursor
  rw [h] at hnext
  exact Cursor.exists_of_next hnext

/-- Taking a character takes the first one that is left. -/
theorem left_of_next (h : decoder.next = (.ok (some c), behind)) :
    decoder.left = c :: behind.left := by
  obtain ⟨others, hcursor, hbehind⟩ := exists_cursor_of_next h
  rw [left, left, hcursor, hbehind, textBefore]

/-- Putting back what was just taken undoes the taking. -/
theorem cursor_unread_of_next (h : decoder.next = (.ok (some c), behind)) :
    (behind.unread c).cursor = decoder.cursor := by
  have hfree := decoder.pending_next
  rw [h] at hfree
  obtain ⟨others, hcursor, hbehind⟩ := exists_cursor_of_next h
  rw [← unread_cursor hfree, hbehind, hcursor]
  rfl

/-- There is room to put back what was just taken. -/
theorem free_of_next (h : decoder.next = (.ok (some c), behind)) :
    behind.pending = none ∧ 1 ≤ behind.position := by
  obtain ⟨others, -, hbehind⟩ := exists_cursor_of_next h
  have hfree := decoder.pending_next
  have hposition : behind.position = decoder.position + 1 := congrArg Cursor.position hbehind
  rw [h] at hfree
  exact ⟨hfree, by omega⟩

/-- Taking characters through one that satisfies `p` is the same on a decoder and
on its cursor. -/
theorem takeThrough_cursor (p : Char → Bool) (decoder : Decoder) :
    decoder.cursor.pullThrough p =
      ((decoder.takeThrough p).1, (decoder.takeThrough p).2.cursor) := by
  fun_induction takeThrough p decoder with
  | case1 decoder e behind h => rw [Cursor.pullThrough_eq, next_cursor, h]
  | case2 decoder behind h => rw [Cursor.pullThrough_eq, next_cursor, h]
  | case3 decoder c behind h hc =>
      rw [Cursor.pullThrough_eq, next_cursor, h]
      exact if_pos hc
  | case4 decoder c behind h hc others ih =>
      rw [Cursor.pullThrough_eq, next_cursor, h]
      simp only [if_neg hc, ih]
      rfl

theorem takeDirective_cursor (keyword : Text) (lead : Char) (decoder : Decoder) :
    decoder.cursor.pullDirective keyword (some lead) =
      ((decoder.takeDirective keyword lead).1, (decoder.takeDirective keyword lead).2.cursor) := by
  rw [Cursor.pullDirective, takeDirective, takeThrough_cursor]
  split <;> rfl

/-- What a scan from a cursor comes to behind a round of a decoder. -/
def Round.pulled (mark : Text) (round : Round) : Pulled Event :=
  match round.found with
  | .error e => (.error e, round.behind.cursor)
  | .ok (.event event) => (.ok event, round.behind.cursor)
  | .ok (.nothing following) => round.behind.cursor.pullScan mark following

/-- A scan from the cursor of a decoder goes on where a round leaves the decoder. -/
theorem pullScan_cursor (mark seen : Text) (decoder : Decoder) :
    decoder.cursor.pullScan mark seen = (decoder.scanRound mark seen).pulled mark := by
  rw [Cursor.pullScan_eq, next_cursor, scanRound]
  rcases decoder.next with ⟨e | _ | c, behind⟩
  · rfl
  · rfl
  simp only
  split
  · rfl
  rcases hword : Event.keywordAtEnd? (c :: seen) with - | ⟨before, word⟩
  · rfl
  have hseen := Event.keywordAtEnd?_eq_some hword
  simp only [next_cursor, passKeyword]
  rcases hafter : behind.next with ⟨e | _ | d, after⟩
  · rfl
  · rfl
  simp only
  split
  · rfl
  split
  · rw [takeDirective_cursor]
    cases (after.takeDirective word d).1 <;> rfl
  · -- Nothing is pending behind the character, so the cursor gets it back as well.
    rw [unread_cursor (free_of_next hafter).1, ← hseen]
    rfl

/-- A decoder finds what its cursor finds, and both stay together. -/
theorem scan_cursor (mark seen : Text) (decoder : Decoder) :
    decoder.cursor.pullScan mark seen =
      ((decoder.scan mark seen).found, (decoder.scan mark seen).behind.cursor) := by
  rw [pullScan_cursor]
  fun_induction scan mark seen decoder with
  | case1 seen decoder round e hfound => rw [Round.pulled, hfound]
  | case2 seen decoder round event hfound => rw [Round.pulled, hfound]
  | case3 seen decoder round following hfound others ih =>
      rw [Round.pulled, hfound]
      exact (pullScan_cursor mark following round.behind).trans ih

variable {start : Decoder} {seen : Text} {round : Round}

/-- A round that goes on takes just one character, whether or not it took another
one too and put that back. -/
theorem Round.Possible.length_left (h : round.Possible start seen)
    (hgoesOn : round.goesOn = true) : start.left.length = round.behind.left.length + 1 := by
  cases h with
  | ends hends =>
      obtain ⟨following, hfound⟩ := goesOn_iff.mp hgoesOn
      exact absurd hfound (hends following)
  | takes h => rw [left_of_next h, List.length_cons]
  | putsBack h hnext =>
      rw [left_of_next h, List.length_cons, left, left, cursor_unread_of_next hnext]

/-- A character is only put back right behind taking it. -/
theorem Round.Possible.taken_of_putBack? {after : Decoder} (h : round.Possible start seen)
    (hback : round.putBack? = some after) :
    ∃ (before : Decoder) (d : Char), before.next = (.ok (some d), after) ∧
      round.behind = after.unread d := by
  cases h with
  | ends hends => exact absurd hback (by simp)
  | takes h => exact absurd hback (by simp)
  | putsBack h hnext =>
      obtain rfl := Option.some.inj hback
      exact ⟨_, _, hnext, rfl⟩

/-- Possible rounds, one behind another, that lead from a decoder to another one. -/
inductive Leads : Decoder → List Round → Decoder → Prop where
  | last {start : Decoder} {seen : Text} {round : Round} (h : round.Possible start seen)
      (hends : round.goesOn = false) : Leads start [round] round.behind
  | goOn {start stop : Decoder} {seen : Text} {round : Round} {others : List Round}
      (h : round.Possible start seen) (hgoesOn : round.goesOn = true)
      (hothers : Leads round.behind others stop) : Leads start (round :: others) stop

/-- The rounds of a scan lead through it. -/
theorem leads_scan (mark seen : Text) (decoder : Decoder) :
    Leads decoder (decoder.scan mark seen).rounds (decoder.scan mark seen).behind := by
  fun_induction scan mark seen decoder with
  | case1 seen decoder first e hfound =>
      exact .last (possible_scanRound mark seen decoder) (by rw [Round.goesOn, hfound])
  | case2 seen decoder first event hfound =>
      exact .last (possible_scanRound mark seen decoder) (by rw [Round.goesOn, hfound])
  | case3 seen decoder first following hfound others ih =>
      have hgoesOn : first.goesOn = true := Round.goesOn_iff.mpr ⟨following, hfound⟩
      exact .goOn (possible_scanRound mark seen decoder) hgoesOn ih

theorem Leads.exists_possible {stop : Decoder} {rounds : List Round} (h : Leads start rounds stop)
    (hround : round ∈ rounds) : ∃ seen, round.Possible round.start seen := by
  induction h with
  | last hfirst hends =>
      obtain rfl := List.mem_singleton.mp hround
      exact ⟨_, hfirst.start_eq ▸ hfirst⟩
  | goOn hfirst hgoesOn hothers ih =>
      rcases List.mem_cons.mp hround with rfl | hround
      · exact ⟨_, hfirst.start_eq ▸ hfirst⟩
      · exact ih hround

end Decoder

end SqlScript

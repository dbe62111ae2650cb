/-
A decoder answers as the cursor does that holds everything its source delivers.
What is ahead of that cursor is spread over a pending character and over bytes:
decoding gets one delivery from the bytes, looking makes it pending, and taking
uses it up.
-/
import SqlScript.Cursor.Decoder
import SqlScript.Proofs.Cursor.Pulling
import SqlScript.Proofs.Source.Partition
import SqlScript.Proofs.Token.Stages

namespace SqlScript

namespace Utf8

variable {lead : UInt8} {bytes : Bytes} {width : Nat} {c : Char}

/-- The first byte of a character announces its width. -/
theorem announcedWidth?_of_firstChar? (h : firstChar? (lead :: bytes) = some c) :
    announcedWidth? lead = some c.utf8Size := by
  have hbegins := firstChar?_eq_some_iff.mp h
  obtain ⟨first, others, hencoded, -⟩ := exists_cons_of_utf8EncodeChar c
  rw [hencoded] at hbegins
  obtain ⟨rfl, -⟩ := List.cons_prefix_cons.mp hbegins
  exact announcedWidth?_of_utf8EncodeChar hencoded

theorem firstChar?_of_unannounced (h : announcedWidth? lead = none) :
    firstChar? (lead :: bytes) = none := by
  rw [Option.eq_none_iff_forall_ne_some]
  intro c hfirst
  rw [announcedWidth?_of_firstChar? hfirst] at h
  exact absurd h (by simp)

/-- No byte behind the announced ones is needed to decode a character. -/
theorem firstChar?_take_announced (h : announcedWidth? lead = some width) :
    firstChar? ((lead :: bytes).take width) = firstChar? (lead :: bytes) := by
  apply Option.ext
  intro c
  constructor
  · intro hfirst
    exact firstChar?_eq_some_iff.mpr
      ((firstChar?_eq_some_iff.mp hfirst).trans (List.take_prefix _ _))
  · intro hfirst
    obtain rfl : width = c.utf8Size :=
      Option.some.inj (h.symm.trans (announcedWidth?_of_firstChar? hfirst))
    apply firstChar?_eq_some_iff.mpr
    rw [List.prefix_take_iff, String.length_utf8EncodeChar]
    exact ⟨firstChar?_eq_some_iff.mp hfirst, Nat.le_refl _⟩

/-- Without the announced bytes there is no character. -/
theorem firstChar?_of_short (h : announcedWidth? lead = some width)
    (hshort : (lead :: bytes).length < width) : firstChar? (lead :: bytes) = none := by
  rw [Option.eq_none_iff_forall_ne_some]
  intro c hfirst
  obtain rfl : width = c.utf8Size :=
    Option.some.inj (h.symm.trans (announcedWidth?_of_firstChar? hfirst))
  have hlength := (firstChar?_eq_some_iff.mp hfirst).length_le
  rw [String.length_utf8EncodeChar] at hlength
  exact absurd hshort (Nat.not_lt_of_le hlength)

end Utf8

namespace Decoder

/-- What the bytes that were not pulled yet deliver. -/
def deliveries (decoder : Decoder) : List (Except ReadError Char) :=
  (Utf8.piecesFrom decoder.offset decoder.bytes).filterMap (Source.deliver decoder.ending)

/-- Decoding pulls the bytes of one delivery, or finds that there is none. -/
theorem decode_cases (decoder : Decoder) :
    (∃ count, decoder.deliveries = [] ∧ (decoder.pull count).deliveries = [] ∧
        decoder.decode = (Cursor.beyond decoder.ending, decoder.pull count)) ∨
      ∃ count result, decoder.deliveries = result :: (decoder.pull count).deliveries ∧
        decoder.decode = (result.map some, decoder.pull count) := by
  rcases decoder with ⟨bytes, ending, pending, offset, position⟩
  cases bytes with
  | nil =>
      have hnone : (Utf8.piecesFrom offset []).filterMap (Source.deliver ending) = [] := by
        rw [Utf8.piecesFrom, List.filterMap_nil]
      exact .inl ⟨0, hnone, hnone, rfl⟩
  | cons lead bytes =>
      rw [deliveries, Utf8.piecesFrom]
      simp only [decode]
      cases hwidth : Utf8.announcedWidth? lead with
      | none =>
          simp only [Utf8.firstChar?_of_unannounced hwidth, Utf8.stretchWidth, hwidth]
          exact .inr ⟨1, .error (.invalidUtf8 offset), rfl, rfl⟩
      | some width =>
          simp only [Utf8.stretchWidth, hwidth, Option.getD_some,
            Utf8.firstChar?_take_announced hwidth]
          by_cases hshort : (lead :: bytes).length < width
          · have hnone (offset : Nat) : (Utf8.piecesFrom offset
                ((lead :: bytes).drop width)).filterMap (Source.deliver ending) = [] := by
              rw [List.drop_of_length_le (Nat.le_of_lt hshort), Utf8.piecesFrom, List.filterMap_nil]
            simp only [Utf8.firstChar?_of_short hwidth hshort, if_pos hshort]
            -- The bytes that are there are pulled, and the ending tells what they are.
            cases ending with
            | endOfInput =>
                refine .inr ⟨width, .error (.invalidUtf8 offset), ?_, rfl⟩
                rw [deliveries, pull, hnone]
                rfl
            | failure reason => exact .inl ⟨width, rfl, hnone _, rfl⟩
          · have htake : ((lead :: bytes).take width).length = width := by
              rw [List.length_take]
              omega
            simp only [if_neg hshort]
            cases hfirst : Utf8.firstChar? (lead :: bytes) with
            | none =>
                refine .inr ⟨width, .error (.invalidUtf8 offset), ?_, rfl⟩
                rw [deliveries, pull, htake]
                rfl
            | some c =>
                have hsize := Utf8.announcedWidth?_of_firstChar? hfirst
                obtain rfl : width = c.utf8Size := Option.some.inj (hwidth.symm.trans hsize)
                refine .inr ⟨c.utf8Size, .ok c, ?_, rfl⟩
                rw [deliveries, pull, htake]
                rfl

/-- The cursor that has ahead what is pending and what the bytes deliver. -/
def cursor (decoder : Decoder) : Cursor :=
  ⟨decoder.pending.toList.map .ok ++ decoder.deliveries, decoder.ending, decoder.position⟩

theorem cursor_of_pending (decoder : Decoder) {c : Char} (h : decoder.pending = some c) :
    decoder.cursor = ⟨.ok c :: decoder.deliveries, decoder.ending, decoder.position⟩ := by
  rw [cursor, h]
  rfl

theorem cursor_of_not_pending (decoder : Decoder) (h : decoder.pending = none) :
    decoder.cursor = ⟨decoder.deliveries, decoder.ending, decoder.position⟩ := by
  rw [cursor, h]
  rfl

/-- Taking the next character is the same on a decoder and on its cursor. -/
theorem next_cursor (decoder : Decoder) :
    decoder.cursor.next = (decoder.next.1, decoder.next.2.cursor) := by
  rw [next]
  cases hpending : decoder.pending with
  | some c =>
      rw [decoder.cursor_of_pending hpending]
      rfl
  | none =>
      have hpulled (count : Nat) : (decoder.pull count).pending = none := hpending
      rw [decoder.cursor_of_not_pending hpending]
      rcases decoder.decode_cases with ⟨count, hahead, hbehind, hdecode⟩ |
        ⟨count, result, hahead, hdecode⟩
      · have hcursor := cursor_of_not_pending _ (hpulled count)
        rw [hbehind] at hcursor
        rw [hahead, hdecode, Cursor.next, Cursor.beyond]
        cases decoder.ending.error? <;> exact congrArg (Prod.mk _) hcursor.symm
      · rw [hahead, hdecode]
        cases result with
        | ok c =>
            have hcursor := cursor_of_not_pending
              { decoder.pull count with position := decoder.position + 1 } (hpulled count)
            exact congrArg (Prod.mk _) hcursor.symm
        | error e => exact congrArg (Prod.mk _) (cursor_of_not_pending _ (hpulled count)).symm

/-- So is looking at it. -/
theorem peek_cursor (decoder : Decoder) :
    decoder.cursor.peek = (decoder.peek.1, decoder.peek.2.cursor) := by
  rw [peek]
  cases hpending : decoder.pending with
  | some c =>
      rw [decoder.cursor_of_pending hpending]
      rfl
  | none =>
      have hpulled (count : Nat) : (decoder.pull count).pending = none := hpending
      rw [decoder.cursor_of_not_pending hpending]
      rcases decoder.decode_cases with ⟨count, hahead, hbehind, hdecode⟩ |
        ⟨count, result, hahead, hdecode⟩
      · rw [hahead, hdecode, Cursor.peek, Cursor.beyond]
        cases decoder.ending.error? with
        | none =>
            have hsame : Cursor.mk [] decoder.ending decoder.position =
                ⟨(decoder.pull count).deliveries, decoder.ending, decoder.position⟩ := by
              rw [hbehind]
            exact congrArg (Prod.mk _) hsame
        | some e =>
            have hcursor := cursor_of_not_pending _ (hpulled count)
            rw [hbehind] at hcursor
            exact congrArg (Prod.mk _) hcursor.symm
      · rw [hahead, hdecode]
        cases result with
        | ok c => rfl
        | error e => exact congrArg (Prod.mk _) (cursor_of_not_pending _ (hpulled count)).symm

theorem unread_cursor {decoder : Decoder} (h : decoder.pending = none) (c : Char) :
    decoder.cursor.unread c = (decoder.unread c).cursor := by
  rw [decoder.cursor_of_not_pending h]
  rfl

theorem takeToken_eq (decoder : Decoder) (stage : Token.Stage) :
    decoder.takeToken stage =
      match decoder.meet stage.looks with
      | (.error e, met) => (.error e, met)
      | (.ok none, met) => (.ok stage.token?, met)
      | (.ok (some c), met) =>
          match stage.judge c with
          | .leave token => (.ok (some token), met)
          | .last token => (.ok (some token), met.accept stage.looks)
          | .goOn following => (met.accept stage.looks).takeToken following := by
  rw [takeToken]
  split
  · simp only [*]
  · simp only [*]
  · rename_i c met hmeet
    rcases hjudge : stage.judge c <;> simp only [hmeet, hjudge]

section

variable {decoder : Decoder} {stop : Stop} {position : Nat}

/-- At the end of the text, a decoder meets what stops its cursor. -/
theorem meet_behind_nil (h : decoder.cursor = stop.behind [] position) (looks : Bool) :
    ((decoder.meet looks).1, (decoder.meet looks).2.cursor) = stop.answer position := by
  cases looks with
  | false =>
      rw [← stop.next_behind_nil, ← h, next_cursor]
      rfl
  | true =>
      rw [← stop.peek_behind_nil, ← h, peek_cursor]
      rfl

/-- In front of a character, a decoder meets it, and stands behind it as soon as it
is taken.  Looking at it leaves the cursor in front of it. -/
theorem meet_behind_cons {c : Char} {t : Text} (h : decoder.cursor = stop.behind (c :: t) position)
    (looks : Bool) :
    ∃ met, decoder.meet looks = (.ok (some c), met) ∧
      (met.accept looks).cursor = stop.behind t (position + 1) ∧
      (looks = true → met.cursor = stop.behind (c :: t) position) := by
  have hmet : (decoder.meet looks).1 = .ok (some c) ∧
      (looks = true → (decoder.meet looks).2.cursor = stop.behind (c :: t) position) := by
    cases looks with
    | false =>
        have hnext := decoder.next_cursor
        rw [h, Stop.next_behind_cons] at hnext
        exact ⟨(Prod.mk.inj hnext).1.symm, fun hlooks => absurd hlooks Bool.false_ne_true⟩
    | true =>
        have hpeek := decoder.peek_cursor
        rw [h, Stop.peek_behind_cons] at hpeek
        obtain ⟨hfound, hcursor⟩ := Prod.mk.inj hpeek
        exact ⟨hfound.symm, fun _ => hcursor.symm⟩
  have hmeet : decoder.meet looks = (.ok (some c), (decoder.meet looks).2) := by rw [← hmet.1]
  refine ⟨(decoder.meet looks).2, hmeet, ?_, hmet.2⟩
  have hnext := decoder.next_cursor
  rw [h, Stop.next_behind_cons, next_of_meet hmeet] at hnext
  exact (Prod.mk.inj hnext).2.symm

/-- A decoder takes the rest of a token as it is read from the text in front of
its cursor. -/
theorem takeToken_behind {t : Text} (h : decoder.cursor = stop.behind t position)
    (stage : Token.Stage) :
    Pulls stop (position + t.length)
      ((decoder.takeToken stage).1, (decoder.takeToken stage).2.cursor) (stage.reading t) := by
  induction t generalizing decoder position stage with
  | nil =>
      have hend : ((decoder.takeToken stage).1, (decoder.takeToken stage).2.cursor) =
          Pulled.map (fun _ => stage.token?) (stop.answer position) := by
        have hmeet := meet_behind_nil h stage.looks
        rw [takeToken_eq, ← hmeet]
        rcases hanswer : decoder.meet stage.looks with ⟨e | found, met⟩
        · rfl
        cases found with
        | none => rfl
        | some c =>
            rw [hanswer, Stop.answer] at hmeet
            cases hstop : stop.error? <;> simp [hstop] at hmeet
      rw [hend]
      exact .atEnd stage.token? stop position
  | cons c t ih =>
      obtain ⟨met, hmeet, haccept, hlooked⟩ := meet_behind_cons h stage.looks
      rw [takeToken_eq, hmeet, Token.Stage.reading]
      simp only
      cases hjudge : stage.judge c with
      | leave token =>
          rw [hlooked (Token.Stage.looks_of_leave hjudge)]
          exact .settled (some token) rfl
      | last token =>
          rw [Stop.position_add_length_cons]
          simp only [haccept]
          exact .settled (some token) rfl
      | goOn following =>
          rw [Stop.position_add_length_cons]
          exact ih haccept following

end

/-- Taking the next token is the same on a decoder and on its cursor, also when an
error is met. -/
theorem nextToken_cursor (decoder : Decoder) :
    decoder.cursor.nextToken = (decoder.nextToken.1, decoder.nextToken.2.cursor) := by
  obtain ⟨stop, t, hcursor⟩ := decoder.cursor.exists_eq_behind
  have htaken := takeToken_behind hcursor .start
  rw [hcursor]
  cases t with
  | nil =>
      have hend : (stop.behind [] decoder.cursor.position).nextToken =
          Pulled.map (fun _ => none) (stop.answer decoder.cursor.position) := by
        rw [Cursor.nextToken, Stop.textBefore_behind, Stop.next_behind_nil]
        rfl
      rw [hend]
      exact (Pulls.atEnd none stop _).unique htaken
  | cons c t =>
      rw [Token.Stage.reading_start] at htaken
      exact (stop.nextToken_behind_cons c t _).unique htaken

/-- Over any source and in any state, a decoder and its cursor give the same answer
to an operation, and stay together.  A character is only put back when none is
pending. -/
theorem perform_cursor (decoder : Decoder) (operation : Cursor.Operation)
    (h : ∀ c, operation = .unread c → decoder.pending = none) :
    decoder.cursor.perform operation =
      ((decoder.perform operation).1, (decoder.perform operation).2.cursor) := by
  cases operation with
  | token => rw [Cursor.perform, nextToken_cursor, perform]
  | next => rw [Cursor.perform, next_cursor, perform]
  | peek => rw [Cursor.perform, peek_cursor, perform]
  | unread c => rw [Cursor.perform, unread_cursor (h c rfl), perform]
  | position => rfl
  | release => rfl

end Decoder

end SqlScript

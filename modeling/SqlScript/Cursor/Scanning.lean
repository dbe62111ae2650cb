/-
Raw scans on a decoder.  A scan goes round by round.  Each round takes a character,
and one more where a keyword could be complete; that one is put back unless it
makes the keyword a directive.  No other reader of a script puts anything back, so
the rounds tell of every decoder to which that happens.
-/
import SqlScript.Cursor.Decoder
import SqlScript.Event

namespace SqlScript.Decoder

/-- Take characters through the first one that satisfies `p`. -/
def takeThrough (p : Char → Bool) (decoder : Decoder) : Except ReadError Text × Decoder :=
  match _h : decoder.next with
  | (.error e, behind) => (.error e, behind)
  | (.ok none, behind) => (.ok [], behind)
  | (.ok (some c), behind) =>
      if p c then (.ok [c], behind)
      else
        let others := takeThrough p behind
        (others.1.map (c :: ·), others.2)
termination_by decoder.size
decreasing_by exact size_next_lt _h

/-- Take the rest of a directive, of which `lead` was already taken behind its
keyword. -/
def takeDirective (keyword : Text) (lead : Char) (decoder : Decoder) :
    Except ReadError Directive × Decoder :=
  if Directive.endsDirective lead then (.ok ⟨keyword, [lead]⟩, decoder)
  else
    let tail := decoder.takeThrough Directive.endsDirective
    (tail.1.map (⟨keyword, lead :: ·⟩), tail.2)

/-- What a round of a raw scan finds. -/
inductive Finding where
  /-- What the scan was for. -/
  | event (event : Event)
  /-- Nothing yet; the scan goes on behind these characters, given last first. -/
  | nothing (seen : Text)
deriving Repr, DecidableEq

/-- A round of a raw scan. -/
structure Round where
  /-- The decoder at its beginning. -/
  start : Decoder
  found : Except ReadError Finding
  /-- The decoder to which a character was put back, as it was before, if one was. -/
  putBack? : Option Decoder
  /-- The decoder at its end. -/
  behind : Decoder

/-- Whether the scan goes on behind a round. -/
def Round.goesOn (round : Round) : Bool :=
  match round.found with
  | .ok (.nothing _) => true
  | _ => false

theorem Round.goesOn_iff {round : Round} :
    round.goesOn = true ↔ ∃ following, round.found = .ok (.nothing following) := by
  rw [goesOn]
  split <;> simp_all

/-- The rest of a round that began at `start` and has come behind a keyword. -/
def passKeyword (start behind : Decoder) (before word : Text) : Round :=
  match behind.next with
  | (.error e, after) => ⟨start, .error e, none, after⟩
  | (.ok none, after) => ⟨start, .ok (.event (.remainder before.reverse word)), none, after⟩
  | (.ok (some d), after) =>
      if d = ';' then
        ⟨start, .ok (.event (.directive before.reverse ⟨word, [';']⟩)), none, after⟩
      else if Text.isBlank d then
        let directive := after.takeDirective word d
        ⟨start, directive.1.map fun d => .event (.directive before.reverse d), none, directive.2⟩
      else ⟨start, .ok (.nothing (word.reverse ++ before)), some after, after.unread d⟩

/-- One round of a scan for the delimiter `mark` or a directive, behind the
characters `seen`, given last first. -/
def scanRound (mark seen : Text) (decoder : Decoder) : Round :=
  match decoder.next with
  | (.error e, behind) => ⟨decoder, .error e, none, behind⟩
  | (.ok none, behind) => ⟨decoder, .ok (.event (.remainder seen.reverse [])), none, behind⟩
  | (.ok (some c), behind) =>
      if mark.reverse.isPrefixOf (c :: seen) then
        let text := ((c :: seen).drop mark.length).reverse
        ⟨decoder, .ok (.event (.statement text mark)), none, behind⟩
      else
        match Event.keywordAtEnd? (c :: seen) with
        | none => ⟨decoder, .ok (.nothing (c :: seen)), none, behind⟩
        | some (before, word) => decoder.passKeyword behind before word

/-- What a round behind the characters `seen` can be.  One that finds nothing takes
a character, and may take another one too and put that back. -/
inductive Round.Possible (start : Decoder) (seen : Text) : Round → Prop where
  | ends {found : Except ReadError Finding} {behind : Decoder}
      (h : ∀ following, found ≠ .ok (.nothing following)) :
      Possible start seen ⟨start, found, none, behind⟩
  | takes {behind : Decoder} {c : Char} (h : start.next = (.ok (some c), behind)) :
      Possible start seen ⟨start, .ok (.nothing (c :: seen)), none, behind⟩
  | putsBack {behind after : Decoder} {c d : Char} (h : start.next = (.ok (some c), behind))
      (hnext : behind.next = (.ok (some d), after)) :
      Possible start seen ⟨start, .ok (.nothing (c :: seen)), some after, after.unread d⟩

theorem possible_passKeyword {start behind : Decoder} {c : Char} {seen before word : Text}
    (h : start.next = (.ok (some c), behind))
    (hword : Event.keywordAtEnd? (c :: seen) = some (before, word)) :
    (start.passKeyword behind before word).Possible start seen := by
  have hseen := Event.keywordAtEnd?_eq_some hword
  rw [passKeyword]
  rcases hnext : behind.next with ⟨e | _ | d, after⟩
  · exact .ends (by simp)
  · exact .ends (by simp)
  simp only
  split
  · exact .ends (by simp)
  split
  · exact .ends (by cases (after.takeDirective word d).1 <;> simp [Except.map])
  · rw [hseen]
    exact .putsBack h hnext

theorem possible_scanRound (mark seen : Text) (decoder : Decoder) :
    (decoder.scanRound mark seen).Possible decoder seen := by
  rw [scanRound]
  rcases hnext : decoder.next with ⟨e | _ | c, behind⟩
  · exact .ends (by simp)
  · exact .ends (by simp)
  simp only
  split
  · exact .ends (by simp)
  split
  · exact .takes hnext
  · exact possible_passKeyword hnext ‹_›

theorem Round.Possible.start_eq {start : Decoder} {seen : Text} {round : Round}
    (h : round.Possible start seen) : round.start = start := by
  cases h <;> rfl

/-- A decoder that takes two characters loses more than it gets back. -/
theorem Round.Possible.size_lt {start : Decoder} {seen following : Text} {round : Round}
    (h : round.Possible start seen) (hfound : round.found = .ok (.nothing following)) :
    round.behind.size < start.size := by
  cases h with
  | ends hends => exact absurd hfound (hends following)
  | takes h => exact size_next_lt h
  | @putsBack _ after _ d h hnext =>
      -- Whatever was pending, no more than one character is pending again.
      have hback : (after.unread d).size ≤ after.size + 1 :=
        Nat.add_le_add_right (Nat.le_add_right _ _) 1
      have hfirst := size_next_lt h
      have hsecond := size_next_lt hnext
      simp only
      omega

/-- A raw scan with its rounds. -/
structure Scan where
  rounds : List Round
  found : Except ReadError Event
  behind : Decoder

/-- Scan for the delimiter `mark` or a directive, behind the characters `seen`,
given last first. -/
def scan (mark seen : Text) (decoder : Decoder) : Scan :=
  let round := decoder.scanRound mark seen
  match _h : round.found with
  | .error e => ⟨[round], .error e, round.behind⟩
  | .ok (.event event) => ⟨[round], .ok event, round.behind⟩
  | .ok (.nothing following) =>
      let others := scan mark following round.behind
      ⟨round :: others.rounds, others.found, others.behind⟩
termination_by decoder.size
decreasing_by exact (possible_scanRound mark seen decoder).size_lt _h

end SqlScript.Decoder

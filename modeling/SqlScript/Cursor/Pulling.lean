/-
Reading from a cursor one character at a time.  A reader takes the next
character or looks at it, and the first error that it meets stops it.  All
readers of a script can be written this way: those of tokens, the raw scan, and
the one that takes whatever event comes next.
-/
import SqlScript.Cursor.Basic
import SqlScript.Event

namespace SqlScript

/-- What a reader brings back from a cursor, and where it leaves the cursor. -/
abbrev Pulled (α : Type) := Except ReadError α × Cursor

namespace Pulled

variable {α β : Type}

def map (f : α → β) (pulled : Pulled α) : Pulled β :=
  (pulled.1.map f, pulled.2)

/-- Read on where a reader left the cursor, unless an error stopped it. -/
def andThen (pulled : Pulled α) (next : α → Cursor → Pulled β) : Pulled β :=
  match pulled with
  | (.ok a, cursor) => next a cursor
  | (.error e, cursor) => (.error e, cursor)

end Pulled

namespace Cursor

/-- Take the next character if it satisfies `p`. -/
def nextIf (p : Char → Bool) (cursor : Cursor) : Pulled (Option Char) :=
  Pulled.andThen cursor.peek fun found cursor =>
    match found with
    | none => (.ok none, cursor)
    | some c => if p c then cursor.next else (.ok none, cursor)

/-- Taking a character leaves less ahead. -/
theorem ahead_next_length_lt {cursor behind : Cursor} {c : Char}
    (h : cursor.next = (.ok (some c), behind)) : behind.ahead.length < cursor.ahead.length := by
  rw [next] at h
  split at h
  · rw [beyond] at h
    split at h <;> simp at h
  · rename_i d others hahead
    obtain ⟨-, rfl⟩ := Prod.mk.inj h
    rw [hahead]
    exact Nat.lt_succ_self _
  · simp at h

theorem eq_of_next_eq_none {cursor behind : Cursor} (h : cursor.next = (.ok none, behind)) :
    behind = cursor := by
  rw [next] at h
  split at h
  · exact (Prod.mk.inj h).2.symm
  · simp at h
  · simp at h

theorem eq_of_peek_eq_ok {cursor seen : Cursor} {found : Option Char}
    (h : cursor.peek = (.ok found, seen)) : seen = cursor := by
  rw [peek] at h
  split at h
  · exact (Prod.mk.inj h).2.symm
  · exact (Prod.mk.inj h).2.symm
  · simp at h

/-- Looking at a character either leaves it or takes it. -/
theorem nextIf_cases {p : Char → Bool} {cursor behind : Cursor} {found : Option Char}
    (h : cursor.nextIf p = (.ok found, behind)) :
    (found = none ∧ behind = cursor) ∨ cursor.next = (.ok found, behind) := by
  rw [nextIf] at h
  rcases hpeek : cursor.peek with ⟨e | peeked, seen⟩
  · simp [hpeek, Pulled.andThen] at h
  · obtain rfl := eq_of_peek_eq_ok hpeek
    rw [hpeek, Pulled.andThen] at h
    split at h
    · exact .inl (by simpa [eq_comm] using h)
    · split at h
      · exact .inr h
      · exact .inl (by simpa [eq_comm] using h)

theorem ahead_nextIf_length_lt {p : Char → Bool} {cursor behind : Cursor} {c : Char}
    (h : cursor.nextIf p = (.ok (some c), behind)) :
    behind.ahead.length < cursor.ahead.length := by
  rcases nextIf_cases h with ⟨hnone, -⟩ | hnext
  · exact absurd hnone (by simp)
  · exact ahead_next_length_lt hnext

theorem eq_of_nextIf_eq_none {p : Char → Bool} {cursor behind : Cursor}
    (h : cursor.nextIf p = (.ok none, behind)) : behind = cursor := by
  rcases nextIf_cases h with ⟨-, hbehind⟩ | hnext
  · exact hbehind
  · exact eq_of_next_eq_none hnext

/-- Take characters through the first one that satisfies `p`. -/
def pullThrough (p : Char → Bool) (cursor : Cursor) : Pulled Text :=
  match _h : cursor.next with
  | (.error e, behind) => (.error e, behind)
  | (.ok none, behind) => (.ok [], behind)
  | (.ok (some c), behind) =>
      if p c then (.ok [c], behind)
      else Pulled.map (c :: ·) (pullThrough p behind)
termination_by cursor.ahead.length
decreasing_by exact ahead_next_length_lt _h

theorem pullThrough_eq (p : Char → Bool) (cursor : Cursor) :
    cursor.pullThrough p =
      match cursor.next with
      | (.error e, behind) => (.error e, behind)
      | (.ok none, behind) => (.ok [], behind)
      | (.ok (some c), behind) =>
          if p c then (.ok [c], behind)
          else Pulled.map (c :: ·) (behind.pullThrough p) := by
  rw [pullThrough]
  split <;> simp only [*]

/-- Take characters as long as they satisfy `p`. -/
def pullRun (p : Char → Bool) (cursor : Cursor) : Pulled Text :=
  match _h : cursor.nextIf p with
  | (.error e, behind) => (.error e, behind)
  | (.ok none, behind) => (.ok [], behind)
  | (.ok (some c), behind) => Pulled.map (c :: ·) (pullRun p behind)
termination_by cursor.ahead.length
decreasing_by exact ahead_nextIf_length_lt _h

theorem pullRun_eq (p : Char → Bool) (cursor : Cursor) :
    cursor.pullRun p =
      match cursor.nextIf p with
      | (.error e, behind) => (.error e, behind)
      | (.ok none, behind) => (.ok [], behind)
      | (.ok (some c), behind) => Pulled.map (c :: ·) (behind.pullRun p) := by
  rw [pullRun]
  split <;> simp only [*]

/-- Take a quoted literal behind its opening quote, through the first quote that
is not doubled. -/
def pullQuoted (quote : Char) (cursor : Cursor) : Pulled Text :=
  match _h : cursor.next with
  | (.error e, behind) => (.error e, behind)
  | (.ok none, behind) => (.ok [], behind)
  | (.ok (some c), behind) =>
      if c = quote then
        match _hdoubled : behind.nextIf (· == quote) with
        | (.error e, behind) => (.error e, behind)
        | (.ok none, behind) => (.ok [c], behind)
        | (.ok (some d), behind) => Pulled.map (c :: d :: ·) (pullQuoted quote behind)
      else Pulled.map (c :: ·) (pullQuoted quote behind)
termination_by cursor.ahead.length
decreasing_by
  · exact Nat.lt_trans (ahead_nextIf_length_lt _hdoubled) (ahead_next_length_lt _h)
  · exact ahead_next_length_lt _h

theorem pullQuoted_eq (quote : Char) (cursor : Cursor) :
    cursor.pullQuoted quote =
      match cursor.next with
      | (.error e, behind) => (.error e, behind)
      | (.ok none, behind) => (.ok [], behind)
      | (.ok (some c), behind) =>
          if c = quote then
            match behind.nextIf (· == quote) with
            | (.error e, behind) => (.error e, behind)
            | (.ok none, behind) => (.ok [c], behind)
            | (.ok (some d), behind) => Pulled.map (c :: d :: ·) (behind.pullQuoted quote)
          else Pulled.map (c :: ·) (behind.pullQuoted quote) := by
  rw [pullQuoted]
  split
  · simp only [*]
  · simp only [*]
  · rename_i c behind hnext
    simp only [hnext]
    split
    · split <;> simp only [*]
    · rfl

/-- Take a block comment behind its opening, through the first closing. -/
def pullComment (cursor : Cursor) : Pulled Text :=
  match _h : cursor.next with
  | (.error e, behind) => (.error e, behind)
  | (.ok none, behind) => (.ok [], behind)
  | (.ok (some c), behind) =>
      if c = '*' then
        match _hclosed : behind.nextIf (· == '/') with
        | (.error e, behind) => (.error e, behind)
        | (.ok none, behind) => Pulled.map (c :: ·) (pullComment behind)
        | (.ok (some d), behind) => (.ok [c, d], behind)
      else Pulled.map (c :: ·) (pullComment behind)
termination_by cursor.ahead.length
decreasing_by
  · rw [eq_of_nextIf_eq_none _hclosed]
    exact ahead_next_length_lt _h
  · exact ahead_next_length_lt _h

theorem pullComment_eq (cursor : Cursor) :
    cursor.pullComment =
      match cursor.next with
      | (.error e, behind) => (.error e, behind)
      | (.ok none, behind) => (.ok [], behind)
      | (.ok (some c), behind) =>
          if c = '*' then
            match behind.nextIf (· == '/') with
            | (.error e, behind) => (.error e, behind)
            | (.ok none, behind) => Pulled.map (c :: ·) behind.pullComment
            | (.ok (some d), behind) => (.ok [c, d], behind)
          else Pulled.map (c :: ·) behind.pullComment := by
  rw [pullComment]
  split
  · simp only [*]
  · simp only [*]
  · rename_i c behind hnext
    simp only [hnext]
    split
    · split <;> simp only [*]
    · rfl

/-- Take characters behind those in `seen`, given last character first, until
all of them end with `mark`. -/
def pullUntil (mark seen : Text) (cursor : Cursor) : Pulled Text :=
  match _h : cursor.next with
  | (.error e, behind) => (.error e, behind)
  | (.ok none, behind) => (.ok seen.reverse, behind)
  | (.ok (some c), behind) =>
      if mark.reverse.isPrefixOf (c :: seen) then (.ok (c :: seen).reverse, behind)
      else pullUntil mark (c :: seen) behind
termination_by cursor.ahead.length
decreasing_by exact ahead_next_length_lt _h

theorem pullUntil_eq (mark seen : Text) (cursor : Cursor) :
    cursor.pullUntil mark seen =
      match cursor.next with
      | (.error e, behind) => (.error e, behind)
      | (.ok none, behind) => (.ok seen.reverse, behind)
      | (.ok (some c), behind) =>
          if mark.reverse.isPrefixOf (c :: seen) then (.ok (c :: seen).reverse, behind)
          else behind.pullUntil mark (c :: seen) := by
  rw [pullUntil]
  split <;> simp only [*]

/-- Take the rest of a directive; `lead` is what was already taken of it behind
its keyword. -/
def pullDirective (keyword : Text) (lead : Option Char) (cursor : Cursor) : Pulled Directive :=
  match lead with
  | none => Pulled.map (⟨keyword, ·⟩) (cursor.pullThrough Directive.endsDirective)
  | some c =>
      if Directive.endsDirective c then (.ok ⟨keyword, [c]⟩, cursor)
      else Pulled.map (⟨keyword, c :: ·⟩) (cursor.pullThrough Directive.endsDirective)

/-- Take a dollar sign and read on behind it; without one, the token is
`otherwise`. -/
def pullBehindDollar (otherwise : Token) (next : Cursor → Pulled Token) (cursor : Cursor) :
    Pulled Token :=
  Pulled.andThen (cursor.nextIf (· == '$')) fun dollar cursor =>
    if dollar = none then (.ok otherwise, cursor) else next cursor

/-- Take a dollar-quoted body behind its opening tag. -/
def pullTagged (lead tag : Text) (cursor : Cursor) : Pulled Token :=
  Pulled.map (fun body => .text (lead ++ '$' :: tag ++ '$' :: body))
    (cursor.pullUntil ('$' :: tag ++ ['$']) [])

/-- Take an opening tag behind its first dollar sign, and the body behind it. -/
def pullTag (lead : Text) (cursor : Cursor) : Pulled Token :=
  Pulled.andThen (cursor.pullRun Text.isWordChar) fun tag cursor =>
    cursor.pullBehindDollar (.text (lead ++ '$' :: tag)) (pullTagged lead tag)

/-- Take what follows the keyword that may introduce a dollar-quoted body. -/
def pullBody (word : Text) (cursor : Cursor) : Pulled Token :=
  Pulled.andThen (cursor.pullRun Text.isBlank) fun blanks cursor =>
    cursor.pullBehindDollar (.text (word ++ blanks)) (pullTag (word ++ blanks))

/-- Take the rest of the token that begins with a complete word. -/
def pullBehindWord (word : Text) (cursor : Cursor) : Pulled Token :=
  match Keyword.ofWord? word with
  | some .blockBegin => (.ok (.blockOpen word), cursor)
  | some .blockEnd => (.ok (.blockClose word), cursor)
  | some .delimiter => Pulled.map .directive (cursor.pullDirective word none)
  | some .bodyAs => cursor.pullBody word
  | none => (.ok (.text word), cursor)

/-- Take the rest of the token that begins with `c`. -/
def pullBehind (c : Char) (cursor : Cursor) : Pulled Token :=
  if c = '\'' ∨ c = '"' then
    Pulled.map (fun body => .text (c :: body)) (cursor.pullQuoted c)
  else if c = '-' then
    Pulled.andThen cursor.peek fun found cursor =>
    if found = some '-' then
      Pulled.map (fun body => .text ('-' :: body)) (cursor.pullThrough (· == '\n'))
    else (.ok (.text ['-']), cursor)
  else if c = '/' then
    Pulled.andThen cursor.peek fun found cursor =>
    if found = some '*' then
      Pulled.andThen cursor.next fun star cursor =>
      Pulled.map (fun body => .text ('/' :: star.toList ++ body)) cursor.pullComment
    else (.ok (.text ['/']), cursor)
  else if c = ';' then (.ok .statementEnd, cursor)
  else if Text.isWordStart c then
    Pulled.andThen (cursor.pullRun Text.isWordChar) fun run cursor =>
      cursor.pullBehindWord (c :: run)
  else (.ok (.text [c]), cursor)

/-- Take the next token, if there is one. -/
def pullToken (cursor : Cursor) : Pulled (Option Token) :=
  Pulled.andThen cursor.next fun found cursor =>
  match found with
  | none => (.ok none, cursor)
  | some c => Pulled.map some (cursor.pullBehind c)

/-- Scan raw characters for the delimiter `mark` or a directive, behind the
characters `seen`, given last first.  The character behind a keyword is put back
unless it makes the keyword a directive. -/
def pullScan (mark seen : Text) (cursor : Cursor) : Pulled Event :=
  match _h : cursor.next with
  | (.error e, behind) => (.error e, behind)
  | (.ok none, behind) => (.ok (.remainder seen.reverse []), behind)
  | (.ok (some c), behind) =>
      if mark.reverse.isPrefixOf (c :: seen) then
        (.ok (.statement ((c :: seen).drop mark.length).reverse mark), behind)
      else
        match Event.keywordAtEnd? (c :: seen) with
        | none => pullScan mark (c :: seen) behind
        | some (before, word) =>
            match _hbehind : behind.next with
            | (.error e, after) => (.error e, after)
            | (.ok none, after) => (.ok (.remainder before.reverse word), after)
            | (.ok (some d), after) =>
                if d = ';' then (.ok (.directive before.reverse ⟨word, [';']⟩), after)
                else if Text.isBlank d then
                  Pulled.map (.directive before.reverse) (after.pullDirective word (some d))
                else pullScan mark (c :: seen) (after.unread d)
termination_by cursor.ahead.length
decreasing_by
  · exact ahead_next_length_lt _h
  · exact Nat.lt_of_le_of_lt (ahead_next_length_lt _hbehind) (ahead_next_length_lt _h)

theorem pullScan_eq (mark seen : Text) (cursor : Cursor) :
    cursor.pullScan mark seen =
      match cursor.next with
      | (.error e, behind) => (.error e, behind)
      | (.ok none, behind) => (.ok (.remainder seen.reverse []), behind)
      | (.ok (some c), behind) =>
          if mark.reverse.isPrefixOf (c :: seen) then
            (.ok (.statement ((c :: seen).drop mark.length).reverse mark), behind)
          else
            match Event.keywordAtEnd? (c :: seen) with
            | none => pullScan mark (c :: seen) behind
            | some (before, word) =>
                match behind.next with
                | (.error e, after) => (.error e, after)
                | (.ok none, after) => (.ok (.remainder before.reverse word), after)
                | (.ok (some d), after) =>
                    if d = ';' then (.ok (.directive before.reverse ⟨word, [';']⟩), after)
                    else if Text.isBlank d then
                      Pulled.map (.directive before.reverse) (after.pullDirective word (some d))
                    else pullScan mark (c :: seen) (after.unread d) := by
  rw [pullScan]
  split
  · simp only [*]
  · simp only [*]
  · rename_i c behind hnext
    simp only [hnext]
    split
    · rfl
    split
    · rfl
    · split <;> simp only [*]

/-- Take the next event while `mark` is the active delimiter.  A raw scan finds
one even at the end. -/
def pullEvent (mark : Text) (cursor : Cursor) : Pulled (Option Event) :=
  if mark = Event.semicolon then Pulled.map (Option.map .token) cursor.pullToken
  else Pulled.map some (cursor.pullScan mark [])

end Cursor

end SqlScript

/-
What a splitter meets next in a script.  Under the semicolon it meets tokens.
Under any other delimiter it scans raw characters for the delimiter or for a
directive that sets another one, whichever is complete first.
-/
import SqlScript.Token.Reader

namespace SqlScript

/-- The next thing in a script, with every character that it takes. -/
inductive Event where
  | token (token : Token)
  /-- Text up to the active delimiter, and the delimiter. -/
  | statement (text : Text) (mark : Text)
  /-- Text up to a directive, and the directive. -/
  | directive (preceding : Text) (directive : Directive)
  /-- Text up to the end of the script; `keyword` is a directive's keyword
  with nothing behind it, or empty. -/
  | remainder (text : Text) (keyword : Text)
deriving Repr, DecidableEq

namespace Event

/-- The characters of an event. -/
def lexeme : Event → Text
  | .token t => t.lexeme
  | .statement text mark => text ++ mark
  | .directive preceding d => preceding ++ d.lexeme
  | .remainder text keyword => text ++ keyword

/-- The delimiter that selects tokens rather than raw characters. -/
def semicolon : Text := [';']

/-- A directive's keyword may only follow the start of the text, a semicolon
or a blank; `before` is given last character first. -/
def atWordBoundary : (before : Text) → Bool
  | [] => true
  | c :: _ => c == ';' || Text.isBlank c

/-- Cut a directive's keyword off the end of what was scanned; ASCII case is
ignored.  Both `seen` and the text before the keyword are given last character
first. -/
def keywordAtEnd? (seen : Text) : Option (Text × Text) :=
  let length := Keyword.delimiter.spelling.length
  let word := (seen.take length).reverse
  let before := seen.drop length
  if word.map Char.toLower = Keyword.delimiter.spelling ∧ atWordBoundary before then
    some (before, word)
  else none

/-- What ends a raw scan once the characters `seen`, last first, have been
scanned and `t` is left.  The active delimiter goes before a keyword.  A keyword
counts only when a semicolon, a blank or the end of the text follows it. -/
def stopAfter? (mark seen t : Text) : Option (Reading Event) :=
  if mark.reverse.isPrefixOf seen then
    some (.settled (.statement (seen.drop mark.length).reverse mark) t)
  else
    match keywordAtEnd? seen with
    | none => none
    | some (before, word) =>
        match t with
        | [] => some (.cutShort (.remainder before.reverse word))
        | next :: _ =>
            if next = ';' ∨ Text.isBlank next then
              some ((Directive.read word t).map (.directive before.reverse))
            else none

/-- Scan raw characters for the delimiter `mark` or a directive, behind the
characters `seen`, given last first.  Each round takes one character. -/
def scanBehind (mark seen : Text) : Text → Reading Event
  | [] => .cutShort (.remainder seen.reverse [])
  | c :: t =>
      match stopAfter? mark (c :: seen) t with
      | some reading => reading
      | none => scanBehind mark (c :: seen) t

/-- Scan a text for the delimiter `mark` or a directive. -/
def scan (mark : Text) (t : Text) : Reading Event :=
  scanBehind mark [] t

/-- Read the event that begins with `c` while `mark` is the active delimiter. -/
def read (mark : Text) (c : Char) (t : Text) : Reading Event :=
  if mark = semicolon then (Token.read c t).map .token else scan mark (c :: t)

theorem keywordAtEnd?_eq_some {seen before word : Text}
    (h : keywordAtEnd? seen = some (before, word)) : word.reverse ++ before = seen := by
  simp only [keywordAtEnd?] at h
  split at h
  · obtain ⟨rfl, rfl⟩ := Prod.mk.inj (Option.some.inj h)
    rw [List.reverse_reverse, List.take_append_drop]
  · exact absurd h (by simp)

theorem stopAfter?_partitions {mark seen t : Text} {reading : Reading Event}
    (h : stopAfter? mark seen t = some reading) :
    reading.Partitions lexeme (seen.reverse ++ t) := by
  unfold stopAfter? at h
  split at h
  · rename_i hmark
    obtain rfl := Option.some.inj h
    have hseen := List.prefix_iff_eq_append.mp (List.isPrefixOf_iff_prefix.mp hmark)
    refine Reading.Partitions.settled ?_
    rw [List.length_reverse] at hseen
    rw [← congrArg List.reverse hseen]
    simp [lexeme]
  split at h
  · exact absurd h (by simp)
  rename_i before word hword
  have hseen := congrArg List.reverse (keywordAtEnd?_eq_some hword)
  rw [List.reverse_append, List.reverse_reverse] at hseen
  split at h
  · obtain rfl := Option.some.inj h
    exact Reading.Partitions.cutShort (by simp [lexeme, hseen])
  · rename_i next rest
    split at h
    · obtain rfl := Option.some.inj h
      have hread : Reading.Partitions lexeme
          ((Directive.read word (next :: rest)).map (.directive before.reverse))
          (before.reverse ++ (word ++ next :: rest)) :=
        (Directive.read_partitions word (next :: rest)).map before.reverse fun _ => rfl
      rwa [← List.append_assoc, hseen] at hread
    · exact absurd h (by simp)

theorem scanBehind_partitions (mark seen t : Text) :
    (scanBehind mark seen t).Partitions lexeme (seen.reverse ++ t) := by
  induction t generalizing seen with
  | nil => exact Reading.Partitions.cutShort (by simp [lexeme])
  | cons c t ih =>
      rw [scanBehind]
      split
      · rename_i reading hreading
        simpa using stopAfter?_partitions hreading
      · simpa using ih (c :: seen)

/-- The lexeme of an event and what is left behind it are the text that the
event was read from. -/
theorem read_partitions (mark : Text) (c : Char) (t : Text) :
    (read mark c t).Partitions lexeme (c :: t) := by
  unfold read
  split
  · exact (Token.read_partitions c t).map [] fun _ => rfl
  · exact scanBehind_partitions mark [] (c :: t)

theorem rest_stopAfter?_length_le {mark seen t : Text} {reading : Reading Event}
    (h : stopAfter? mark seen t = some reading) : reading.rest.length ≤ t.length := by
  unfold stopAfter? at h
  split at h
  · obtain rfl := Option.some.inj h
    exact Nat.le_refl _
  split at h
  · exact absurd h (by simp)
  rename_i before word _
  split at h
  · obtain rfl := Option.some.inj h
    exact Nat.le_refl _
  · rename_i next rest
    split at h
    · obtain rfl := Option.some.inj h
      rw [Reading.rest_map, Directive.read, Reading.rest_map]
      exact (Reading.takeThrough_partitions _ _).rest_length_le
    · exact absurd h (by simp)

theorem rest_scanBehind_length_le (mark seen t : Text) :
    (scanBehind mark seen t).rest.length ≤ t.length := by
  induction t generalizing seen with
  | nil => exact Nat.le_refl _
  | cons c t ih =>
      rw [scanBehind]
      split
      · rename_i reading hreading
        exact Nat.le_succ_of_le (rest_stopAfter?_length_le hreading)
      · exact Nat.le_succ_of_le (ih (c :: seen))

/-- Reading an event takes at least one character. -/
theorem rest_read_length_lt (mark : Text) (c : Char) (t : Text) :
    (read mark c t).rest.length < (c :: t).length := by
  unfold read
  split
  · rw [Reading.rest_map]
    exact Token.rest_read_length_lt c t
  · rw [scan, scanBehind]
    split
    · rename_i reading hreading
      exact Nat.lt_succ_of_le (rest_stopAfter?_length_le hreading)
    · exact Nat.lt_succ_of_le (rest_scanBehind_length_le mark [c] t)

end Event

end SqlScript

/-
What a reader finds at the front of a text.  A reading is settled when it was
decided by the characters it took, so that nothing behind them can change it;
it is cut short when the reader met the end of the text while it still looked
for more, and then it took the whole text.
-/
import SqlScript.Text.Basic

namespace SqlScript

/-- The outcome of reading from the front of a text. -/
inductive Reading (α : Type) where
  /-- Decided by the characters in front of `rest`. -/
  | settled (value : α) (rest : Text)
  /-- The text ended before the reading was decided. -/
  | cutShort (value : α)
deriving Repr, DecidableEq

namespace Reading

variable {α β : Type}

/-- What was read, taking the end of the text for the end of the script. -/
def value : Reading α → α
  | .settled a _ => a
  | .cutShort a => a

/-- What is left behind a reading. -/
def rest : Reading α → Text
  | .settled _ rest => rest
  | .cutShort _ => []

def map (f : α → β) : Reading α → Reading β
  | .settled a rest => .settled (f a) rest
  | .cutShort a => .cutShort (f a)

/-- Read on behind a reading.  After the end of the text there is nothing more
to read, and the whole stays cut short. -/
def andThen (r : Reading α) (next : α → Text → Reading β) : Reading β :=
  match r with
  | .settled a rest => next a rest
  | .cutShort a => .cutShort (next a []).value

@[simp] theorem value_settled (a : α) (t : Text) : (settled a t).value = a := rfl

@[simp] theorem value_cutShort (a : α) : (cutShort a).value = a := rfl

@[simp] theorem rest_settled (a : α) (t : Text) : (settled a t).rest = t := rfl

@[simp] theorem rest_cutShort (a : α) : (cutShort a).rest = [] := rfl

@[simp] theorem value_map (f : α → β) (r : Reading α) : (r.map f).value = f r.value := by
  cases r <;> rfl

@[simp] theorem rest_map (f : α → β) (r : Reading α) : (r.map f).rest = r.rest := by
  cases r <;> rfl

@[simp] theorem value_andThen (r : Reading α) (next : α → Text → Reading β) :
    (r.andThen next).value = (next r.value r.rest).value := by
  cases r <;> rfl

/-- Read the maximal run of characters that satisfy `p`. -/
def takeRun (p : Char → Bool) : Text → Reading Text
  | [] => .cutShort []
  | c :: rest =>
      if p c then (takeRun p rest).map (c :: ·)
      else .settled [] (c :: rest)

/-- Read through the first character that satisfies `p`. -/
def takeThrough (p : Char → Bool) : Text → Reading Text
  | [] => .cutShort []
  | c :: rest =>
      if p c then .settled [c] rest
      else (takeThrough p rest).map (c :: ·)

/-- Read through the first occurrence of `mark`. -/
def takeThroughMark (mark : Text) : Text → Reading Text
  | [] => .cutShort []
  | c :: rest =>
      if mark.isPrefixOf (c :: rest) then .settled mark ((c :: rest).drop mark.length)
      else (takeThroughMark mark rest).map (c :: ·)

/-- A reading partitions a text when its lexeme and what is left behind it are
that text. -/
def Partitions (lexeme : α → Text) (r : Reading α) (t : Text) : Prop :=
  lexeme r.value ++ r.rest = t

theorem Partitions.settled {lexeme : α → Text} {a : α} {rest t : Text}
    (h : lexeme a ++ rest = t) : Partitions lexeme (.settled a rest) t := h

theorem Partitions.cutShort {lexeme : α → Text} {a : α} {t : Text} (h : lexeme a = t) :
    Partitions lexeme (.cutShort a) t := by
  simp [Partitions, h]

/-- Lexemes may be rewritten along a map that puts `lead` in front. -/
theorem Partitions.map {lexeme : α → Text} {lexeme' : β → Text} {f : α → β} {r : Reading α}
    {t : Text} (h : Partitions lexeme r t) (lead : Text)
    (hf : ∀ a, lexeme' (f a) = lead ++ lexeme a) :
    Partitions lexeme' (r.map f) (lead ++ t) := by
  simp only [Partitions, value_map, rest_map, hf, List.append_assoc] at *
  rw [h]

theorem Partitions.cons {r : Reading Text} {t : Text} (h : Partitions id r t) (c : Char) :
    Partitions id (r.map (c :: ·)) (c :: t) :=
  h.map [c] fun _ => rfl

/-- Reading on keeps the partition when each continuation partitions what it
has behind the first lexeme, and leaves nothing when there is nothing. -/
theorem Partitions.andThen {lexeme : α → Text} {lexeme' : β → Text} {r : Reading α}
    {next : α → Text → Reading β} {t : Text} (h : Partitions lexeme r t) (lead : Text)
    (hnext : ∀ a rest, Partitions lexeme' (next a rest) (lead ++ (lexeme a ++ rest)))
    (hend : ∀ a, (next a []).rest = []) :
    Partitions lexeme' (r.andThen next) (lead ++ t) := by
  cases r with
  | settled a rest =>
      have hsplit := hnext a rest
      rw [show lexeme a ++ rest = t from h] at hsplit
      exact hsplit
  | cutShort a =>
      have hsplit := hnext a []
      rw [show lexeme a ++ [] = t from h, Partitions, hend, List.append_nil] at hsplit
      exact Partitions.cutShort hsplit

theorem takeRun_partitions (p : Char → Bool) (t : Text) :
    Partitions id (takeRun p t) t := by
  induction t with
  | nil => rfl
  | cons c rest ih =>
      by_cases hc : p c = true
      · simpa [takeRun, hc] using ih.cons c
      · simp [takeRun, hc, Partitions]

theorem takeThrough_partitions (p : Char → Bool) (t : Text) :
    Partitions id (takeThrough p t) t := by
  induction t with
  | nil => rfl
  | cons c rest ih =>
      by_cases hc : p c = true
      · simp [takeThrough, hc, Partitions]
      · simpa [takeThrough, hc] using ih.cons c

theorem takeThroughMark_partitions (mark t : Text) :
    Partitions id (takeThroughMark mark t) t := by
  induction t with
  | nil => rfl
  | cons c rest ih =>
      by_cases hc : mark.isPrefixOf (c :: rest) = true
      · have hmark := List.prefix_iff_eq_append.mp (List.isPrefixOf_iff_prefix.mp hc)
        simpa [takeThroughMark, hc, Partitions] using hmark
      · simpa [takeThroughMark, hc] using ih.cons c

/-- What is left behind a reading is no longer than what it found. -/
theorem Partitions.rest_length_le {lexeme : α → Text} {r : Reading α} {t : Text}
    (h : Partitions lexeme r t) : r.rest.length ≤ t.length := by
  have hlength := congrArg List.length h
  simp only [List.length_append] at hlength
  omega

/-- A reading that takes something leaves less than it found. -/
theorem Partitions.rest_length_lt {lexeme : α → Text} {r : Reading α} {t : Text}
    (h : Partitions lexeme r t) (hne : lexeme r.value ≠ []) : r.rest.length < t.length := by
  have hlength := congrArg List.length h
  have hpos := List.length_pos_iff.mpr hne
  simp only [List.length_append] at hlength
  omega

@[simp] theorem rest_takeRun_nil (p : Char → Bool) : (takeRun p []).rest = [] := rfl

@[simp] theorem rest_takeThrough_nil (p : Char → Bool) : (takeThrough p []).rest = [] := rfl

@[simp] theorem rest_takeThroughMark_nil (mark : Text) :
    (takeThroughMark mark []).rest = [] := rfl

end Reading

end SqlScript

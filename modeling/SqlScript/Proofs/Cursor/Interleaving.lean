/-
Single characters and tokens may be taken from one text in any order.  A cursor
over it is known from the text that is left and from its position.  Bytes, a
pending character and who drives the cursor make no difference, as long as a
character is only put back right behind taking one.
-/
import SqlScript.Proofs.Cursor.Decoding
import SqlScript.Proofs.Token.Lossless

namespace SqlScript

namespace Cursor

/-- What is left of a text, and how many characters have been taken. -/
structure Spot where
  left : Text
  position : Nat
deriving Repr, DecidableEq

/-- Whether an operation puts a character back. -/
def Operation.putsBack : Operation → Bool
  | .unread _ => true
  | _ => false

namespace Spot

/-- Take the first token of the text that is left. -/
def takeToken (spot : Spot) : Option Token × Spot :=
  match (Token.lex spot.left).head? with
  | none => (none, spot)
  | some token =>
      (some token, ⟨spot.left.drop token.lexeme.length, spot.position + token.lexeme.length⟩)

/-- Take the first character. -/
def takeChar (spot : Spot) : Option Char × Spot :=
  match spot.left with
  | [] => (none, spot)
  | c :: t => (some c, ⟨t, spot.position + 1⟩)

/-- The answer to an operation, and the spot behind it. -/
def perform (spot : Spot) : Operation → Answer × Spot
  | .token => (.token spot.takeToken.1, spot.takeToken.2)
  | .next => (.char spot.takeChar.1, spot.takeChar.2)
  | .peek => (.char spot.left.head?, spot)
  | .unread c => (.nothing, ⟨c :: spot.left, spot.position - 1⟩)
  | .position => (.nothing, spot)
  | .release => (.nothing, spot)

def performAll (spot : Spot) : List Operation → List (Answer × Nat)
  | [] => []
  | operation :: others =>
      let (answer, spot) := spot.perform operation
      (answer, spot.position) :: performAll spot others

/-- The spot behind some operations. -/
def after (spot : Spot) (operations : List Operation) : Spot :=
  operations.foldl (fun spot operation => (spot.perform operation).2) spot

/-- Whether a character was just taken, when `taken` tells it for the operations
before.  Asking for the position or handing the cursor over changes nothing. -/
def justTook (spot : Spot) (taken : Bool) : Operation → Bool
  | .next => !spot.left.isEmpty
  | .position => taken
  | .release => taken
  | _ => false

/-- Whether characters are only put back right behind taking one. -/
def permits (spot : Spot) (taken : Bool) : List Operation → Bool
  | [] => true
  | operation :: others =>
      (!operation.putsBack || taken) &&
        permits (spot.perform operation).2 (spot.justTook taken operation) others

variable {spot : Spot} {taken : Bool} {operation : Operation} {others : List Operation}

theorem permits_cons (h : spot.permits taken (operation :: others) = true) :
    (operation.putsBack = true → taken = true) ∧
      (spot.perform operation).2.permits (spot.justTook taken operation) others = true := by
  rw [permits, Bool.and_eq_true, Bool.or_eq_true, Bool.not_eq_true'] at h
  refine ⟨fun hback => ?_, h.2⟩
  rcases h.1 with hnot | htaken
  · exact absurd (hback.symm.trans hnot) (by decide)
  · exact htaken

theorem takeToken_nil (position : Nat) :
    (Spot.mk [] position).takeToken = (none, ⟨[], position⟩) := by
  rw [takeToken, Token.lex_nil]
  rfl

theorem takeToken_cons (c : Char) (t : Text) (position : Nat) :
    (Spot.mk (c :: t) position).takeToken = (some (Token.read c t).value,
      ⟨(Token.read c t).rest, position + (Token.read c t).value.lexeme.length⟩) := by
  have hsplit : (Token.read c t).value.lexeme ++ (Token.read c t).rest = c :: t :=
    Token.read_partitions c t
  have hrest : (c :: t).drop (Token.read c t).value.lexeme.length = (Token.read c t).rest := by
    rw [← hsplit, List.drop_left]
  rw [takeToken, Token.lex_cons, List.head?_cons]
  simp only [hrest]

/-- There is a token exactly when there is text left. -/
theorem takeToken_eq_none_iff (spot : Spot) : spot.takeToken.1 = none ↔ spot.left = [] := by
  rcases spot with ⟨left, position⟩
  cases left with
  | nil => simp [takeToken_nil]
  | cons c t => simp [takeToken_cons]

/-- A token is a nonempty prefix of the text that is left, and just that is taken. -/
theorem takeToken_eq_some {token : Token} (h : spot.takeToken.1 = some token) :
    token.lexeme ≠ [] ∧ token.lexeme ++ spot.takeToken.2.left = spot.left ∧
      spot.takeToken.2.position = spot.position + token.lexeme.length := by
  rcases spot with ⟨left, position⟩
  cases left with
  | nil => simp [takeToken_nil] at h
  | cons c t =>
      rw [takeToken_cons] at h ⊢
      obtain rfl : (Token.read c t).value = token := Option.some.inj h
      exact ⟨Token.lexeme_read_ne_nil c t, Token.read_partitions c t, rfl⟩

/-- What is left of the text `t` at a spot.  Only its first character can be another
one, put back in place of the one taken last. -/
structure Within (t : Text) (taken : Bool) (spot : Spot) : Prop where
  length : spot.position + spot.left.length = t.length
  tail : spot.left.tail = t.drop (spot.position + 1)
  justTaken : taken = true → 0 < spot.position ∧ spot.left = t.drop spot.position

variable {t : Text}

theorem within_start (t : Text) : Within t false ⟨t, 0⟩ where
  length := Nat.zero_add t.length
  tail := List.drop_one.symm
  justTaken h := absurd h Bool.false_ne_true

/-- A nonempty part may be taken off, whatever its first character is. -/
theorem Within.drop {front rest : Text} {position : Nat}
    (h : Within t taken ⟨front ++ rest, position⟩) (hne : front ≠ []) (taken' : Bool) :
    Within t taken' ⟨rest, position + front.length⟩ := by
  obtain ⟨c, others, rfl⟩ := List.exists_cons_of_ne_nil hne
  have hlength := h.length
  have htail : others ++ rest = t.drop (position + 1) := h.tail
  have hrest : rest = t.drop (position + (c :: others).length) := by
    rw [List.length_cons, Nat.add_comm others.length, ← Nat.add_assoc, ← List.drop_drop, ← htail,
      List.drop_left]
  refine ⟨?_, ?_, fun _ => ⟨Nat.add_pos_right _ (Nat.succ_pos _), hrest⟩⟩
  · rw [← hlength, List.length_append, Nat.add_assoc]
  · rw [← List.tail_drop, ← hrest]

/-- No operation loses or repeats a character. -/
theorem Within.perform (h : Within t taken spot)
    (hback : operation.putsBack = true → taken = true) :
    Within t (spot.justTook taken operation) (spot.perform operation).2 := by
  have hlooked : Within t false spot :=
    ⟨h.length, h.tail, fun hfalse => absurd hfalse Bool.false_ne_true⟩
  cases operation with
  | token =>
      rcases spot with ⟨left, position⟩
      cases left with
      | nil =>
          rw [Spot.perform, takeToken_nil]
          exact hlooked
      | cons c rest =>
          have hsplit : (Token.read c rest).value.lexeme ++ (Token.read c rest).rest = c :: rest :=
            Token.read_partitions c rest
          rw [← hsplit] at hlooked
          rw [Spot.perform, takeToken_cons]
          exact hlooked.drop (Token.lexeme_read_ne_nil c rest) false
  | next =>
      rcases spot with ⟨left, position⟩
      cases left with
      | nil => exact hlooked
      | cons c rest =>
          have hsplit : Within t taken ⟨[c] ++ rest, position⟩ := h
          exact hsplit.drop (List.cons_ne_nil c []) true
  | unread c =>
      obtain ⟨hpos, hleft⟩ := h.justTaken (hback rfl)
      have hlength := h.length
      have hposition : spot.position - 1 + 1 = spot.position := by omega
      refine ⟨?_, ?_, fun hfalse => absurd hfalse Bool.false_ne_true⟩
      · simp only [perform, List.length_cons]
        omega
      · simp only [perform, List.tail_cons, hposition, hleft]
  | peek => exact hlooked
  | position => exact h
  | release => exact h

theorem Within.after {before : List Operation} (h : Within t taken spot)
    (hpermits : spot.permits taken (before ++ others) = true) :
    ∃ taken', Within t taken' (spot.after before) := by
  induction before generalizing spot taken with
  | nil => exact ⟨taken, h⟩
  | cons operation before ih =>
      obtain ⟨hback, hothers⟩ := permits_cons hpermits
      exact ih (h.perform hback) hothers

/-- Operations stay permitted without those that only look. -/
theorem permits_filter {taken' : Bool} {operations : List Operation}
    (htaken : taken = true → taken' = true) (h : spot.permits taken operations = true) :
    spot.permits taken' (operations.filter (· != .peek)) = true := by
  induction operations generalizing spot taken taken' with
  | nil => rfl
  | cons operation others ih =>
      obtain ⟨hback, hothers⟩ := permits_cons h
      by_cases hpeek : operation = .peek
      · subst hpeek
        rw [List.filter_cons_of_neg (by decide)]
        exact ih (fun hfalse => absurd hfalse Bool.false_ne_true) hothers
      · rw [List.filter_cons_of_pos (by simpa using hpeek), permits, Bool.and_eq_true]
        constructor
        · cases hputsBack : operation.putsBack with
          | false => rfl
          | true => exact htaken (hback hputsBack)
        · apply ih ?_ hothers
          cases operation with
          | position => exact htaken
          | release => exact htaken
          | _ => exact id

end Spot

/-- A cursor in front of a spot's text. -/
def Spot.cursor (spot : Spot) : Cursor :=
  facing spot.left spot.position

theorem nextToken_spot (spot : Spot) :
    spot.cursor.nextToken = (.ok spot.takeToken.1, spot.takeToken.2.cursor) := by
  rcases spot with ⟨left, position⟩
  cases left with
  | nil =>
      rw [Spot.takeToken_nil]
      exact nextToken_facing_nil position
  | cons c t =>
      rw [Spot.takeToken_cons]
      exact nextToken_facing_cons c t position

/-- A cursor over a text answers as the spot it stands at, and stays with it. -/
theorem perform_spot (spot : Spot) (operation : Operation) :
    spot.cursor.perform operation =
      (.ok (spot.perform operation).1, (spot.perform operation).2.cursor) := by
  rcases spot with ⟨left, position⟩
  cases operation with
  | token => rw [perform, nextToken_spot, Spot.perform, Except.map]
  | next => cases left <;> rfl
  | peek => cases left <;> rfl
  | unread c => rfl
  | position => rfl
  | release => rfl

/-- The answers of a spot as those of a cursor that meets no error. -/
def Spot.answers (spot : Spot) (operations : List Operation) : List (Except ReadError Answer × Nat) :=
  (spot.performAll operations).map fun (answer, position) => (.ok answer, position)

/-- Looking changes no other answer. -/
theorem Spot.answers_filter (spot : Spot) (operations : List Operation) :
    spot.answers (operations.filter (· != .peek)) =
      ((operations.zip (spot.answers operations)).filter (·.1 != .peek)).map (·.2) := by
  induction operations generalizing spot with
  | nil => rfl
  | cons operation others ih =>
      have hcons (operations : List Operation) : spot.answers (operation :: operations) =
          (.ok (spot.perform operation).1, (spot.perform operation).2.position) ::
            (spot.perform operation).2.answers operations := rfl
      rw [hcons, List.zip_cons_cons]
      by_cases hpeek : operation = .peek
      · subst hpeek
        exact ih spot
      · have hkept : (operation != .peek) = true := by simpa using hpeek
        rw [List.filter_cons, List.filter_cons, if_pos hkept, if_pos hkept, hcons, List.map_cons, ih]

theorem performAll_spot (spot : Spot) (operations : List Operation) :
    spot.cursor.performAll operations = spot.answers operations := by
  induction operations generalizing spot with
  | nil => rfl
  | cons operation others ih =>
      rw [performAll, perform_spot]
      exact congrArg (List.cons _) (ih _)

end Cursor

namespace Decoder

open Cursor

/-- A decoder that stands at a spot, with room for a character put back if one was
just taken. -/
structure StandsAt (decoder : Decoder) (spot : Spot) (taken : Bool) : Prop where
  cursor : decoder.cursor = spot.cursor
  free : taken = true → decoder.pending = none

variable {decoder : Decoder} {spot : Spot} {taken : Bool} {operation : Operation}
  {operations : List Operation}

theorem standsAt_ofText (t : Text) : (ofSource (.ofText t)).StandsAt ⟨t, 0⟩ false where
  cursor := Cursor.ofSource_ofText t
  free h := absurd h Bool.false_ne_true

/-- Taking a character leaves room for one to be put back. -/
theorem pending_next (decoder : Decoder) : decoder.next.2.pending = none := by
  rw [next]
  split
  · rfl
  · rename_i hpending
    have hkept := decoder.pending_decode
    rw [hpending] at hkept
    split <;> simp_all

/-- One operation keeps a decoder at the spot that gives the same answer. -/
theorem StandsAt.perform (h : decoder.StandsAt spot taken)
    (hback : operation.putsBack = true → taken = true) :
    (decoder.perform operation).1 = .ok (spot.perform operation).1 ∧
      (decoder.perform operation).2.StandsAt (spot.perform operation).2
        (spot.justTook taken operation) := by
  have hfree : ∀ c, operation = .unread c → decoder.pending = none := by
    rintro c rfl
    exact h.free (hback rfl)
  have hcursor := decoder.perform_cursor operation hfree
  rw [h.cursor, perform_spot] at hcursor
  obtain ⟨hanswer, hbehind⟩ := Prod.mk.inj hcursor
  refine ⟨hanswer.symm, hbehind.symm, fun htaken => ?_⟩
  cases operation with
  | next => exact decoder.pending_next
  | position => exact h.free htaken
  | release => exact h.free htaken
  | token => exact absurd htaken Bool.false_ne_true
  | peek => exact absurd htaken Bool.false_ne_true
  | unread c => exact absurd htaken Bool.false_ne_true

/-- A decoder gives the answers of its spot to all operations that put characters
back only right behind taking one. -/
theorem StandsAt.performAll (h : decoder.StandsAt spot taken)
    (hpermits : spot.permits taken operations = true) :
    decoder.performAll operations = spot.answers operations := by
  induction operations generalizing decoder spot taken with
  | nil => rfl
  | cons operation others ih =>
      obtain ⟨hback, hothers⟩ := Spot.permits_cons hpermits
      obtain ⟨hanswer, hbehind⟩ := h.perform hback
      have hposition : (decoder.perform operation).2.position =
          (spot.perform operation).2.position := congrArg Cursor.position hbehind.cursor
      rw [Decoder.performAll]
      simp only [hanswer, hposition, ih hbehind hothers]
      rfl

end Decoder

namespace Cursor

/-- Over any text, characters and tokens may be asked for in any order, and
characters put back right behind taking one.  Decoding bytes when they are needed
and holding all characters ahead give the same answers and positions: those of the
text that is left, of which a token takes just its lexeme.  No character is lost or
repeated, and looking changes no other answer. -/
theorem performAll_ofText (t : Text) (operations : List Operation)
    (h : (Spot.mk t 0).permits false operations = true) :
    let start : Spot := ⟨t, 0⟩
    let decoder := Decoder.ofSource (.ofText t)
    decoder.performAll operations = start.answers operations ∧
      (ofSource (.ofText t)).performAll operations = start.answers operations ∧
      (∀ before others, operations = before ++ others →
        let spot := start.after before
        spot.position + spot.left.length = t.length ∧
          spot.left.tail = t.drop (spot.position + 1) ∧
          (spot.takeToken.1 = none ↔ spot.left = []) ∧
          ∀ token, spot.takeToken.1 = some token →
            token.lexeme ≠ [] ∧ token.lexeme ++ spot.takeToken.2.left = spot.left ∧
              spot.takeToken.2.position = spot.position + token.lexeme.length) ∧
      decoder.performAll (operations.filter (· != .peek)) =
        ((operations.zip (decoder.performAll operations)).filter (·.1 != .peek)).map (·.2) := by
  intro start decoder
  have hstands : decoder.StandsAt start false := Decoder.standsAt_ofText t
  have hanswers := hstands.performAll h
  refine ⟨hanswers, ?_, ?_, ?_⟩
  · rw [ofSource_ofText]
    exact performAll_spot start operations
  · rintro before others rfl
    obtain ⟨taken, hwithin⟩ := (Spot.within_start t).after h
    exact ⟨hwithin.length, hwithin.tail, Spot.takeToken_eq_none_iff _,
      fun token => Spot.takeToken_eq_some⟩
  · rw [hanswers, ← Spot.answers_filter]
    exact hstands.performAll (Spot.permits_filter id h)

/-- A token may begin with a character that was put back in place of another one. -/
theorem performAll_putting_back :
    let operations : List Operation :=
      [.next, .unread 'B', .peek, .token, .release, .next, .unread ';', .token, .token]
    (Spot.mk "xy;".toList 0).permits false operations = true ∧
      (Decoder.ofSource (.ofText "xy;".toList)).performAll operations =
        [(.ok (.char (some 'x')), 1), (.ok .nothing, 0), (.ok (.char (some 'B')), 0),
          (.ok (.token (some (.text "By".toList))), 2), (.ok .nothing, 2),
          (.ok (.char (some ';')), 3), (.ok .nothing, 2), (.ok (.token (some .statementEnd)), 3),
          (.ok (.token none), 3)] := by
  intro operations
  have hpermits : (Spot.mk "xy;".toList 0).permits false operations = true := by decide +kernel
  have hspot : (Spot.mk "xy;".toList 0).performAll operations =
      [(.char (some 'x'), 1), (.nothing, 0), (.char (some 'B'), 0),
        (.token (some (.text "By".toList)), 2), (.nothing, 2), (.char (some ';'), 3),
        (.nothing, 2), (.token (some .statementEnd), 3), (.token none, 3)] := by decide +kernel
  obtain ⟨hanswers, -⟩ := performAll_ofText "xy;".toList operations hpermits
  refine ⟨hpermits, ?_⟩
  rw [hanswers, Spot.answers, hspot]
  rfl

end Cursor

end SqlScript

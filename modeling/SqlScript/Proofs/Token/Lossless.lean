/-
Lexing loses nothing.  Taking tokens from a cursor until none is left succeeds
on every text, gives the tokens of the text, and their lexemes concatenate to
the text again, whatever the text breaks off.
-/
import SqlScript.Token.Lexing
import SqlScript.Proofs.Source.RoundTrip

namespace SqlScript

namespace Cursor

/-- A cursor with the text `t` ahead, the end of input behind it, and
`position` characters taken. -/
def facing (t : Text) (position : Nat) : Cursor :=
  ⟨t.map .ok, .endOfInput, position⟩

theorem advance_facing (taken rest : Text) (position : Nat) :
    (facing (taken ++ rest) position).advance taken.length =
      facing rest (position + taken.length) := by
  let deliver : Char → Except ReadError Char := .ok
  have hdrop : ((taken.map deliver) ++ rest.map deliver).drop taken.length =
      rest.map deliver := by
    rw [← List.length_map deliver, List.drop_left]
  simp only [advance, facing, List.map_append]
  rw [hdrop]

theorem nextToken_facing_nil (position : Nat) :
    (facing [] position).nextToken = (.ok none, facing [] position) := rfl

/-- The next token over a text is the one that is read from its front, and the
cursor stands behind it. -/
theorem nextToken_facing_cons (c : Char) (t : Text) (position : Nat) :
    (facing (c :: t) position).nextToken =
      (.ok (some (Token.read c t).value),
        facing (Token.read c t).rest (position + (Token.read c t).value.lexeme.length)) := by
  have hbefore : textBefore (facing (c :: t) position).ahead = c :: t :=
    textBefore_map_ok (c :: t)
  have hsplit := Token.read_partitions c t
  rw [nextToken, hbefore]
  cases hread : Token.read c t with
  | settled token rest =>
      rw [hread] at hsplit
      have hadvance := advance_facing token.lexeme rest position
      rw [show token.lexeme ++ rest = c :: t from hsplit] at hadvance
      simp only [Reading.value_settled, Reading.rest_settled, hread, hadvance]
  | cutShort token =>
      rw [hread] at hsplit
      have hlexeme : token.lexeme = c :: t := by
        simpa [Reading.Partitions] using hsplit
      have hadvance := advance_facing (c :: t) [] position
      rw [List.append_nil] at hadvance
      simp only [Reading.value_cutShort, Reading.rest_cutShort, hread, hadvance, hlexeme]
      rfl

theorem ahead_peek_length_le (cursor : Cursor) :
    cursor.peek.2.ahead.length ≤ cursor.ahead.length := by
  rw [peek]
  split
  · exact Nat.le_refl _
  · exact Nat.le_refl _
  · rename_i e others hahead
    rw [hahead]
    exact Nat.le_succ others.length

/-- A token that is found takes something off what is ahead. -/
theorem ahead_nextToken_length_lt {cursor behind : Cursor} {token : Token}
    (h : cursor.nextToken = (.ok (some token), behind)) :
    behind.ahead.length < cursor.ahead.length := by
  rw [nextToken] at h
  cases hbefore : textBefore cursor.ahead with
  | nil =>
      simp only [hbefore] at h
      cases hanswer : cursor.next.1 <;> simp [hanswer, Except.map] at h
  | cons c t =>
      have hahead : 0 < cursor.ahead.length := by
        cases hcursor : cursor.ahead with
        | nil => simp [hcursor, textBefore] at hbefore
        | cons head others => exact Nat.succ_pos others.length
      have hlexeme := List.length_pos_iff.mpr (Token.lexeme_read_ne_nil c t)
      simp only [hbefore] at h
      cases hread : Token.read c t with
      | settled found rest =>
          rw [hread] at h hlexeme
          obtain ⟨-, rfl⟩ := Prod.mk.inj h
          simp only [advance, List.length_drop, Reading.value_settled] at hlexeme ⊢
          omega
      | cutShort found =>
          rw [hread] at h
          obtain ⟨-, rfl⟩ := Prod.mk.inj h
          have hdrop : (cursor.advance (c :: t).length).ahead.length < cursor.ahead.length := by
            simp only [advance, List.length_drop, List.length_cons]
            omega
          exact Nat.lt_of_le_of_lt (ahead_peek_length_le _) hdrop

/-- Take tokens until none is left or one fails. -/
def tokens (cursor : Cursor) : Except ReadError (List Token) :=
  match _h : cursor.nextToken with
  | (.error e, _) => .error e
  | (.ok none, _) => .ok []
  | (.ok (some token), behind) => (tokens behind).map (token :: ·)
termination_by cursor.ahead.length
decreasing_by exact ahead_nextToken_length_lt _h

theorem tokens_eq_nil {cursor behind : Cursor} (h : cursor.nextToken = (.ok none, behind)) :
    cursor.tokens = .ok [] := by
  rw [tokens]
  split <;> simp_all

theorem tokens_eq_cons {cursor behind : Cursor} {token : Token}
    (h : cursor.nextToken = (.ok (some token), behind)) :
    cursor.tokens = behind.tokens.map (token :: ·) := by
  rw [tokens]
  split <;> simp_all

end Cursor

namespace Token

/-- The lexemes of a text's tokens concatenate to the text. -/
theorem flatMap_lexeme_lex (t : Text) : (lex t).flatMap lexeme = t := by
  fun_induction lex t with
  | case1 => rfl
  | case2 c t ih =>
      rw [List.flatMap_cons, ih]
      exact read_partitions c t

theorem lexeme_ne_nil_of_mem_lex {token : Token} {t : Text} (h : token ∈ lex t) :
    token.lexeme ≠ [] := by
  fun_induction lex t with
  | case1 => simp at h
  | case2 c t ih =>
      rcases List.mem_cons.mp h with rfl | hothers
      · exact lexeme_read_ne_nil c t
      · exact ih hothers

theorem isSome_delimiter?_iff (token : Token) :
    token.delimiter?.isSome = true ↔ ∃ d, token = .directive d := by
  cases token <;> simp [delimiter?]

end Token

/-- A cursor over a text gives the tokens of the text, wherever it stands. -/
theorem Cursor.tokens_facing (t : Text) (position : Nat) :
    (facing t position).tokens = .ok (Token.lex t) := by
  fun_induction Token.lex t generalizing position with
  | case1 => exact tokens_eq_nil (nextToken_facing_nil position)
  | case2 c t ih =>
      rw [tokens_eq_cons (nextToken_facing_cons c t position), ih]
      rfl

/-- Lexing the bytes of a text succeeds.  The lexemes of the tokens are the
text, none of them is empty, and the directives among the tokens are those that
name a delimiter. -/
theorem tokens_lossless (t : Text) :
    (Cursor.ofSource (.ofText t)).tokens = .ok (Token.lex t) ∧
      (Token.lex t).flatMap Token.lexeme = t ∧
      ∀ token ∈ Token.lex t, token.lexeme ≠ [] ∧
        (token.delimiter?.isSome = true ↔ ∃ d, token = .directive d) := by
  refine ⟨?_, Token.flatMap_lexeme_lex t, ?_⟩
  · rw [Cursor.ofSource_ofText]
    exact Cursor.tokens_facing t 0
  · intro token htoken
    exact ⟨Token.lexeme_ne_nil_of_mem_lex htoken, Token.isSome_delimiter?_iff token⟩

end SqlScript

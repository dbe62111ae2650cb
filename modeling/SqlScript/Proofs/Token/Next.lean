/-
The token at the front of a text.  It is the first token of the text and the one
that every cursor in front of the text takes, and both go on exactly behind it.
-/
import SqlScript.Token.Lexing
import SqlScript.Proofs.Cursor.Pulling

namespace SqlScript.Token

open Reading

/-- The token at the front of a text, with `rest` behind it: the first of the tokens
of the text, and the one that every cursor in front of the text takes. -/
structure IsNext (t : Text) (token : Token) (rest : Text) : Prop where
  split : token.lexeme ++ rest = t
  lex : Token.lex t = token :: Token.lex rest
  pulled : ∀ position, (Stop.endOfInput.behind t position).pullToken =
    (.ok (some token), Stop.endOfInput.behind rest (position + token.lexeme.length))

variable {c : Char} {t rest : Text} {token : Token}

/-- What is read from the front of a text is the next token, and leaves the rest. -/
theorem isNext_of_value (hvalue : (read c t).value = token)
    (hsplit : token.lexeme ++ rest = c :: t) : IsNext (c :: t) token rest := by
  have hread : (read c t).Partitions lexeme (c :: t) := read_partitions c t
  have hrest : (read c t).rest = rest := by
    have hwhole : token.lexeme ++ (read c t).rest = token.lexeme ++ rest := by
      rw [hsplit, ← hvalue]
      exact hread
    exact List.append_cancel_left hwhole
  refine ⟨hsplit, by rw [lex_cons, hvalue, hrest], fun position => ?_⟩
  have hsome : ((read c t).map some).Partitions (fun found => found.elim [] lexeme) (c :: t) :=
    hread.map [] fun _ => rfl
  have hpulls := Stop.endOfInput.pullToken_behind_cons c t position
  rw [hpulls.eq_of_no_error hsome rfl, value_map, rest_map, hvalue, hrest]
  rfl

/-- A token that begins a word depends on the whole word. -/
theorem value_read_of_isWordStart (h : Text.isWordStart c = true) (t : Text) :
    (read c t).value = (readBehindWord (c :: t.takeWhile Text.isWordChar)
      (t.dropWhile Text.isWordChar)).value := by
  rw [read_of_isWordStart h, value_andThen, value_takeRun, rest_takeRun]

end SqlScript.Token

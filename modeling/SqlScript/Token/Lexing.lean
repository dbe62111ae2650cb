/-
The tokens of a whole text.
-/
import SqlScript.Token.Reader

namespace SqlScript.Token

/-- The tokens of a text, in order. -/
def lex : Text → List Token
  | [] => []
  | c :: t => (read c t).value :: lex (read c t).rest
termination_by t => t.length
decreasing_by exact rest_read_length_lt c t

@[simp] theorem lex_nil : lex [] = [] := by
  rw [lex]

theorem lex_cons (c : Char) (t : Text) :
    lex (c :: t) = (read c t).value :: lex (read c t).rest := by
  rw [lex]

end SqlScript.Token

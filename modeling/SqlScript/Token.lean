/-
The tokens of a script.  A token keeps every character it was read from, so
that a script is the concatenation of its tokens' lexemes.
-/
import SqlScript.Directive

namespace SqlScript

/-- The few kinds of token that matter for finding the ends of statements. -/
inductive Token where
  /-- Words, blanks, punctuation, literals, comments and dollar-quoted bodies. -/
  | text (lexeme : Text)
  /-- A semicolon outside every literal and comment. -/
  | statementEnd
  /-- The keyword that opens a block, as written. -/
  | blockOpen (word : Text)
  /-- The keyword that closes a block, as written. -/
  | blockClose (word : Text)
  | directive (directive : Directive)
deriving Repr, DecidableEq

namespace Token

/-- The characters of a token. -/
def lexeme : Token → Text
  | .text lexeme => lexeme
  | .statementEnd => [';']
  | .blockOpen word => word
  | .blockClose word => word
  | .directive d => d.lexeme

/-- The delimiter that a token names: that of a directive, and of no other. -/
def delimiter? : Token → Option Text
  | .directive d => some d.delimiter
  | _ => none

@[simp] theorem lexeme_text (t : Text) : (text t).lexeme = t := rfl

@[simp] theorem lexeme_statementEnd : statementEnd.lexeme = [';'] := rfl

@[simp] theorem lexeme_blockOpen (word : Text) : (blockOpen word).lexeme = word := rfl

@[simp] theorem lexeme_blockClose (word : Text) : (blockClose word).lexeme = word := rfl

@[simp] theorem lexeme_directive (d : Directive) :
    (Token.directive d).lexeme = d.keyword ++ d.tail := rfl

end Token

end SqlScript

/-
Tokens one character at a time.  Whoever takes a token character by character is
at a stage of it in between, and the stage alone decides what the next character
does.  Where that character may belong to what comes behind the token, it is
looked at before it is taken.
-/
import SqlScript.Token.Reader

namespace SqlScript

namespace Token

/-- How far a token has been taken.  A stage holds the characters that were taken,
in a text `seen` or cut into the parts that matter. -/
inductive Stage where
  | start
  /-- In a quoted literal. -/
  | quoted (quote : Char) (seen : Text)
  /-- Behind a quote that ends the literal unless it is doubled. -/
  | closing (quote : Char) (seen : Text)
  | dash
  | lineComment (seen : Text)
  | slash
  | blockComment (seen : Text)
  /-- Behind a star that ends the comment if a slash follows. -/
  | star (seen : Text)
  | word (seen : Text)
  | directive (keyword seen : Text)
  /-- Behind the keyword that may introduce a dollar-quoted body. -/
  | blanks (seen : Text)
  /-- In an opening tag, behind the first dollar sign. -/
  | opening (lead tag : Text)
  /-- In a dollar-quoted body, behind the opening tag. -/
  | body (lead tag seen : Text)
deriving Repr, DecidableEq

/-- What a character does to a token. -/
inductive Verdict where
  /-- The token ended in front of it. -/
  | leave (token : Token)
  /-- It is the last one of the token. -/
  | last (token : Token)
  | goOn (stage : Stage)
deriving Repr, DecidableEq

namespace Stage

/-- Whether the next character is looked at before it is taken. -/
def looks : Stage → Bool
  | closing _ _ | dash | slash | star _ | word _ | blanks _ | opening _ _ => true
  | start | quoted _ _ | lineComment _ | blockComment _ | directive _ _ | body _ _ _ => false

/-- The token of a word that nothing follows. -/
def ofWord (word : Text) : Token :=
  match Keyword.ofWord? word with
  | some .blockBegin => .blockOpen word
  | some .blockEnd => .blockClose word
  | some .delimiter => .directive ⟨word, []⟩
  | some .bodyAs | none => .text word

/-- The token if nothing more follows; there is none at the start. -/
def token? : Stage → Option Token
  | start => none
  | quoted _ seen | closing _ seen => some (.text seen)
  | dash => some (.text ['-'])
  | slash => some (.text ['/'])
  | lineComment seen | blockComment seen | star seen => some (.text seen)
  | word seen => some (ofWord seen)
  | directive keyword seen => some (.directive ⟨keyword, seen⟩)
  | blanks seen => some (.text seen)
  | opening lead tag => some (.text (lead ++ '$' :: tag))
  | body lead tag seen => some (.text (lead ++ '$' :: tag ++ '$' :: seen))

def judgeStart (c : Char) : Verdict :=
  if c = '\'' ∨ c = '"' then .goOn (quoted c [c])
  else if c = '-' then .goOn dash
  else if c = '/' then .goOn slash
  else if c = ';' then .last .statementEnd
  else if Text.isWordStart c then .goOn (word [c])
  else .last (.text [c])

def judgeDirective (keyword seen : Text) (c : Char) : Verdict :=
  if Directive.endsDirective c then .last (.directive ⟨keyword, seen ++ [c]⟩)
  else .goOn (directive keyword (seen ++ [c]))

def judgeBlanks (seen : Text) (c : Char) : Verdict :=
  if Text.isBlank c then .goOn (blanks (seen ++ [c]))
  else if c = '$' then .goOn (opening seen [])
  else .leave (.text seen)

/-- The first character behind a complete word. -/
def judgeBehindWord (word : Text) (c : Char) : Verdict :=
  match Keyword.ofWord? word with
  | some .blockBegin => .leave (.blockOpen word)
  | some .blockEnd => .leave (.blockClose word)
  | some .delimiter => judgeDirective word [] c
  | some .bodyAs => judgeBlanks word c
  | none => .leave (.text word)

def judgeOpening (lead tag : Text) (c : Char) : Verdict :=
  if Text.isWordChar c then .goOn (opening lead (tag ++ [c]))
  else if c = '$' then .goOn (body lead tag [])
  else .leave (.text (lead ++ '$' :: tag))

/-- A body ends where its characters first end with the closing tag. -/
def judgeBody (lead tag seen : Text) (c : Char) : Verdict :=
  if ('$' :: tag ++ ['$']).isSuffixOf (seen ++ [c]) then
    .last (.text (lead ++ '$' :: tag ++ '$' :: (seen ++ [c])))
  else .goOn (body lead tag (seen ++ [c]))

/-- What the character `c` does at a stage. -/
def judge (stage : Stage) (c : Char) : Verdict :=
  match stage with
  | start => judgeStart c
  | quoted quote seen =>
      if c = quote then .goOn (closing quote (seen ++ [c])) else .goOn (quoted quote (seen ++ [c]))
  | closing quote seen =>
      if c = quote then .goOn (quoted quote (seen ++ [c])) else .leave (.text seen)
  | dash => if c = '-' then .goOn (lineComment ['-', '-']) else .leave (.text ['-'])
  | lineComment seen =>
      if c = '\n' then .last (.text (seen ++ [c])) else .goOn (lineComment (seen ++ [c]))
  | slash => if c = '*' then .goOn (blockComment ['/', '*']) else .leave (.text ['/'])
  | blockComment seen =>
      if c = '*' then .goOn (star (seen ++ [c])) else .goOn (blockComment (seen ++ [c]))
  | star seen =>
      if c = '/' then .last (.text (seen ++ [c]))
      else if c = '*' then .goOn (star (seen ++ [c]))
      else .goOn (blockComment (seen ++ [c]))
  | word seen => if Text.isWordChar c then .goOn (word (seen ++ [c])) else judgeBehindWord seen c
  | directive keyword seen => judgeDirective keyword seen c
  | blanks seen => judgeBlanks seen c
  | opening lead tag => judgeOpening lead tag c
  | body lead tag seen => judgeBody lead tag seen c

/-- What is read from the front of a text at a stage. -/
def reading (stage : Stage) : Text → Reading (Option Token)
  | [] => .cutShort stage.token?
  | c :: t =>
      match stage.judge c with
      | .leave token => .settled (some token) (c :: t)
      | .last token => .settled (some token) t
      | .goOn next => next.reading t

end Stage

end Token

end SqlScript

/-
Reading tokens from the front of a text.  The first character decides what is
read.  A literal, comment or body that the text breaks off is no error: what
there is of it is the token.  Every reading partitions its text, so the lexemes
of a whole script concatenate to the script.
-/
import SqlScript.Token
import SqlScript.Keyword
import SqlScript.Text.Word

namespace SqlScript.Token

open Reading

/-- Read a quoted literal behind its opening quote, through the first quote
that is not doubled.  Only the character behind a quote can tell whether it is
doubled, so a quote at the end of the text leaves the reading cut short. -/
def readQuoted (quote : Char) : Text → Reading Text
  | [] => .cutShort []
  | [c] => .cutShort [c]
  | c :: d :: rest =>
      if c = quote then
        if d = quote then (readQuoted quote rest).map fun t => c :: d :: t
        else .settled [c] (d :: rest)
      else (readQuoted quote (d :: rest)).map (c :: ·)

/-- Read a line comment behind its two dashes, through its newline. -/
def readLineComment (t : Text) : Reading Text :=
  takeThrough (· == '\n') t

/-- Read a block comment behind its opening, through the first closing that
does not share the star of the opening. -/
def readBlockComment (t : Text) : Reading Text :=
  takeThroughMark ['*', '/'] t

/-- Read behind a dash, which a second dash makes a line comment. -/
def readDash : Text → Reading Token
  | [] => .cutShort (.text ['-'])
  | '-' :: rest => (readLineComment rest).map fun body => .text ('-' :: '-' :: body)
  | rest => .settled (.text ['-']) rest

/-- Read behind a slash, which a star makes a block comment. -/
def readSlash : Text → Reading Token
  | [] => .cutShort (.text ['/'])
  | '*' :: rest => (readBlockComment rest).map fun body => .text ('/' :: '*' :: body)
  | rest => .settled (.text ['/']) rest

/-- Read a dollar-quoted body behind its opening tag, through the first closing
tag. -/
def readTagged (lead tag : Text) (t : Text) : Reading Token :=
  (takeThroughMark ('$' :: tag ++ ['$']) t).map fun body =>
    .text (lead ++ '$' :: tag ++ '$' :: body)

/-- Read an opening tag behind its first dollar sign, and the body behind it.
Without a second dollar sign there is no tag, and the token ends in front of
what stands there instead. -/
def readTag (lead : Text) (t : Text) : Reading Token :=
  (takeRun Text.isWordChar t).andThen fun tag rest =>
    match rest with
    | '$' :: rest => readTagged lead tag rest
    | rest => .settled (.text (lead ++ '$' :: tag)) rest

/-- Read what follows the keyword that may introduce a dollar-quoted body.
With a complete opening tag behind the blanks, the token runs through the first
closing tag; without one, it ends where the opening tag breaks off. -/
def readBody (word : Text) (t : Text) : Reading Token :=
  (takeRun Text.isBlank t).andThen fun blanks rest =>
    match rest with
    | '$' :: rest => readTag (word ++ blanks) rest
    | rest => .settled (.text (word ++ blanks)) rest

/-- The token that begins with a complete word. -/
def readBehindWord (word : Text) (t : Text) : Reading Token :=
  match Keyword.ofWord? word with
  | some .blockBegin => .settled (.blockOpen word) t
  | some .blockEnd => .settled (.blockClose word) t
  | some .delimiter => (Directive.read word t).map .directive
  | some .bodyAs => readBody word t
  | none => .settled (.text word) t

/-- Read the token that begins with `c`. -/
def read (c : Char) (t : Text) : Reading Token :=
  if c = '\'' ∨ c = '"' then (readQuoted c t).map fun body => .text (c :: body)
  else if c = '-' then readDash t
  else if c = '/' then readSlash t
  else if c = ';' then .settled .statementEnd t
  else if Text.isWordStart c then
    (takeRun Text.isWordChar t).andThen fun run => readBehindWord (c :: run)
  else .settled (.text [c]) t

theorem readQuoted_partitions (quote : Char) (t : Text) :
    Partitions id (readQuoted quote t) t := by
  fun_induction readQuoted quote t with
  | case1 => rfl
  | case2 c => rfl
  | case3 rest ih => exact ih.map [quote, quote] fun _ => rfl
  | case4 d rest hd => rfl
  | case5 c d rest hc ih => exact ih.cons c

theorem readDash_partitions (t : Text) : Partitions lexeme (readDash t) ('-' :: t) := by
  unfold readDash
  split
  · rfl
  · rename_i rest
    exact (takeThrough_partitions (· == '\n') rest).map ['-', '-'] fun _ => rfl
  · rfl

theorem readSlash_partitions (t : Text) : Partitions lexeme (readSlash t) ('/' :: t) := by
  unfold readSlash
  split
  · rfl
  · rename_i rest
    exact (takeThroughMark_partitions ['*', '/'] rest).map ['/', '*'] fun _ => rfl
  · rfl

theorem readTagged_partitions (lead tag t : Text) :
    Partitions lexeme (readTagged lead tag t) (lead ++ '$' :: tag ++ '$' :: t) := by
  have h : Partitions lexeme (readTagged lead tag t) ((lead ++ '$' :: tag ++ ['$']) ++ t) :=
    (takeThroughMark_partitions ('$' :: tag ++ ['$']) t).map _ fun body => by simp
  simpa using h

theorem readTag_partitions (lead t : Text) :
    Partitions lexeme (readTag lead t) (lead ++ '$' :: t) := by
  have h : Partitions lexeme (readTag lead t) ((lead ++ ['$']) ++ t) := by
    refine (takeRun_partitions Text.isWordChar t).andThen _ ?_ fun _ => rfl
    intro tag rest
    split
    · rename_i rest
      simpa using readTagged_partitions lead tag rest
    · simp [Partitions]
  simpa using h

theorem readBody_partitions (word t : Text) :
    Partitions lexeme (readBody word t) (word ++ t) := by
  refine (takeRun_partitions Text.isBlank t).andThen word ?_ fun _ => rfl
  intro blanks rest
  split
  · rename_i rest
    simpa using readTag_partitions (word ++ blanks) rest
  · simp [Partitions]

theorem readBehindWord_partitions (word t : Text) :
    Partitions lexeme (readBehindWord word t) (word ++ t) := by
  unfold readBehindWord
  split
  · rfl
  · rfl
  · exact (Directive.read_partitions word t).map [] fun _ => rfl
  · exact readBody_partitions word t
  · rfl

theorem rest_readBehindWord_nil (word : Text) : (readBehindWord word []).rest = [] := by
  unfold readBehindWord
  split <;> rfl

/-- The lexeme of a token and what is left behind it are the text that the
token was read from. -/
theorem read_partitions (c : Char) (t : Text) :
    Partitions lexeme (read c t) (c :: t) := by
  unfold read
  split
  · exact (readQuoted_partitions c t).map [c] fun _ => rfl
  split
  · rename_i hc
    subst hc
    exact readDash_partitions t
  split
  · rename_i hc
    subst hc
    exact readSlash_partitions t
  split
  · rename_i hc
    subst hc
    rfl
  split
  · refine (takeRun_partitions Text.isWordChar t).andThen [c] ?_ ?_
    · intro run rest
      exact readBehindWord_partitions (c :: run) rest
    · intro run
      exact rest_readBehindWord_nil (c :: run)
  · rfl

theorem lexeme_readDash_ne_nil (t : Text) : (readDash t).value.lexeme ≠ [] := by
  unfold readDash
  split <;> simp

theorem lexeme_readSlash_ne_nil (t : Text) : (readSlash t).value.lexeme ≠ [] := by
  unfold readSlash
  split <;> simp

theorem lexeme_readTag_ne_nil (lead t : Text) : (readTag lead t).value.lexeme ≠ [] := by
  rw [readTag, value_andThen]
  split <;> simp [readTagged]

theorem lexeme_readBody_ne_nil {word : Text} (h : word ≠ []) (t : Text) :
    (readBody word t).value.lexeme ≠ [] := by
  rw [readBody, value_andThen]
  split
  · exact lexeme_readTag_ne_nil _ _
  · simp [h]

theorem lexeme_readBehindWord_ne_nil {word : Text} (h : word ≠ []) (t : Text) :
    (readBehindWord word t).value.lexeme ≠ [] := by
  unfold readBehindWord
  split
  · exact h
  · exact h
  · simp [Directive.read, h]
  · exact lexeme_readBody_ne_nil h t
  · exact h

/-- No token is empty. -/
theorem lexeme_read_ne_nil (c : Char) (t : Text) : (read c t).value.lexeme ≠ [] := by
  unfold read
  split
  · simp
  split
  · exact lexeme_readDash_ne_nil t
  split
  · exact lexeme_readSlash_ne_nil t
  split
  · simp
  split
  · rw [value_andThen]
    exact lexeme_readBehindWord_ne_nil (List.cons_ne_nil c _) _
  · simp

theorem rest_read_length_lt (c : Char) (t : Text) :
    (read c t).rest.length < (c :: t).length :=
  (read_partitions c t).rest_length_lt (lexeme_read_ne_nil c t)

end SqlScript.Token

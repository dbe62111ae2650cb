/-
Readers that one character sends on.  A dash and a slash go on to a comment behind
one more character, a word and an opening tag to a body behind a dollar sign.  With
any other character ahead, nothing more belongs to the token.  What begins a word
goes on with the word, a literal goes on behind all but its quote, and a blank ends
at once.
-/
import SqlScript.Proofs.Text.Letters
import SqlScript.Token.Reader

namespace SqlScript

namespace Reading

variable {α : Type}

/-- A reader that goes on as `inner` behind `lead`, and otherwise settles on `a`
without taking anything. -/
structure BranchesAt (lead : Char) (inner : Text → Reading α) (a : α)
    (read : Text → Reading α) : Prop where
  on_lead : ∀ t, read (lead :: t) = inner t
  on_other : ∀ c t, c ≠ lead → read (c :: t) = .settled a (c :: t)

end Reading

namespace Token

open Reading

/-- A quoted literal goes on behind every character but its quote. -/
theorem readQuoted_cons {quote c : Char} (h : c ≠ quote) (t : Text) :
    readQuoted quote (c :: t) = (readQuoted quote t).map (c :: ·) := by
  cases t with
  | nil => rfl
  | cons d t => rw [readQuoted, if_neg h]

theorem readDash_branches :
    BranchesAt '-' (fun t => (readLineComment t).map fun body => .text ('-' :: '-' :: body))
      (.text ['-']) readDash :=
  ⟨fun _ => rfl, fun c t hc => by simp [readDash, hc]⟩

theorem readSlash_branches :
    BranchesAt '*' (fun t => (readBlockComment t).map fun body => .text ('/' :: '*' :: body))
      (.text ['/']) readSlash :=
  ⟨fun _ => rfl, fun c t hc => by simp [readSlash, hc]⟩

theorem read_lineComment (body : Text) :
    read '-' ('-' :: body) =
      (readLineComment body).map fun comment => .text ('-' :: '-' :: comment) := by
  simp [read, readDash]

/-- A character that begins a word is none of those that begin another kind of
token. -/
theorem read_of_isWordStart {c : Char} (h : Text.isWordStart c = true) (t : Text) :
    read c t = (takeRun Text.isWordChar t).andThen fun run => readBehindWord (c :: run) := by
  have hother : ∀ other, Text.isWordStart other = false → c ≠ other := by
    rintro other hfalse rfl
    exact absurd (h.symm.trans hfalse) (by decide)
  have hquote : ¬ (c = '\'' ∨ c = '"') :=
    not_or.mpr ⟨hother '\'' (by decide), hother '"' (by decide)⟩
  rw [read, if_neg hquote, if_neg (hother '-' (by decide)), if_neg (hother '/' (by decide)),
    if_neg (hother ';' (by decide)), if_pos h]

/-- A blank is a token of its own. -/
theorem read_of_isBlank {c : Char} (hc : Text.isBlank c = true) (t : Text) :
    read c t = .settled (.text [c]) t := by
  have hstart : ¬ Text.isWordStart c = true := by
    intro hstart
    have hword := Text.isWordChar_of_isWordStart hstart
    simp [Text.not_isWordChar_of_isBlank hc] at hword
  have hne {d : Char} (hd : Text.isBlank d = false) : c ≠ d := by
    rintro rfl
    simp [hd] at hc
  simp [read, hstart, hne (d := '\'') (by decide), hne (d := '"') (by decide),
    hne (d := '-') (by decide), hne (d := '/') (by decide), hne (d := ';') (by decide)]

/-- What is read behind a word or an opening tag: `inner` behind a dollar sign, and
nothing without one. -/
def behindDollar (otherwise : Token) (inner : Text → Reading Token) (rest : Text) :
    Reading Token :=
  if rest.head? = some '$' then inner rest.tail else .settled otherwise rest

theorem behindDollar_branches (otherwise : Token) (inner : Text → Reading Token) :
    BranchesAt '$' inner otherwise (behindDollar otherwise inner) :=
  ⟨fun _ => rfl, fun c t hc => by simp [behindDollar, hc]⟩

theorem value_behindDollar (otherwise : Token) (inner : Text → Reading Token) (rest : Text) :
    (behindDollar otherwise inner rest).value =
      if rest.head? = some '$' then (inner rest.tail).value else otherwise := by
  rw [behindDollar]
  split <;> rfl

theorem eq_behindDollar {otherwise : Token} {inner read : Text → Reading Token}
    (hdollar : ∀ t, read ('$' :: t) = inner t)
    (hother : ∀ rest, (∀ t, rest ≠ '$' :: t) → read rest = .settled otherwise rest) :
    read = behindDollar otherwise inner := by
  funext rest
  rw [behindDollar]
  split
  · rename_i hhead
    obtain ⟨t, rfl⟩ := List.head?_eq_some_iff.mp hhead
    exact hdollar t
  · rename_i hhead
    apply hother
    rintro t rfl
    exact hhead rfl

theorem readTag_eq (lead t : Text) :
    readTag lead t = (takeRun Text.isWordChar t).andThen fun tag =>
      behindDollar (.text (lead ++ '$' :: tag)) (readTagged lead tag) := by
  rw [readTag]
  congr
  funext tag
  apply eq_behindDollar
  · intro t
    rfl
  · intro rest hother
    split
    · exact absurd rfl (hother _)
    · rfl

theorem readBody_eq (word t : Text) :
    readBody word t = (takeRun Text.isBlank t).andThen fun blanks =>
      behindDollar (.text (word ++ blanks)) (readTag (word ++ blanks)) := by
  rw [readBody]
  congr
  funext blanks
  apply eq_behindDollar
  · intro t
    rfl
  · intro rest hother
    split
    · exact absurd rfl (hother _)
    · rfl

end Token

end SqlScript

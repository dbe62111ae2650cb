/-
Tokens and line endings.  What reads runs, lines, marked bodies and quotes sees a
carriage return as part of the newline behind it, so changing the line endings of
a text changes those of its tokens and nothing else.  Only a newline that is a
token itself becomes two.
-/
import SqlScript.Proofs.Reading.Extent
import SqlScript.Proofs.Text.LineEndings
import SqlScript.Proofs.Token.Branching

namespace SqlScript

namespace Reading

variable {α β : Type}

/-- The same reading of the text with other line endings, where `f` changes what
was read. -/
def crlf (f : α → α) : Reading α → Reading α
  | .settled a rest => .settled (f a) (Text.crlf rest)
  | .cutShort a => .cutShort (f a)

@[simp] theorem value_crlf (f : α → α) (r : Reading α) : (r.crlf f).value = f r.value := by
  cases r <;> rfl

@[simp] theorem rest_crlf (f : α → α) (r : Reading α) :
    (r.crlf f).rest = Text.crlf r.rest := by
  cases r <;> rfl

theorem crlf_map {f : α → α} {g : β → β} {h other : α → β} {r : Reading α}
    (hvalue : g (h r.value) = other (f r.value)) : (r.map h).crlf g = (r.crlf f).map other := by
  cases r with
  | settled a rest => exact congrArg (settled · (Text.crlf rest)) hvalue
  | cutShort a => exact congrArg cutShort hvalue

/-- Reading on from what was read in a text with other line endings. -/
theorem crlf_andThen {f : α → α} {g : β → β} {r : Reading α}
    {next other : α → Text → Reading β}
    (hnext : ∀ rest, other (f r.value) (Text.crlf rest) = (next r.value rest).crlf g) :
    (r.crlf f).andThen other = (r.andThen next).crlf g := by
  cases r with
  | settled a rest => exact hnext rest
  | cutShort a =>
      have hend : other (f a) [] = (next a []).crlf g := hnext []
      change cutShort (other (f a) []).value = cutShort (g (next a []).value)
      rw [hend, value_crlf]

theorem takeRun_all (p : Char → Bool) (t : Text) : ∀ c ∈ (takeRun p t).value, p c = true := by
  induction t with
  | nil => simp [takeRun]
  | cons c t ih =>
      by_cases hc : p c = true
      · simpa [takeRun, hc] using ih
      · simp [takeRun, hc]

theorem takeRun_crlf {p : Char → Bool} (h : p '\r' = p '\n') (t : Text) :
    takeRun p (Text.crlf t) = (takeRun p t).crlf Text.crlf := by
  induction t using Text.crlf.induct with
  | case1 => rfl
  | case2 t ih =>
      by_cases hp : p '\n' = true
      · have hboth : takeRun p (Text.crlf ('\n' :: t)) =
            (takeRun p (Text.crlf t)).map fun run => '\r' :: '\n' :: run := by
          simp only [Text.crlf_newline, takeRun, h, hp, if_true]
          cases takeRun p (Text.crlf t) <;> rfl
        rw [hboth, ih, takeRun, if_pos hp]
        cases takeRun p t <;> rfl
      · simp [takeRun, h, hp, crlf]
  | case3 c t hc ih =>
      by_cases hp : p c = true
      · rw [Text.crlf_cons hc, takeRun, takeRun, if_pos hp, if_pos hp, ih]
        exact (crlf_map (Text.crlf_cons hc _)).symm
      · simp [takeRun, hp, crlf, Text.crlf_cons hc]

theorem takeThrough_crlf {p : Char → Bool} (h : p '\r' = false) (t : Text) :
    takeThrough p (Text.crlf t) = (takeThrough p t).crlf Text.crlf := by
  induction t using Text.crlf.induct with
  | case1 => rfl
  | case2 t ih =>
      by_cases hp : p '\n' = true
      · simp [takeThrough, h, hp, crlf, map]
      · simp only [Text.crlf_newline, takeThrough, h, hp, ih, if_false, Bool.false_eq_true]
        cases takeThrough p t <;> rfl
  | case3 c t hc ih =>
      by_cases hp : p c = true
      · simp [takeThrough, hp, crlf, Text.crlf_cons hc]
      · simp only [Text.crlf_cons hc, takeThrough, if_neg hp, ih]
        exact (crlf_map (Text.crlf_cons hc _)).symm

/-- A mark without line endings is found at the same place. -/
theorem takeThroughMark_crlf {mark : Text} (hne : mark ≠ []) (hnewline : '\n' ∉ mark)
    (hreturn : '\r' ∉ mark) (t : Text) :
    takeThroughMark mark (Text.crlf t) = (takeThroughMark mark t).crlf Text.crlf := by
  obtain ⟨first, others, rfl⟩ := List.exists_cons_of_ne_nil hne
  obtain ⟨hfirst, -⟩ : '\n' ≠ first ∧ '\n' ∉ others := by simpa using hnewline
  obtain ⟨hlead, -⟩ : '\r' ≠ first ∧ '\r' ∉ others := by simpa using hreturn
  have hskip {d : Char} (hd : d ≠ first) (rest : Text) :
      takeThroughMark (first :: others) (d :: rest) =
        (takeThroughMark (first :: others) rest).map (d :: ·) := by
    have hmark : (first :: others).isPrefixOf (d :: rest) = false := by
      simp [List.isPrefixOf, Ne.symm hd]
    rw [takeThroughMark, hmark]
    rfl
  induction t using Text.crlf.induct with
  | case1 => rfl
  | case2 t ih =>
      rw [Text.crlf_newline, hskip hlead, hskip hfirst, hskip hfirst, ih]
      cases takeThroughMark (first :: others) t <;> rfl
  | case3 c t hc ih =>
      have hsame := Text.prefix_crlf_iff (t := c :: t) hnewline hreturn
      rw [← List.isPrefixOf_iff_prefix, ← List.isPrefixOf_iff_prefix, Text.crlf_cons hc] at hsame
      by_cases hmark : (first :: others).isPrefixOf (c :: t) = true
      · obtain ⟨rest, hrest⟩ := List.isPrefixOf_iff_prefix.mp hmark
        have hother : c :: Text.crlf t = first :: others ++ Text.crlf rest := by
          rw [← Text.crlf_cons hc, ← hrest, Text.crlf_append, Text.crlf_of_not_mem hnewline]
        rw [Text.crlf_cons hc, takeThroughMark, takeThroughMark, if_pos hmark,
          if_pos (hsame.mpr hmark), hother, ← hrest, List.drop_left, List.drop_left, crlf,
          Text.crlf_of_not_mem hnewline]
      · rw [Text.crlf_cons hc, takeThroughMark, takeThroughMark, if_neg hmark,
          if_neg (mt hsame.mp hmark), ih]
        exact (crlf_map (Text.crlf_cons hc _)).symm

/-- A carriage return is no lead, so it is settled like the newline behind it. -/
theorem BranchesAt.crlf {f : α → α} {lead : Char} {inner inner' : Text → Reading α} {a b : α}
    {read read' : Text → Reading α} (h : BranchesAt lead inner a read)
    (h' : BranchesAt lead inner' b read') (hnewline : '\n' ≠ lead) (hreturn : '\r' ≠ lead)
    (hvalue : f a = b) (hnil : read' [] = (read []).crlf f)
    (hinner : ∀ t, inner' (Text.crlf t) = (inner t).crlf f) (t : Text) :
    read' (Text.crlf t) = (read t).crlf f := by
  subst hvalue
  cases t with
  | nil => exact hnil
  | cons c t =>
      by_cases hlead : c = lead
      · subst hlead
        rw [Text.crlf_cons hnewline.symm, h.on_lead, h'.on_lead, hinner]
      · rw [h.on_other c t hlead]
        by_cases hc : c = '\n'
        · subst hc
          exact h'.on_other '\r' _ hreturn
        · rw [Text.crlf_cons hc, h'.on_other c _ hlead, Reading.crlf, Text.crlf_cons hc]

end Reading

/-- The directive with other line endings. -/
def Directive.crlf (d : Directive) : Directive :=
  ⟨Text.crlf d.keyword, Text.crlf d.tail⟩

@[simp] theorem Directive.lexeme_crlf (d : Directive) :
    d.crlf.lexeme = Text.crlf d.lexeme := by
  simp [Directive.lexeme, Directive.crlf]

theorem Directive.read_crlf (keyword t : Text) :
    read (Text.crlf keyword) (Text.crlf t) = (read keyword t).crlf Directive.crlf := by
  rw [read, read, Reading.takeThrough_crlf rfl]
  cases Reading.takeThrough endsDirective t <;> rfl

namespace Token

open Reading

/-- The token with other line endings. -/
def crlf : Token → Token
  | .text lexeme => .text (Text.crlf lexeme)
  | .statementEnd => .statementEnd
  | .blockOpen word => .blockOpen (Text.crlf word)
  | .blockClose word => .blockClose (Text.crlf word)
  | .directive d => .directive d.crlf

@[simp] theorem lexeme_crlf (token : Token) : token.crlf.lexeme = Text.crlf token.lexeme := by
  cases token with
  | directive d => exact Directive.lexeme_crlf d
  | _ => rfl

theorem readQuoted_crlf {quote : Char} (hnewline : '\n' ≠ quote) (hreturn : '\r' ≠ quote)
    (t : Text) :
    readQuoted quote (Text.crlf t) = (readQuoted quote t).crlf Text.crlf := by
  fun_induction readQuoted quote t with
  | case1 => rfl
  | case2 c =>
      by_cases hc : c = '\n'
      · subst hc
        simp [readQuoted_cons hreturn, readQuoted, map, Reading.crlf]
      · simp [Text.crlf_cons hc, readQuoted, Reading.crlf]
  | case3 rest ih =>
      rw [Text.crlf_cons hnewline.symm, Text.crlf_cons hnewline.symm, readQuoted, if_pos rfl,
        if_pos rfl, ih]
      refine (crlf_map ?_).symm
      rw [Text.crlf_cons hnewline.symm, Text.crlf_cons hnewline.symm]
  | case4 d rest hd =>
      have hquote : Text.crlf [quote] = [quote] := Text.crlf_cons hnewline.symm []
      rw [Text.crlf_cons hnewline.symm, Reading.crlf, hquote]
      by_cases hc : d = '\n'
      · subst hc
        rw [Text.crlf_newline, readQuoted, if_pos rfl, if_neg hreturn]
      · rw [Text.crlf_cons hc, readQuoted, if_pos rfl, if_neg hd]
  | case5 c d rest hc ih =>
      by_cases hline : c = '\n'
      · subst hline
        rw [Text.crlf_newline, readQuoted_cons hreturn, readQuoted_cons hnewline, ih]
        cases readQuoted quote (d :: rest) <;> rfl
      · rw [Text.crlf_cons hline, readQuoted_cons hc, ih]
        exact (crlf_map (Text.crlf_cons hline _)).symm

theorem readDash_crlf (t : Text) : readDash (Text.crlf t) = (readDash t).crlf Token.crlf := by
  refine readDash_branches.crlf readDash_branches (by decide) (by decide) rfl rfl ?_ t
  intro t
  rw [readLineComment, readLineComment, takeThrough_crlf (by decide)]
  refine (crlf_map ?_).symm
  rfl

theorem readSlash_crlf (t : Text) : readSlash (Text.crlf t) = (readSlash t).crlf Token.crlf := by
  refine readSlash_branches.crlf readSlash_branches (by decide) (by decide) rfl rfl ?_ t
  intro t
  rw [readBlockComment, readBlockComment, takeThroughMark_crlf (by simp) (by simp) (by simp)]
  refine (crlf_map ?_).symm
  rfl

/-- Words stand on one line. -/
theorem not_mem_of_isWordChar {word : Text} (h : ∀ c ∈ word, Text.isWordChar c = true) :
    '\n' ∉ word ∧ '\r' ∉ word := by
  constructor
  · intro hmem
    exact absurd (h '\n' hmem) (by decide)
  · intro hmem
    exact absurd (h '\r' hmem) (by decide)

theorem readTagged_crlf (lead : Text) {tag : Text} (h : ∀ c ∈ tag, Text.isWordChar c = true)
    (t : Text) :
    readTagged (Text.crlf lead) tag (Text.crlf t) = (readTagged lead tag t).crlf Token.crlf := by
  obtain ⟨hnewline, hreturn⟩ := not_mem_of_isWordChar h
  rw [readTagged, readTagged, takeThroughMark_crlf (by simp) (by simp [hnewline])
    (by simp [hreturn])]
  refine (crlf_map ?_).symm
  simp [Token.crlf, Text.crlf_cons, Text.crlf_of_not_mem hnewline]

theorem behindDollar_crlf (otherwise : Token) {inner inner' : Text → Reading Token}
    (h : ∀ t, inner' (Text.crlf t) = (inner t).crlf Token.crlf) (t : Text) :
    behindDollar otherwise.crlf inner' (Text.crlf t) =
      (behindDollar otherwise inner t).crlf Token.crlf := by
  exact (behindDollar_branches otherwise inner).crlf (behindDollar_branches otherwise.crlf inner')
    (by decide) (by decide) rfl rfl h t

theorem readTag_crlf (lead t : Text) :
    readTag (Text.crlf lead) (Text.crlf t) = (readTag lead t).crlf Token.crlf := by
  rw [readTag_eq, readTag_eq, takeRun_crlf (by decide)]
  apply crlf_andThen
  have htag := takeRun_all Text.isWordChar t
  generalize (takeRun Text.isWordChar t).value = tag at htag
  have hline : Text.crlf tag = tag := Text.crlf_of_not_mem (not_mem_of_isWordChar htag).1
  have htext : Token.crlf (.text (lead ++ '$' :: tag)) =
      .text (Text.crlf lead ++ '$' :: tag) := by
    simp [Token.crlf, Text.crlf_cons, hline]
  rw [hline, ← htext]
  exact behindDollar_crlf _ (readTagged_crlf lead htag)

theorem readBody_crlf {word : Text} (t : Text) :
    readBody (Text.crlf word) (Text.crlf t) = (readBody word t).crlf Token.crlf := by
  rw [readBody_eq, readBody_eq, takeRun_crlf (by decide)]
  apply crlf_andThen
  generalize (takeRun Text.isBlank t).value = blanks
  rw [← Text.crlf_append]
  exact behindDollar_crlf (.text (word ++ blanks)) (readTag_crlf (word ++ blanks))

theorem readBehindWord_crlf {word : Text} (h : '\n' ∉ word) (t : Text) :
    readBehindWord (Text.crlf word) (Text.crlf t) =
      (readBehindWord word t).crlf Token.crlf := by
  rw [readBehindWord, readBehindWord, Directive.read_crlf, readBody_crlf, Text.crlf_of_not_mem h]
  split
  · simp [Reading.crlf, crlf, Text.crlf_of_not_mem h]
  · simp [Reading.crlf, crlf, Text.crlf_of_not_mem h]
  · refine (crlf_map ?_).symm
    rfl
  · rfl
  · simp [Reading.crlf, crlf, Text.crlf_of_not_mem h]

/-- A token that begins with anything but a newline is read from a text with other
line endings as the token with other line endings. -/
theorem read_crlf {c : Char} (hc : c ≠ '\n') (t : Text) :
    read c (Text.crlf t) = (read c t).crlf Token.crlf := by
  rw [read, read]
  split
  · rename_i hquote
    have hnewline : '\n' ≠ c := hc.symm
    have hreturn : '\r' ≠ c := by
      rintro rfl
      simp at hquote
    rw [readQuoted_crlf hnewline hreturn]
    refine (crlf_map ?_).symm
    simp [crlf, Text.crlf_cons hc]
  split
  · exact readDash_crlf t
  split
  · exact readSlash_crlf t
  split
  · rfl
  split
  · rename_i hstart
    rw [takeRun_crlf (by decide)]
    apply crlf_andThen
    intro rest
    have hrun := takeRun_all Text.isWordChar t
    generalize (takeRun Text.isWordChar t).value = run at hrun
    have hmem : '\n' ∉ c :: run := by
      simp [hc.symm, (not_mem_of_isWordChar hrun).1]
    have hword := readBehindWord_crlf hmem rest
    rwa [Text.crlf_cons hc] at hword
  · simp [Reading.crlf, crlf, Text.crlf_cons hc]

end Token

end SqlScript

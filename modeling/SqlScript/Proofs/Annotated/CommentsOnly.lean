/-
Blocks of comments only.  A text whose lines are all blank or comments begins with a
blank, behind which it is such a text again, or with a comment, and then it is such a
text behind its first line.  A token is one blank or one comment with its newline, so
the tokens of the text go the same way: all of them are text, none ends a statement,
and the block is split to itself.
-/
import SqlScript.Annotated.Block
import SqlScript.Proofs.Splitter.Idempotence
import SqlScript.Proofs.Text.Lines
import SqlScript.Proofs.Text.Words
import SqlScript.Proofs.Token.Branching

namespace SqlScript

namespace Marker

variable {c : Char} {line : Text}

theorem isComment_cons_of_blank (hc : Text.isBlank c = true) (line : Text) :
    isComment (c :: line) = isComment line := by
  simp [isComment, Text.trim, Text.trimStart, hc]

/-- A comment that does not begin with a blank begins with its hyphens. -/
theorem isPrefix_of_isComment (hc : Text.isBlank c = false) (h : isComment (c :: line) = true) :
    ['-', '-'] <+: c :: line := by
  have hhyphen : Text.isBlank '-' = false := by decide
  have hhyphens : ∀ d ∈ ['-', '-'], Text.isBlank d = false := by simp [hhyphen]
  have hstart : Text.trimStart (c :: line) = c :: line := by simp [Text.trimStart, hc]
  rw [isComment, List.isPrefixOf_iff_prefix, Text.trim, Text.isPrefix_trimEnd_iff hhyphens,
    hstart] at h
  exact h

end Marker

namespace Text

open Reading

variable {c : Char} {t : Text}

/-- Behind the first newline are all lines but the first. -/
theorem lines_rest_takeThrough (t : Text) :
    lines (takeThrough (· == '\n') t).rest = (lines t).tail := by
  induction t with
  | nil => rfl
  | cons c t ih =>
      by_cases hc : c = '\n'
      · simp [takeThrough, hc, lines_newline]
      · simp [takeThrough, hc, ih, tail_lines_cons hc]

/-- Every line of a text is blank or a comment. -/
def CommentsOnly (t : Text) : Prop :=
  ∀ line ∈ lines t, allBlank line = true ∨ Marker.isComment line = true

namespace CommentsOnly

/-- Behind a blank there are still comments only. -/
theorem of_blank (hc : isBlank c = true) (h : CommentsOnly (c :: t)) : CommentsOnly t := by
  by_cases hnewline : c = '\n'
  · rw [CommentsOnly, hnewline, lines_newline, List.forall_mem_cons] at h
    exact h.2
  by_cases hreturn : c = '\r' ∧ t.head? = some '\n'
  · -- The carriage return belongs to the ending, so both texts have the same lines.
    obtain ⟨rfl, hhead⟩ := hreturn
    obtain ⟨rest, rfl⟩ := List.head?_eq_some_iff.mp hhead
    rw [CommentsOnly, lines_return_newline, ← lines_newline] at h
    exact h
  · have hcons := lines_cons hnewline fun hc hhead => hreturn ⟨hc, hhead⟩
    rw [CommentsOnly, hcons, List.forall_mem_cons, Marker.isComment_cons_of_blank hc] at h
    intro line hline
    rcases hlines : lines t with _ | ⟨first, others⟩
    · simp [hlines] at hline
    · rw [hlines] at h hline
      rcases List.mem_cons.mp hline with rfl | hothers
      · simpa [allBlank, hc] using h.1
      · exact h.2 line hothers

/-- Anything but a blank is the first hyphen of a comment, and behind its line there
are still comments only. -/
theorem exists_comment (hc : isBlank c = false) (h : CommentsOnly (c :: t)) :
    ∃ body, c = '-' ∧ t = '-' :: body ∧ CommentsOnly (takeThrough (· == '\n') body).rest := by
  have hne {d : Char} (hd : isBlank d = true) : c ≠ d := by
    rintro rfl
    simp [hd] at hc
  have hcons := lines_cons (hne (d := '\n') (by decide)) (t := t)
    fun hreturn => absurd hreturn (hne (by decide))
  rw [CommentsOnly, hcons, List.forall_mem_cons] at h
  obtain ⟨hfirst, hothers⟩ := h
  have hcomment := hfirst.resolve_left (by simp [allBlank, hc])
  obtain ⟨hhyphen, hsecond⟩ := List.cons_prefix_cons.mp (Marker.isPrefix_of_isComment hc hcomment)
  obtain ⟨body, rfl⟩ := hsecond.trans (headD_lines_isPrefix t)
  refine ⟨body, hhyphen.symm, rfl, ?_⟩
  rw [List.singleton_append, tail_lines_cons (by decide)] at hothers
  rw [CommentsOnly, lines_rest_takeThrough]
  exact hothers

end CommentsOnly

end Text

theorem Block.isCommentsOnly_iff {block : Block} :
    block.isCommentsOnly = true ↔ block.text.CommentsOnly := by
  simp [isCommentsOnly, Text.CommentsOnly]

namespace Token

theorem eq_text_of_commentsOnly {t : Text} (h : t.CommentsOnly) :
    ∀ token ∈ lex t, ∃ lexeme, token = .text lexeme := by
  fun_induction lex t with
  | case1 => exact List.forall_mem_nil _
  | case2 c t ih =>
      rw [List.forall_mem_cons]
      cases hc : Text.isBlank c with
      | true =>
          rw [read_of_isBlank hc] at ih ⊢
          exact ⟨⟨[c], rfl⟩, ih (h.of_blank hc)⟩
      | false =>
          obtain ⟨body, rfl, rfl, hrest⟩ := h.exists_comment hc
          rw [read_lineComment, Reading.rest_map] at ih
          rw [read_lineComment, Reading.rest_map, Reading.value_map]
          exact ⟨⟨_, rfl⟩, ih hrest⟩

/-- Tokens that are all text are tokens of one statement. -/
theorem pending_of_texts {tokens : List Token}
    (h : ∀ token ∈ tokens, ∃ lexeme, token = .text lexeme) : Pending tokens 0 := by
  induction tokens using List.reverseRecOn with
  | nil => exact .nil
  | append_singleton tokens token ih =>
      rw [List.forall_mem_append, List.forall_mem_singleton] at h
      obtain ⟨hfront, lexeme, rfl⟩ := h
      exact .snoc (ih hfront) (by simp) (by simp)

end Token

/-- A block of comments only has no tokens but text, in particular none that ends a
statement, opens or closes a block, or sets a delimiter.  Splitting it, or its bytes,
gives the block itself, or nothing when it is empty, and reports nothing, whatever the
options. -/
theorem split_of_isCommentsOnly (options : Options) {block : Block}
    (h : block.isCommentsOnly = true) :
    (∀ token ∈ Token.lex block.text, ∃ lexeme, token = .text lexeme) ∧
      split options block.text = ⟨if block.text = [] then [] else [block.text], []⟩ ∧
      splitSource options (.ofText block.text) =
        ⟨.ok (if block.text = [] then [] else [block.text]), []⟩ := by
  have htexts := Token.eq_text_of_commentsOnly (Block.isCommentsOnly_iff.mp h)
  refine ⟨htexts, ?_⟩
  by_cases hempty : block.text = []
  · rw [splitSource_ofText, hempty, split_nil]
    exact ⟨rfl, rfl⟩
  · rw [if_neg hempty]
    exact Splitter.splitsToItself_of_pending rfl (Token.pending_of_texts htexts) hempty options

/-- Comments that mention what would matter outside of them, behind blanks of several
kinds, with a carriage return inside a line and others in front of its newline. -/
theorem split_of_isCommentsOnly_mentioning :
    let text := "\u3000-- it's; BEGIN\r\n\r-- DELIMITER //\r--/* $$\n\t\n\u00a0--".toList
    Block.isCommentsOnly ⟨text, false⟩ = true ∧
      (∀ token ∈ Token.lex text, ∃ lexeme, token = .text lexeme) ∧
      split ⟨false⟩ text = ⟨[text], []⟩ := by
  intro text
  have hcomments : Block.isCommentsOnly ⟨text, false⟩ = true := by decide
  obtain ⟨htexts, hsplit, -⟩ := split_of_isCommentsOnly ⟨false⟩ hcomments
  refine ⟨hcomments, htexts, hsplit.trans ?_⟩
  rw [if_neg (by decide)]

end SqlScript

/-
A token that is taken character by character is the one that is read from the
text.  At each stage the rest of the token is what the reader of that part reads,
put behind the characters that were taken.
-/
import SqlScript.Token.Stage
import SqlScript.Proofs.Reading.Extent
import SqlScript.Proofs.Token.Branching

namespace SqlScript

/-- A character may be taken before the rest is read. -/
theorem Reading.map_concat {α : Type} (r : Reading Text) (f : Text → α) (seen : Text) (c : Char) :
    (r.map fun body => f ((seen ++ [c]) ++ body)) =
      (r.map (c :: ·)).map fun body => f (seen ++ body) := by
  simp [map_map]

theorem Reading.map_andThen {α β γ : Type} (r : Reading α) (next : α → Text → Reading β)
    (f : β → γ) : (r.andThen next).map f = r.andThen fun a t => (next a t).map f := by
  cases r with
  | settled a t => rfl
  | cutShort a => rw [andThen, andThen, value_map, Reading.map]

namespace Token.Stage

open Reading

variable {stage next : Stage} {token : Token} {c : Char} {p : Char → Bool}

theorem reading_of_leave (h : stage.judge c = .leave token) (t : Text) :
    stage.reading (c :: t) = .settled (some token) (c :: t) := by
  rw [reading, h]

theorem reading_of_last (h : stage.judge c = .last token) (t : Text) :
    stage.reading (c :: t) = .settled (some token) t := by
  rw [reading, h]

/-- Only what the stages make of the next character matters. -/
theorem reading_congr (other : Stage) (h : stage.judge c = other.judge c) (t : Text) :
    stage.reading (c :: t) = other.reading (c :: t) := by
  rw [reading, reading, h]

theorem reading_of_goOn (h : stage.judge c = .goOn next) (t : Text) :
    stage.reading (c :: t) = next.reading t := by
  rw [reading, h]

/-- Stages that take characters through the first one that satisfies `p`. -/
theorem reading_through (at' : Text → Stage) {token : Text → Token}
    (hend : ∀ seen, (at' seen).token? = some (token seen))
    (hlast : ∀ seen c, p c = true → (at' seen).judge c = .last (token (seen ++ [c])))
    (hgoOn : ∀ seen c, p c = false → (at' seen).judge c = .goOn (at' (seen ++ [c])))
    (seen t : Text) :
    (at' seen).reading t = (takeThrough p t).map fun body => some (token (seen ++ body)) := by
  induction t generalizing seen with
  | nil => rw [reading, hend, takeThrough, Reading.map, List.append_nil]
  | cons c t ih =>
      rw [takeThrough]
      cases hc : p c with
      | true =>
          rw [reading_of_last (hlast seen c hc)]
          rfl
      | false =>
          rw [reading_of_goOn (hgoOn seen c hc), ih]
          exact map_concat _ (fun body => some (token body)) seen c

/-- Stages that take characters as long as they satisfy `p`, and go on as
`behind`. -/
theorem reading_run (at' : Text → Stage) (behind : Text → Text → Reading (Option Token))
    (hend : ∀ seen, (at' seen).token? = (behind seen []).value)
    (hgoOn : ∀ seen c, p c = true → (at' seen).judge c = .goOn (at' (seen ++ [c])))
    (hbehind : ∀ seen c t, p c = false → (at' seen).reading (c :: t) = behind seen (c :: t))
    (seen t : Text) :
    (at' seen).reading t = (takeRun p t).andThen fun run => behind (seen ++ run) := by
  induction t generalizing seen with
  | nil => rw [reading, hend, takeRun, andThen, List.append_nil]
  | cons c t ih =>
      rw [takeRun]
      cases hc : p c with
      | true =>
          rw [reading_of_goOn (hgoOn seen c hc), ih, if_pos rfl]
          cases takeRun p t <;> simp [Reading.map, andThen]
      | false =>
          rw [hbehind seen c t hc]
          simp [andThen]

/-- The text token of what was taken and what is read behind it. -/
def textBehind (seen : Text) (r : Reading Text) : Reading (Option Token) :=
  r.map fun body => some (.text (seen ++ body))

theorem textBehind_concat (seen : Text) (c : Char) (r : Reading Text) :
    textBehind (seen ++ [c]) r = textBehind seen (r.map (c :: ·)) :=
  map_concat r (fun body => some (Token.text body)) seen c

theorem reading_quoted (quote : Char) (seen t : Text) :
    (quoted quote seen).reading t = textBehind seen (readQuoted quote t) := by
  fun_induction readQuoted quote t generalizing seen with
  | case1 => simp [reading, token?, textBehind, Reading.map]
  | case2 c =>
      by_cases hc : c = quote <;> simp [reading, judge, token?, textBehind, Reading.map, hc]
  | case3 rest ih =>
      have hjudge : (quoted quote seen).judge quote = .goOn (closing quote (seen ++ [quote])) :=
        if_pos rfl
      have hdoubled : (closing quote (seen ++ [quote])).judge quote =
          .goOn (quoted quote (seen ++ [quote] ++ [quote])) := if_pos rfl
      rw [reading_of_goOn hjudge, reading_of_goOn hdoubled, ih, textBehind_concat,
        textBehind_concat, map_map]
  | case4 d rest hd => simp [reading, judge, textBehind, Reading.map, hd]
  | case5 c d rest hc ih =>
      have hjudge : (quoted quote seen).judge c = .goOn (quoted quote (seen ++ [c])) := if_neg hc
      rw [reading_of_goOn hjudge, ih, textBehind_concat]

theorem reading_lineComment (seen t : Text) :
    (lineComment seen).reading t = textBehind seen (readLineComment t) := by
  apply reading_through lineComment (fun _ => rfl)
  · intro seen c hc
    exact if_pos (by simpa using hc)
  · intro seen c hc
    exact if_neg (by simpa using hc)

theorem reading_directive (keyword seen t : Text) :
    (directive keyword seen).reading t =
      (takeThrough Directive.endsDirective t).map fun tail =>
        some (.directive ⟨keyword, seen ++ tail⟩) := by
  apply reading_through (directive keyword) (fun _ => rfl)
  · intro seen c hc
    exact if_pos hc
  · intro seen c hc
    exact if_neg (by simp [hc])

/-- Only a star and a slash close a comment. -/
theorem readBlockComment_cons {c : Char} {t : Text} (h : c = '*' → t.head? ≠ some '/') :
    readBlockComment (c :: t) = (readBlockComment t).map (c :: ·) := by
  have hopen : ¬ ['*', '/'].isPrefixOf (c :: t) = true := by
    intro hclosed
    obtain ⟨rfl, hslash⟩ := List.cons_prefix_cons.mp (List.isPrefixOf_iff_prefix.mp hclosed)
    obtain ⟨rest, rfl⟩ := hslash
    exact h rfl rfl
  rw [readBlockComment, takeThroughMark, if_neg hopen]
  rfl

/-- A star is taken before it is known whether it closes the comment. -/
theorem reading_blockComment_and_star (seen t : Text) :
    (blockComment seen).reading t = textBehind seen (readBlockComment t) ∧
      (star (seen ++ ['*'])).reading t = textBehind seen (readBlockComment ('*' :: t)) := by
  -- Both at once, since each of the two stages may go on as the other.
  induction t generalizing seen with
  | nil => simp [reading, token?, readBlockComment, takeThroughMark, textBehind, Reading.map]
  | cons c t ih =>
      by_cases hslash : c = '/'
      · subst hslash
        constructor
        · have hjudge : (blockComment seen).judge '/' = .goOn (blockComment (seen ++ ['/'])) := rfl
          rw [reading_of_goOn hjudge, (ih _).1, readBlockComment_cons (fun h => absurd h (by decide)),
            textBehind_concat]
        · have hjudge : (star (seen ++ ['*'])).judge '/' =
              .last (.text (seen ++ ['*'] ++ ['/'])) := rfl
          rw [reading_of_last hjudge, List.append_assoc]
          rfl
      have hopen : readBlockComment ('*' :: c :: t) = (readBlockComment (c :: t)).map ('*' :: ·) :=
        readBlockComment_cons fun _ hhead => hslash (Option.some.inj hhead)
      rw [hopen, ← textBehind_concat]
      by_cases hstar : c = '*'
      · subst hstar
        have hcomment (seen : Text) : (blockComment seen).judge '*' = .goOn (star (seen ++ ['*'])) :=
          rfl
        have hagain (seen : Text) : (star seen).judge '*' = .goOn (star (seen ++ ['*'])) := rfl
        rw [reading_of_goOn (hcomment seen), reading_of_goOn (hagain _), (ih _).2, (ih _).2]
        exact ⟨rfl, rfl⟩
      · have hcomment (seen : Text) :
            (blockComment seen).judge c = .goOn (blockComment (seen ++ [c])) := if_neg hstar
        have hagain (seen : Text) : (star seen).judge c = .goOn (blockComment (seen ++ [c])) :=
          (if_neg hslash).trans (if_neg hstar)
        have hmore : readBlockComment (c :: t) = (readBlockComment t).map (c :: ·) :=
          readBlockComment_cons fun h => absurd h hstar
        rw [reading_of_goOn (hcomment seen), reading_of_goOn (hagain _), (ih _).1, (ih _).1, hmore,
          textBehind_concat, textBehind_concat]
        exact ⟨rfl, rfl⟩

theorem reading_dash (t : Text) : dash.reading t = (readDash t).map some := by
  cases t with
  | nil => rfl
  | cons c t =>
      by_cases hc : c = '-'
      · subst hc
        have hjudge : dash.judge '-' = .goOn (lineComment ['-', '-']) := rfl
        rw [reading_of_goOn hjudge, reading_lineComment, readDash_branches.on_lead, map_map]
        rfl
      · have hjudge : dash.judge c = .leave (.text ['-']) := if_neg hc
        rw [reading_of_leave hjudge, readDash_branches.on_other c t hc]
        rfl

theorem reading_slash (t : Text) : slash.reading t = (readSlash t).map some := by
  cases t with
  | nil => rfl
  | cons c t =>
      by_cases hc : c = '*'
      · subst hc
        have hjudge : slash.judge '*' = .goOn (blockComment ['/', '*']) := rfl
        rw [reading_of_goOn hjudge, (reading_blockComment_and_star _ t).1,
          readSlash_branches.on_lead, map_map]
        rfl
      · have hjudge : slash.judge c = .leave (.text ['/']) := if_neg hc
        rw [reading_of_leave hjudge, readSlash_branches.on_other c t hc]
        rfl

/-- A body is read as long as nothing that was taken ends with the closing tag. -/
theorem reading_body (lead tag : Text) {seen : Text}
    (hseen : ∀ front, front <+: seen → ¬ '$' :: tag ++ ['$'] <:+ front) (t : Text) :
    (body lead tag seen).reading t = (readTagged lead tag (seen ++ t)).map some := by
  induction t generalizing seen with
  | nil =>
      rw [List.append_nil, readTagged, takeThroughMark_eq_cutShort hseen]
      rfl
  | cons c t ih =>
      have hshort : ∀ front, front <+: seen ++ [c] → front ≠ seen ++ [c] →
          ¬ '$' :: tag ++ ['$'] <:+ front := by
        intro front hfront hne
        rcases List.prefix_concat_iff.mp hfront with heq | hbefore
        · exact absurd heq hne
        · exact hseen front hbefore
      -- If the closing tag ends here, it ends here for the first time.
      rw [show seen ++ c :: t = (seen ++ [c]) ++ t by simp]
      by_cases hmark : ('$' :: tag ++ ['$']).isSuffixOf (seen ++ [c]) = true
      · have hjudge : (body lead tag seen).judge c =
            .last (.text (lead ++ '$' :: tag ++ '$' :: (seen ++ [c]))) := if_pos hmark
        rw [reading_of_last hjudge, readTagged,
          takeThroughMark_append (by simp) (List.isSuffixOf_iff_suffix.mp hmark) hshort]
        rfl
      · have hjudge : (body lead tag seen).judge c = .goOn (body lead tag (seen ++ [c])) :=
          if_neg hmark
        rw [reading_of_goOn hjudge]
        apply ih
        intro front hfront hends
        have heq : front = seen ++ [c] :=
          Classical.byContradiction fun hne => hshort front hfront hne hends
        exact hmark (List.isSuffixOf_iff_suffix.mpr (heq ▸ hends))

/-- Looking for a dollar sign behind a run of characters. -/
theorem reading_behindDollar (next : Stage) {otherwise : Token} {inner : Text → Reading Token}
    (hother : c ≠ '$' → stage.judge c = .leave otherwise)
    (hdollar : c = '$' → stage.judge c = .goOn next)
    (hinner : ∀ t, next.reading t = (inner t).map some) (t : Text) :
    stage.reading (c :: t) = (behindDollar otherwise inner (c :: t)).map some := by
  have hbranches := behindDollar_branches otherwise inner
  by_cases hc : c = '$'
  · rw [reading_of_goOn (hdollar hc), hinner, hc, hbranches.on_lead]
  · rw [reading_of_leave (hother hc), hbranches.on_other c t hc]
    rfl

theorem reading_opening (lead t : Text) :
    (opening lead []).reading t = (readTag lead t).map some := by
  rw [readTag_eq, map_andThen]
  apply reading_run (opening lead) fun tag rest =>
    (behindDollar (.text (lead ++ '$' :: tag)) (readTagged lead tag) rest).map some
  · intro tag
    rfl
  · intro tag c hc
    exact if_pos hc
  · intro tag c t hc
    apply reading_behindDollar (body lead tag [])
    · intro hother
      exact (if_neg (by simp [hc])).trans (if_neg hother)
    · intro hdollar
      exact (if_neg (by simp [hc])).trans (if_pos hdollar)
    · intro t
      apply reading_body
      intro front hfront hmark
      obtain rfl := List.prefix_nil.mp hfront
      exact absurd (List.suffix_nil.mp hmark) (by simp)

theorem reading_blanks (word t : Text) :
    (blanks word).reading t = (readBody word t).map some := by
  rw [readBody_eq, map_andThen]
  apply reading_run blanks fun lead rest =>
    (behindDollar (.text lead) (readTag lead) rest).map some
  · intro lead
    rfl
  · intro lead c hc
    exact if_pos hc
  · intro lead c t hc
    apply reading_behindDollar (opening lead [])
    · intro hother
      exact (if_neg (by simp [hc])).trans (if_neg hother)
    · intro hdollar
      exact (if_neg (by simp [hc])).trans (if_pos hdollar)
    · exact reading_opening lead

/-- Behind a complete word, the word decides what its next character does. -/
theorem reading_behindWord (seen : Text) (hc : Text.isWordChar c = false) (t : Text) :
    (word seen).reading (c :: t) = (readBehindWord seen (c :: t)).map some := by
  have hjudge : (word seen).judge c = judgeBehindWord seen c := if_neg (by simp [hc])
  rw [judgeBehindWord] at hjudge
  rw [readBehindWord]
  cases hword : Keyword.ofWord? seen with
  | none =>
      rw [hword] at hjudge
      exact reading_of_leave hjudge t
  | some keyword =>
      rw [hword] at hjudge
      cases keyword with
      | blockBegin => exact reading_of_leave hjudge t
      | blockEnd => exact reading_of_leave hjudge t
      | delimiter =>
          rw [reading_congr (directive seen []) hjudge, reading_directive]
          simp [Directive.read, map_map]
      | bodyAs => rw [reading_congr (blanks seen) hjudge, reading_blanks]

theorem value_readBehindWord_nil (word : Text) : (readBehindWord word []).value = ofWord word := by
  rw [readBehindWord, ofWord]
  cases Keyword.ofWord? word with
  | none => rfl
  | some keyword =>
      cases keyword with
      | bodyAs => simp [readBody, takeRun, andThen]
      | _ => rfl

theorem reading_word (seen t : Text) :
    (word seen).reading t =
      ((takeRun Text.isWordChar t).andThen fun run => readBehindWord (seen ++ run)).map some := by
  rw [map_andThen]
  apply reading_run word fun word rest => (readBehindWord word rest).map some
  · intro word
    rw [token?, ← value_readBehindWord_nil]
    exact (value_map some _).symm
  · intro word c hc
    exact if_pos hc
  · intro word c t hc
    exact reading_behindWord word hc t

/-- The first character decides how a token is taken, as it decides how one is
read. -/
theorem reading_start (c : Char) (t : Text) :
    start.reading (c :: t) = (read c t).map some := by
  have hjudge : start.judge c = judgeStart c := rfl
  rw [judgeStart] at hjudge
  rw [read]
  by_cases hquote : c = '\'' ∨ c = '"'
  · rw [if_pos hquote] at hjudge ⊢
    rw [reading_of_goOn hjudge, reading_quoted, map_map]
    rfl
  rw [if_neg hquote] at hjudge ⊢
  by_cases hdash : c = '-'
  · rw [if_pos hdash] at hjudge ⊢
    rw [reading_of_goOn hjudge, reading_dash]
  rw [if_neg hdash] at hjudge ⊢
  by_cases hslash : c = '/'
  · rw [if_pos hslash] at hjudge ⊢
    rw [reading_of_goOn hjudge, reading_slash]
  rw [if_neg hslash] at hjudge ⊢
  by_cases hend : c = ';'
  · rw [if_pos hend] at hjudge ⊢
    rw [reading_of_last hjudge]
    rfl
  rw [if_neg hend] at hjudge ⊢
  by_cases hword : Text.isWordStart c = true
  · rw [if_pos hword] at hjudge ⊢
    rw [reading_of_goOn hjudge, reading_word]
    rfl
  · rw [if_neg hword] at hjudge ⊢
    rw [reading_of_last hjudge]
    rfl

/-- Only a character that is looked at can be left. -/
theorem looks_of_leave (h : stage.judge c = .leave token) : stage.looks = true := by
  cases stage with
  | start =>
      rw [judge, judgeStart] at h
      repeat' split at h
      all_goals exact absurd h (by simp)
  | quoted quote seen =>
      rw [judge] at h
      split at h <;> simp at h
  | lineComment seen =>
      rw [judge] at h
      split at h <;> simp at h
  | blockComment seen =>
      rw [judge] at h
      split at h <;> simp at h
  | directive keyword seen =>
      rw [judge, judgeDirective] at h
      split at h <;> simp at h
  | body lead tag seen =>
      rw [judge, judgeBody] at h
      split at h <;> simp at h
  | _ => rfl

end Token.Stage

end SqlScript

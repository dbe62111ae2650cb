/-
Dollar-quoted bodies.  Behind the keyword that may introduce one, a token takes
the blanks, then a dollar sign and the characters of a tag, and then, behind a
second dollar sign, the shortest text that ends with the whole tag.  Each of these
parts is where the token ends when the next one does not follow, and nothing that
stands in the body has a say.
-/
import SqlScript.Proofs.Event.Shape
import SqlScript.Proofs.Text.Letters
import SqlScript.Proofs.Token.Next
import SqlScript.Proofs.Utf8.Ends

namespace SqlScript

namespace Keyword

/-- The keyword that may introduce a body begins with its letter, in any case. -/
theorem isWordStart_of_bodyAs {c : Char} {more : Text} (h : ofWord? (c :: more) = some .bodyAs) :
    Text.isWordStart c = true := by
  have hfold : foldCase c = 'a' := (List.cons.inj (map_foldCase_of_ofWord? h)).1
  have hlower : c.toLower = 'a' := by
    rw [toLower_eq_foldCase (by simp [hfold]) (by simp [hfold]), hfold]
  have hletter : Text.isLetter c = true := Text.isLetter_of_toLower (by rw [hlower]; decide)
  simp [Text.isWordStart, hletter]

end Keyword

namespace Reading

variable {mark t : Text}

/-- Without a front that the mark ends, everything is read. -/
theorem value_takeThroughMark_of_open (h : ∀ n, ¬ mark <:+ t.take n) :
    (takeThroughMark mark t).value = t := by
  rw [takeThroughMark_eq_cutShort, value_cutShort]
  intro front hfront
  rw [List.prefix_iff_eq_take.mp hfront]
  exact h front.length

/-- The shortest front that the mark ends is what is read through the mark. -/
theorem value_takeThroughMark_of_first {n : Nat} (hmark : mark ≠ []) (hends : mark <:+ t.take n)
    (hfirst : ∀ m < n, ¬ mark <:+ t.take m) : (takeThroughMark mark t).value = t.take n := by
  have hne : t.take n ≠ [] := by
    intro hnil
    rw [hnil] at hends
    exact hmark (List.suffix_nil.mp hends)
  have hshortest : ∀ front, front <+: t.take n → front ≠ t.take n → ¬ mark <:+ front := by
    intro front hfront hother
    have hlength := mt hfront.eq_of_length hother
    have hle := hfront.length_le
    have htake := List.length_take_le n t
    rw [List.prefix_iff_eq_take.mp (hfront.trans (List.take_prefix n t))]
    exact hfirst front.length (by omega)
  have hread := takeThroughMark_append hne hends hshortest (t.drop n)
  rw [List.take_append_drop] at hread
  rw [hread, value_settled]

end Reading

namespace Token

open Reading

/-- A token that the keyword begins goes on behind the whole word. -/
theorem value_read_of_bodyAs {c : Char} {t : Text}
    (h : Keyword.ofWord? ((c :: t).takeWhile Text.isWordChar) = some .bodyAs) :
    (read c t).value = (readBody ((c :: t).takeWhile Text.isWordChar)
      ((c :: t).dropWhile Text.isWordChar)).value := by
  by_cases hc : Text.isWordChar c = true
  · rw [List.takeWhile_cons_of_pos hc] at h ⊢
    rw [List.dropWhile_cons_of_pos hc, value_read_of_isWordStart (Keyword.isWordStart_of_bodyAs h),
      readBehindWord, h]
  · rw [List.takeWhile_cons_of_neg hc] at h
    exact absurd h (by decide)

/-- The token in front of `t` goes through `opener` and the shortest front of `body`
that ends with `mark`, or through everything without one.  The bytes of the token
tell the end of that front, as long as those of `opener` are left out. -/
structure ClosesAtFirst (t opener mark body : Text) : Prop where
  closed : ∀ n, mark <:+ body.take n → (∀ m < n, ¬ mark <:+ body.take m) →
    IsNext t (.text (opener ++ body.take n)) (body.drop n)
  unclosed : (∀ n, ¬ mark <:+ body.take n) → IsNext t (.text (opener ++ body)) []
  bytes : ∀ front, (Utf8.encode mark).length ≤
      (Utf8.encode (opener ++ front)).length - (Utf8.encode opener).length ∧
        Utf8.encode mark <:+ Utf8.encode (opener ++ front) ↔ mark <:+ front

theorem closesAtFirst_of_value {c : Char} {t opener mark body : Text} (hmark : mark ≠ [])
    (hvalue : (read c t).value = .text (opener ++ (takeThroughMark mark body).value))
    (hsplit : opener ++ body = c :: t) : ClosesAtFirst (c :: t) opener mark body where
  closed n hends hfirst := by
    rw [value_takeThroughMark_of_first hmark hends hfirst] at hvalue
    apply isNext_of_value hvalue
    rw [lexeme_text, List.append_assoc, List.take_append_drop, hsplit]
  unclosed hopen := by
    rw [value_takeThroughMark_of_open hopen] at hvalue
    apply isNext_of_value hvalue
    rw [lexeme_text, List.append_nil, hsplit]
  bytes _ := Utf8.encode_isSuffix_behind_iff

/-- A token that the keyword begins, by what follows: the blanks, and then the tag
and the body as far as they are there. -/
theorem isNext_of_bodyAs (t : Text) :
    let word := t.takeWhile Text.isWordChar
    let behindWord := t.dropWhile Text.isWordChar
    let lead := word ++ behindWord.takeWhile Text.isBlank
    let rest := behindWord.dropWhile Text.isBlank
    Keyword.ofWord? word = some .bodyAs →
      (rest.head? ≠ some '$' → IsNext t (.text lead) rest) ∧
        ∀ behind, rest = '$' :: behind →
          let tag := behind.takeWhile Text.isWordChar
          let other := behind.dropWhile Text.isWordChar
          let mark := '$' :: tag ++ ['$']
          (other.head? ≠ some '$' → IsNext t (.text (lead ++ '$' :: tag)) other) ∧
            ∀ body, other = '$' :: body → ClosesAtFirst t (lead ++ mark) mark body := by
  intro word behindWord lead rest hword
  obtain ⟨c, s, rfl⟩ : ∃ c s, t = c :: s := by
    apply List.exists_cons_of_ne_nil
    rintro rfl
    exact absurd hword (by decide)
  -- `hvalue` is rewritten to the branch that each character decides, and the text is
  -- split behind what the branch has taken.
  have hvalue := value_read_of_bodyAs hword
  rw [readBody_eq, value_andThen, value_behindDollar, value_takeRun, rest_takeRun] at hvalue
  have hsplit : lead ++ rest = c :: s := by
    rw [List.append_assoc, List.takeWhile_append_dropWhile, List.takeWhile_append_dropWhile]
  refine ⟨fun hother => ?_, fun behind hbehind => ?_⟩
  · exact isNext_of_value (hvalue.trans (if_neg hother)) hsplit
  intro tag other mark
  rw [show behindWord.dropWhile Text.isBlank = '$' :: behind from hbehind, List.head?_cons,
    if_pos rfl, List.tail_cons, readTag_eq, value_andThen, value_behindDollar, value_takeRun,
    rest_takeRun] at hvalue
  have htag : (lead ++ '$' :: tag) ++ other = c :: s := by
    rw [← hsplit, hbehind, List.append_assoc, List.cons_append, List.takeWhile_append_dropWhile]
  refine ⟨fun hother => ?_, fun body hbody => ?_⟩
  · exact isNext_of_value (hvalue.trans (if_neg hother)) htag
  rw [show behind.dropWhile Text.isWordChar = '$' :: body from hbody, List.head?_cons,
    if_pos rfl, List.tail_cons, readTagged, value_map] at hvalue
  have hmove : ∀ more, lead ++ mark ++ more = lead ++ '$' :: tag ++ '$' :: more := by
    intro more
    simp [mark]
  apply closesAtFirst_of_value (List.cons_ne_nil _ _)
  · rw [hmove]
    exact hvalue
  · rw [hmove, ← hbody, htag]

/-- The second dollar sign of an opener is no part of the closer, and what only
begins like the closer does not close. -/
theorem isNext_of_bodyAs_among_near_closers :
    let script := "As\t$é$;'-- $$ $é x$é$é$;".toList
    let plain := "AS $$$ END;$$".toList
    (Keyword.ofWord? (script.takeWhile Text.isWordChar) = some .bodyAs ∧
        Keyword.ofWord? (plain.takeWhile Text.isWordChar) = some .bodyAs) ∧
      IsNext script (.text "As\t$é$;'-- $$ $é x$é$".toList) "é$;".toList ∧
        IsNext plain (.text plain) [] := by
  intro script plain
  have hscript : Keyword.ofWord? (script.takeWhile Text.isWordChar) = some .bodyAs := by
    decide +kernel
  have hplain : Keyword.ofWord? (plain.takeWhile Text.isWordChar) = some .bodyAs := by
    decide +kernel
  obtain ⟨-, htag⟩ := isNext_of_bodyAs script hscript
  obtain ⟨-, hbody⟩ := htag "é$;'-- $$ $é x$é$é$;".toList (by decide +kernel)
  have hcloses := hbody ";'-- $$ $é x$é$é$;".toList (by decide +kernel)
  have hnext := hcloses.closed 15 (by decide +kernel) (by decide +kernel)
  obtain ⟨-, htag'⟩ := isNext_of_bodyAs plain hplain
  obtain ⟨-, hbody'⟩ := htag' "$$ END;$$".toList (by decide +kernel)
  have hcloses' := hbody' "$ END;$$".toList (by decide +kernel)
  have hnext' := hcloses'.closed 8 (by decide +kernel) (by decide +kernel)
  refine ⟨⟨hscript, hplain⟩, Eq.mp (congrArg₂ (IsNext script) ?_ ?_) hnext,
    Eq.mp (congrArg₂ (IsNext plain) ?_ ?_) hnext'⟩ <;> decide +kernel

end Token

end SqlScript

/-
Lexing is stable under cutting at token boundaries.  Every token form is read
locally, so neither the text before a token nor the text behind the tokens that
follow it has a say in where it ends.  The lexemes of any consecutive tokens of
a text therefore lex to these tokens again.
-/
import SqlScript.Proofs.Reading.Locality
import SqlScript.Proofs.Token.Lossless

namespace SqlScript

namespace Directive

theorem read_local (keyword : Text) : Reading.Local (read keyword) :=
  (Reading.takeThrough_local endsDirective).map _

end Directive

namespace Token

open Reading

theorem readQuoted_local (quote : Char) : Local (readQuoted quote) := by
  intro t
  fun_induction readQuoted quote t with
  | case1 => exact .of_cutShort rfl
  | case2 c => exact .of_cutShort rfl
  | case3 rest ih =>
      refine (ih.map fun t => quote :: quote :: t).behind [quote, quote] fun t => ?_
      simp [readQuoted]
  | case4 d rest hd =>
      intro a left hread
      obtain ⟨rfl, rfl⟩ : [quote] = a ∧ d :: rest = left := by
        simpa [readQuoted, hd] using hread
      refine ⟨[quote], rfl, rfl, rfl, ?_⟩
      intro other hother
      obtain ⟨more, rfl⟩ := hother.cons
      simp [readQuoted, hd]
  | case5 c d rest hc ih =>
      refine (ih.map (c :: ·)).behind [c] fun t => ?_
      cases t with
      | nil => rfl
      | cons e t => simp [readQuoted, hc]

theorem readLineComment_local : Local readLineComment :=
  takeThrough_local _

theorem readBlockComment_local : Local readBlockComment :=
  takeThroughMark_local (by simp)

theorem readTagged_local (lead tag : Text) : Local (readTagged lead tag) :=
  (takeThroughMark_local (by simp)).map _

theorem readTag_local (lead : Text) : Local (readTag lead) := by
  intro t
  refine (takeRun_local Text.isWordChar t).andThen fun tag rest htag => ?_
  refine .of_lead '$' (rest_ne_nil_of_takeRun htag) (readTagged_local lead tag)
    (fun _ => rfl) ?_ rfl rfl
  intro c rest hc
  simp [hc]

theorem readBody_local (word : Text) : Local (readBody word) := by
  intro t
  refine (takeRun_local Text.isBlank t).andThen fun blanks rest hblanks => ?_
  refine .of_lead '$' (rest_ne_nil_of_takeRun hblanks) (readTag_local (word ++ blanks))
    (fun _ => rfl) ?_ rfl rfl
  intro c rest hc
  simp [hc]

theorem readBehindWord_local (word : Text) : Local (readBehindWord word) := by
  unfold readBehindWord
  split
  · exact settled_local _
  · exact settled_local _
  · exact (Directive.read_local word).map _
  · exact readBody_local word
  · exact settled_local _

theorem readDash_local : Local readDash := by
  intro t
  cases t with
  | nil => exact .of_cutShort rfl
  | cons d t =>
      refine .of_lead '-' (List.cons_ne_nil d t)
        (readLineComment_local.map fun body => .text ('-' :: '-' :: body)) (fun _ => rfl) ?_ rfl rfl
      intro c t hc
      simp [readDash, hc]

theorem readSlash_local : Local readSlash := by
  intro t
  cases t with
  | nil => exact .of_cutShort rfl
  | cons d t =>
      refine .of_lead '*' (List.cons_ne_nil d t)
        (readBlockComment_local.map fun body => .text ('/' :: '*' :: body)) (fun _ => rfl) ?_ rfl rfl
      intro c t hc
      simp [readSlash, hc]

/-- Every token is read locally. -/
theorem read_local (c : Char) : Local (read c) := by
  unfold read
  split
  · exact (readQuoted_local c).map _
  split
  · exact readDash_local
  split
  · exact readSlash_local
  split
  · exact settled_local _
  split
  · intro t
    exact (takeRun_local Text.isWordChar t).andThen fun run rest _ =>
      readBehindWord_local (c :: run) rest
  · exact settled_local _

/-- Cutting a text somewhere behind its first token leaves that token alone. -/
theorem read_before_front {c : Char} {t other : Text} (h : other <+: (read c t).rest) :
    ∃ body, (read c t).value.lexeme = c :: body ∧
      (read c (body ++ other)).value = (read c t).value ∧ (read c (body ++ other)).rest = other := by
  have hsplit := read_partitions c t
  cases hread : read c t with
  | settled token rest =>
      obtain ⟨body, ht, hbody⟩ := read_local c t token rest hread
      rw [hread] at hsplit h
      refine ⟨body, ?_, hbody.before_front h⟩
      rw [Partitions, ht, ← List.cons_append] at hsplit
      exact List.append_cancel_right hsplit
  | cutShort token =>
      rw [hread] at hsplit h
      refine ⟨t, by simpa [Partitions] using hsplit, ?_⟩
      rw [List.prefix_nil.mp h, List.append_nil, hread]
      exact ⟨rfl, rfl⟩

/-- The first tokens of a text do not depend on those behind them. -/
theorem lex_flatMap_take (t : Text) (n : Nat) :
    lex (((lex t).take n).flatMap lexeme) = (lex t).take n := by
  induction n generalizing t with
  | zero => simp
  | succ n ih =>
      cases t with
      | nil => simp
      | cons c t =>
          have hfront : ((lex (read c t).rest).take n).flatMap lexeme <+: (read c t).rest := by
            refine ⟨((lex (read c t).rest).drop n).flatMap lexeme, ?_⟩
            rw [← List.flatMap_append, List.take_append_drop, flatMap_lexeme_lex]
          obtain ⟨body, hlexeme, hvalue, hrest⟩ := read_before_front hfront
          rw [lex_cons, List.take_succ_cons, List.flatMap_cons, hlexeme, List.cons_append,
            lex_cons, hvalue, hrest, ih]

/-- The last tokens of a text do not depend on those in front of them. -/
theorem lex_flatMap_drop (t : Text) (n : Nat) :
    lex (((lex t).drop n).flatMap lexeme) = (lex t).drop n := by
  induction n generalizing t with
  | zero => rw [List.drop_zero, flatMap_lexeme_lex]
  | succ n ih =>
      cases t with
      | nil => simp
      | cons c t => rw [lex_cons, List.drop_succ_cons, ih]

/-- The lexemes of consecutive tokens of a text, from the `i`-th up to the
`j`-th, lex to exactly these tokens. -/
theorem lex_slice (t : Text) (i j : Nat) :
    lex ((((lex t).take j).drop i).flatMap lexeme) = ((lex t).take j).drop i := by
  have htake := lex_flatMap_take t j
  have hdrop := lex_flatMap_drop (((lex t).take j).flatMap lexeme) i
  rwa [htake] at hdrop

end Token

end SqlScript

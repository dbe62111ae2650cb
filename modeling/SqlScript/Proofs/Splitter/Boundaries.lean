/-
Where statements end.  Without directives a script's statements are its tokens,
cut behind each semicolon that stands outside every block of its statement, and
nothing is reported.  One counter for the whole run does as well as a fresh one
for each statement, since a statement only ends where the counter is zero.
-/
import SqlScript.Proofs.Splitter.Steps
import SqlScript.Proofs.Token.Lossless

namespace SqlScript

namespace Token

/-- Cut tokens right behind each semicolon met at depth zero.  The depth starts
anew behind each cut; in front of the first it is `depth`.  Tokens that no
semicolon ends are the last group. -/
def statementGroups (depth : Nat) : List Token → List (List Token)
  | [] => []
  | token :: others =>
      if token = .statementEnd ∧ depth = 0 then [token] :: statementGroups 0 others
      else
        match statementGroups (token.depthAfter depth) others with
        | [] => [[token]]
        | group :: groups => (token :: group) :: groups

/-- The text of a group of tokens. -/
def groupText (group : List Token) : Text :=
  group.flatMap lexeme

/-- Cutting tokens into groups keeps them all, in order. -/
theorem flatten_statementGroups (depth : Nat) (tokens : List Token) :
    (statementGroups depth tokens).flatten = tokens := by
  induction tokens generalizing depth with
  | nil => rfl
  | cons token others ih =>
      rw [statementGroups]
      split
      · rw [List.flatten_cons, ih, List.singleton_append]
      · have hothers := ih (token.depthAfter depth)
        split
        · rename_i hgroups
          rw [hgroups] at hothers
          rw [← hothers]
          rfl
        · rename_i group groups hgroups
          rw [hgroups] at hothers
          rw [← hothers]
          rfl

theorem flatten_map_groupText (groups : List (List Token)) :
    (groups.map groupText).flatten = groups.flatten.flatMap lexeme := by
  induction groups with
  | nil => rfl
  | cons group groups ih =>
      rw [List.map_cons, List.flatten_cons, ih, List.flatten_cons, List.flatMap_append]
      rfl

end Token

namespace Splitter

open Token

/-- Texts of which the first goes on behind `pending`.  When there are none,
`pending` is all there is. -/
def continuing (pending : Text) : List Text → List Text
  | [] => unlessEmpty pending
  | first :: others => (pending ++ first) :: others

theorem continuing_nil (texts : List Text) : continuing [] texts = texts := by
  cases texts with
  | nil => rfl
  | cons first others => rfl

/-- A token that does not end its group may as well be pending. -/
theorem continuing_statementGroups_cons {depth : Nat} {token : Token}
    (hend : ¬ (token = .statementEnd ∧ depth = 0)) (hne : token.lexeme ≠ [])
    (pending : Text) (others : List Token) :
    continuing pending ((statementGroups depth (token :: others)).map groupText) =
      continuing (pending ++ token.lexeme)
        ((statementGroups (token.depthAfter depth) others).map groupText) := by
  rw [statementGroups, if_neg hend]
  cases statementGroups (token.depthAfter depth) others with
  | nil => simp [continuing, groupText, unlessEmpty, hne]
  | cons group groups => simp [continuing, groupText]

/-- From any state under the semicolon, the statements of a text without
directives are its groups, the first of which goes on behind the buffer. -/
theorem run_of_no_directive (options : Options) (state : State) (t : Text)
    (hdelimiter : state.delimiter = Event.semicolon) (hnone : ∀ d, Token.directive d ∉ lex t) :
    (run options state t).statements =
        continuing state.buffer ((statementGroups state.depth (lex t)).map groupText) ∧
      (run options state t).log = [] := by
  induction state, t using run_induction options with
  | done state =>
      rw [statements_run_nil, log_run_nil, lex_nil]
      exact ⟨rfl, rfl⟩
  | step state c t ih =>
      rw [statements_run_cons, log_run_cons, read_of_semicolon hdelimiter, Reading.rest_map]
      rw [read_of_semicolon hdelimiter, Reading.rest_map] at ih
      rw [firstStep_of_semicolon hdelimiter] at ih ⊢
      rw [lex_cons] at hnone ⊢
      have hothers : ∀ d, Token.directive d ∉ lex (read c t).rest :=
        fun d hd => hnone d (List.mem_cons_of_mem _ hd)
      by_cases hend : (read c t).value = .statementEnd ∧ state.depth = 0
      · obtain ⟨htoken, hdepth⟩ := hend
        rw [htoken, State.takeToken, if_pos hdepth] at ih ⊢
        obtain ⟨hstatements, hlog⟩ := ih hdelimiter hothers
        rw [hstatements, hlog, statementGroups, if_pos ⟨rfl, hdepth⟩]
        rw [State.buffer_clear, State.depth_clear, hdepth, continuing_nil]
        refine ⟨?_, rfl⟩
        simp [continuing, groupText]
      · have hdirective : ∀ d, (read c t).value ≠ .directive d := by
          intro d hd
          exact hnone d (hd ▸ List.mem_cons_self)
        have hstep := takeToken_collects options hend hdirective
        obtain ⟨hstatements, hlog⟩ := ih (hstep.delimiter.trans hdelimiter) hothers
        rw [hstep.statements, hstep.log, hstatements, hlog, hstep.buffer, hstep.depth,
          continuing_statementGroups_cons hend (lexeme_read_ne_nil c t)]
        exact ⟨rfl, rfl⟩

end Splitter

/-- The statements of a script without directives are the groups of its tokens
that end at the semicolons outside all blocks, whatever the options.  Splitting
its bytes succeeds with them and reports nothing, and they concatenate to the
script. -/
theorem split_of_no_directive (options : Options) (t : Text)
    (h : ∀ d, Token.directive d ∉ Token.lex t) :
    split options t = ⟨(Token.statementGroups 0 (Token.lex t)).map Token.groupText, []⟩ ∧
      splitSource options (.ofText t) =
        ⟨.ok ((Token.statementGroups 0 (Token.lex t)).map Token.groupText), []⟩ ∧
      (split options t).statements.flatten = t := by
  have hrun := Splitter.run_of_no_directive options {} t rfl h
  have hsplit : split options t =
      ⟨(Token.statementGroups 0 (Token.lex t)).map Token.groupText, []⟩ := by
    rw [split, hrun.1, hrun.2]
    exact congrArg (Split.mk · []) (Splitter.continuing_nil _)
  refine ⟨hsplit, ?_, ?_⟩
  · rw [splitSource_ofText, hsplit]
  · rw [hsplit, Token.flatten_map_groupText, Token.flatten_statementGroups,
      Token.flatMap_lexeme_lex]

/-- A stray end of a block, a block that holds a semicolon, and a rest. -/
theorem split_stray_end_and_block :
    (∀ d, Token.directive d ∉ Token.lex "END; BEGIN a; END; b".toList) ∧
      split {} "END; BEGIN a; END; b".toList =
        ⟨["END;".toList, " BEGIN a; END;".toList, " b".toList], []⟩ := by
  have hlex : Token.lex "END; BEGIN a; END; b".toList =
      [.blockClose "END".toList, .statementEnd, .text [' '], .blockOpen "BEGIN".toList,
        .text [' '], .text ['a'], .statementEnd, .text [' '], .blockClose "END".toList,
        .statementEnd, .text [' '], .text ['b']] := by
    decide +kernel
  have hnone : ∀ d, Token.directive d ∉ Token.lex "END; BEGIN a; END; b".toList := by
    rw [hlex]
    simp
  have hgroups : (Token.statementGroups 0 (Token.lex "END; BEGIN a; END; b".toList)).map
      Token.groupText = ["END;".toList, " BEGIN a; END;".toList, " b".toList] := by
    rw [hlex]
    decide
  refine ⟨hnone, ?_⟩
  rw [(split_of_no_directive {} _ hnone).1, hgroups]

end SqlScript

/-
Statements are whole.  A statement that was collected from tokens is split to
itself: its tokens are the same on their own, and none of them ends a statement
in front of its end.  The one thing that can go wrong is a block that is still
open at a directive, since the blocks stay open behind it.
-/
import SqlScript.Proofs.Event.Shape
import SqlScript.Proofs.Splitter.Boundaries
import SqlScript.Proofs.Token.Slices

namespace SqlScript

namespace Token

/-- Tokens of a statement that is still going on.  None of them is a directive,
and none ends the statement when blocks are counted from its start; behind them
`depth` blocks are open. -/
inductive Pending : List Token → (depth : Nat) → Prop where
  | nil : Pending [] 0
  | snoc {tokens : List Token} {depth : Nat} {token : Token} (h : Pending tokens depth)
      (hend : ¬ (token = .statementEnd ∧ depth = 0)) (hdirective : ∀ d, token ≠ .directive d) :
      Pending (tokens ++ [token]) (token.depthAfter depth)

theorem Pending.directive_not_mem {tokens : List Token} {depth : Nat} (h : Pending tokens depth)
    (d : Directive) : Token.directive d ∉ tokens := by
  induction h with
  | nil => exact List.not_mem_nil
  | snoc h hend hdirective ih =>
      intro hmem
      rcases List.mem_append.mp hmem with hfront | hlast
      · exact ih hfront
      · exact hdirective d (List.mem_singleton.mp hlast).symm

/-- The first tokens of a text are the tokens of what they were read from. -/
theorem lex_front {s rest : Text} {tokens others : List Token}
    (hlex : lex (s ++ rest) = tokens ++ others) (htext : groupText tokens = s) :
    lex s = tokens := by
  have hfront := lex_flatMap_take (s ++ rest) tokens.length
  rw [hlex, List.take_left] at hfront
  rwa [← htext]

end Token

/-- Splitting a text or its bytes gives just the text, and reports nothing. -/
def SplitsToItself (s : Text) : Prop :=
  ∀ options : Options, split options s = ⟨[s], []⟩ ∧
    splitSource options (.ofText s) = ⟨.ok [s], []⟩

namespace Splitter

open Token

/-- Tokens of a statement that is going on may as well be pending text. -/
theorem continuing_statementGroups_append {tokens : List Token} {depth : Nat}
    (h : Pending tokens depth) (hne : ∀ token ∈ tokens, token.lexeme ≠ [])
    (others : List Token) :
    continuing [] ((statementGroups 0 (tokens ++ others)).map groupText) =
      continuing (groupText tokens) ((statementGroups depth others).map groupText) := by
  induction h generalizing others with
  | nil => rfl
  | @snoc tokens depth token h hend hdirective ih =>
      have hfront : ∀ token ∈ tokens, token.lexeme ≠ [] :=
        fun token htoken => hne token (List.mem_append_left _ htoken)
      have hlast : token.lexeme ≠ [] :=
        hne token (List.mem_append_right _ (List.mem_singleton_self token))
      rw [List.append_assoc, List.singleton_append, ih hfront,
        continuing_statementGroups_cons hend hlast]
      simp [groupText]

theorem splitsToItself_of_groups {s : Text} (hnone : ∀ d, Token.directive d ∉ lex s)
    (hgroups : continuing [] ((statementGroups 0 (lex s)).map groupText) = [s]) :
    SplitsToItself s := by
  intro options
  obtain ⟨hstatements, hlog⟩ := run_of_no_directive options {} s rfl hnone
  have hsplit : split options s = ⟨[s], []⟩ := by
    rw [split, hstatements, hlog]
    exact congrArg (Split.mk · []) hgroups
  refine ⟨hsplit, ?_⟩
  rw [splitSource_ofText, hsplit]

/-- A text whose tokens do not end a statement is the last statement. -/
theorem splitsToItself_of_pending {s : Text} {tokens : List Token} {depth : Nat}
    (hlex : lex s = tokens) (h : Pending tokens depth) (hne : s ≠ []) : SplitsToItself s := by
  subst hlex
  apply splitsToItself_of_groups h.directive_not_mem
  have hgroups := continuing_statementGroups_append h (fun _ => lexeme_ne_nil_of_mem_lex) []
  rw [List.append_nil] at hgroups
  rw [hgroups, show groupText (lex s) = s from flatMap_lexeme_lex s]
  exact if_neg hne

/-- A text whose last token is the first to end a statement is that statement. -/
theorem splitsToItself_of_ended {s : Text} {tokens : List Token}
    (hlex : lex s = tokens ++ [.statementEnd]) (h : Pending tokens 0) : SplitsToItself s := by
  have hnone : ∀ d, Token.directive d ∉ lex s := by
    intro d hmem
    rw [hlex] at hmem
    rcases List.mem_append.mp hmem with hfront | hlast
    · exact h.directive_not_mem d hfront
    · exact absurd (List.mem_singleton.mp hlast) (by simp)
  have hne : ∀ token ∈ tokens, token.lexeme ≠ [] := by
    intro token htoken
    apply lexeme_ne_nil_of_mem_lex (t := s)
    rw [hlex]
    exact List.mem_append_left _ htoken
  apply splitsToItself_of_groups hnone
  have htext : groupText tokens ++ [';'] = s := by
    have hwhole := flatMap_lexeme_lex s
    rwa [hlex, List.flatMap_append] at hwhole
  rw [hlex, continuing_statementGroups_append h hne, statementGroups, if_pos ⟨rfl, rfl⟩]
  exact congrArg (fun t => [t]) htext

/-- The buffer in front of `t` was collected from `tokens`, and they are the
first tokens of the buffer and the text. -/
structure Collected (state : State) (t : Text) (tokens : List Token) : Prop where
  text : groupText tokens = state.buffer
  lexed : lex (state.buffer ++ t) = tokens ++ lex t
  pending : Pending tokens state.depth

/-- Between statements a splitter has collected nothing, and no block is open. -/
structure Fresh (state : State) : Prop where
  buffer : state.buffer = []
  depth : state.depth = 0

/-- Under the semicolon the buffer was collected from tokens of one statement;
under a custom delimiter nothing is pending in front of more text. -/
structure Consistent (state : State) (t : Text) : Prop where
  collected : state.delimiter = Event.semicolon → ∃ tokens, Collected state t tokens
  fresh : state.delimiter ≠ Event.semicolon → t ≠ [] → Fresh state

variable {options : Options} {state : State} {t rest : Text} {token : Token}
  {tokens : List Token}

theorem Fresh.collected (h : Fresh state) (t : Text) : Collected state t [] := by
  refine ⟨h.buffer.symm, ?_, ?_⟩
  · rw [h.buffer]
    rfl
  · rw [h.depth]
    exact .nil

theorem Fresh.consistent (h : Fresh state) (t : Text) : Consistent state t :=
  ⟨fun _ => ⟨[], h.collected t⟩, fun _ _ => h⟩

theorem Fresh.of_clear (hdepth : state.depth = 0) (count : Nat) : Fresh (state.clear count) :=
  ⟨rfl, hdepth⟩

theorem Fresh.setDelimiter (h : Fresh state) (argument : Text) :
    Fresh (state.setDelimiter argument) := by
  constructor
  · rw [State.buffer_setDelimiter, h.buffer]
  · rw [State.depth_setDelimiter, h.depth]

/-- What the buffer holds is a statement of its own, unless it holds nothing. -/
theorem Collected.splitsToItself (h : Collected state t tokens) (hne : state.buffer ≠ []) :
    SplitsToItself state.buffer :=
  splitsToItself_of_pending (lex_front h.lexed h.text) h.pending hne

/-- A semicolon outside all blocks makes the buffer a statement of its own. -/
theorem Collected.splitsToItself_ended (h : Collected state (';' :: t) tokens)
    (hdepth : state.depth = 0) : SplitsToItself (state.buffer ++ [';']) := by
  have hpending := h.pending
  rw [hdepth] at hpending
  have hlex : lex ((state.buffer ++ [';']) ++ t) = (tokens ++ [.statementEnd]) ++ lex t := by
    rw [List.append_assoc, List.singleton_append, h.lexed, lex_cons, List.append_assoc]
    rfl
  have htext : groupText (tokens ++ [.statementEnd]) = state.buffer ++ [';'] := by
    rw [← h.text]
    simp [groupText]
  exact splitsToItself_of_ended (lex_front hlex htext) hpending

/-- Collecting one more token. -/
theorem Collected.snoc {c : Char} {step : Step} (h : Collected state (c :: t) tokens)
    (hend : ¬ ((read c t).value = .statementEnd ∧ state.depth = 0))
    (hdirective : ∀ d, (read c t).value ≠ .directive d)
    (hstep : Collects state (read c t).value step) :
    Collected step.next (read c t).rest (tokens ++ [(read c t).value]) := by
  refine ⟨?_, ?_, ?_⟩
  · rw [hstep.buffer, ← h.text]
    simp [groupText]
  · rw [hstep.buffer, List.append_assoc, show _ ++ _ = c :: t from read_partitions c t, h.lexed,
      lex_cons, List.append_assoc, List.singleton_append]
  · rw [hstep.depth]
    exact .snoc h.pending hend hdirective

theorem mem_unlessBlank {s t : Text} (h : s ∈ unlessBlank t) : s = t ∧ t ≠ [] := by
  by_cases hblank : Text.allBlank t = true
  · rw [unlessBlank, if_pos hblank] at h
    exact absurd h List.not_mem_nil
  · rw [unlessBlank, if_neg hblank] at h
    refine ⟨List.mem_singleton.mp h, ?_⟩
    rintro rfl
    exact hblank rfl

theorem mem_leftover {s : Text} (h : s ∈ state.leftover) :
    s = state.buffer ∧ state.buffer ≠ [] := by
  by_cases hempty : state.buffer = []
  · rw [State.leftover, unlessEmpty, if_pos hempty] at h
    exact absurd h List.not_mem_nil
  · rw [State.leftover, unlessEmpty, if_neg hempty] at h
    exact ⟨List.mem_singleton.mp h, hempty⟩

/-- A token keeps the state consistent and only gives out statements that are
split to themselves, provided that no block is open behind a directive. -/
theorem Collected.takeToken {c : Char} (h : Collected state (c :: t) tokens)
    (hmark : state.delimiter = Event.semicolon)
    (houtside : ∀ d, (read c t).value = .directive d →
      (state.takeToken options (read c t).value).next.depth = 0) :
    Consistent (state.takeToken options (read c t).value).next (read c t).rest ∧
      ∀ s ∈ (state.takeToken options (read c t).value).statements, SplitsToItself s := by
  by_cases hend : (read c t).value = .statementEnd ∧ state.depth = 0
  · obtain ⟨hvalue, hdepth⟩ := hend
    have hsplit := read_partitions c t
    rw [Reading.Partitions, hvalue] at hsplit
    obtain ⟨rfl, hrest⟩ : ';' = c ∧ (read c t).rest = t := by simpa using hsplit
    rw [hvalue, State.takeToken, if_pos hdepth]
    refine ⟨(Fresh.of_clear hdepth _).consistent _, ?_⟩
    intro s hs
    rw [List.mem_singleton.mp hs, State.buffer_collect]
    exact h.splitsToItself_ended hdepth
  by_cases hdirective : ∃ d, (read c t).value = .directive d
  · obtain ⟨d, hvalue⟩ := hdirective
    have hdepth := houtside d hvalue
    rw [hvalue] at hdepth ⊢
    have hfresh : Fresh (state.takeToken options (.directive d)).next :=
      ⟨State.buffer_setDelimiter _ _, hdepth⟩
    refine ⟨hfresh.consistent _, ?_⟩
    intro s hs
    rw [State.takeToken] at hs
    split at hs
    · obtain ⟨rfl, hne⟩ := mem_unlessBlank hs
      exact h.splitsToItself hne
    · exact absurd hs List.not_mem_nil
  · have hnone : ∀ d, (read c t).value ≠ .directive d := fun d hd => hdirective ⟨d, hd⟩
    have hstep := takeToken_collects options hend hnone
    refine ⟨⟨fun _ => ⟨_, h.snoc hend hnone hstep⟩, ?_⟩, ?_⟩
    · intro hcustom _
      exact absurd (hstep.delimiter.trans hmark) hcustom
    · intro s hs
      rw [hstep.statements] at hs
      exact absurd hs List.not_mem_nil

/-- The statements of a step that took a token. -/
def Step.tokenStatements (step : Step) : List Text :=
  match step.event with
  | .token _ => step.statements
  | _ => []

/-- What is left in a buffer that tokens are collected in. -/
def State.tokenLeftover (state : State) : List Text :=
  if state.delimiter = Event.semicolon then state.leftover else []

/-- The statements that a run collects from tokens: those that a semicolon ends,
those in front of a directive, and what is left of tokens at the end. -/
def Run.tokenStatements : Run → List Text
  | .done state => state.tokenLeftover
  | .cut last => last.tokenStatements ++ last.next.tokenLeftover
  | .step first others => first.tokenStatements ++ others.tokenStatements

/-- Whether a step took a directive, and took it as a token. -/
def Step.tookDirective (step : Step) : Bool :=
  match step.event with
  | .token (.directive _) => true
  | _ => false

/-- Every directive among the tokens of a run is met while no block is open.  The
depth is the same in front of a directive and behind it. -/
def Run.DirectivesOutsideBlocks (run : Run) : Prop :=
  ∀ step ∈ run.steps, step.tookDirective = true → step.next.depth = 0

instance (run : Run) : Decidable run.DirectivesOutsideBlocks :=
  inferInstanceAs (Decidable (∀ step ∈ run.steps, _))

/-- What is collected from tokens is among the statements, in order. -/
theorem Run.tokenStatements_sublist (run : Run) : run.tokenStatements.Sublist run.statements := by
  have hstep (step : Step) : step.tokenStatements.Sublist step.statements := by
    rw [Step.tokenStatements]
    split
    · exact List.Sublist.refl _
    · exact List.nil_sublist _
  have hleftover (state : State) : state.tokenLeftover.Sublist state.leftover := by
    rw [State.tokenLeftover]
    split
    · exact List.Sublist.refl _
    · exact List.nil_sublist _
  induction run with
  | done state => exact hleftover state
  | cut last => exact (hstep last).append (hleftover last.next)
  | step first others ih => exact (hstep first).append ih

theorem tokenStatements_run_nil (options : Options) (state : State) :
    (run options state []).tokenStatements = state.tokenLeftover := by
  rw [run_nil]
  rfl

theorem tokenStatements_run_cons (options : Options) (state : State) (c : Char) (t : Text) :
    (run options state (c :: t)).tokenStatements =
      (firstStep options state c t).tokenStatements ++
        (run options (firstStep options state c t).next
          (Event.read state.delimiter c t).rest).tokenStatements := by
  rw [firstStep]
  cases hread : Event.read state.delimiter c t with
  | settled event rest =>
      rw [run_cons_settled hread]
      rfl
  | cutShort event =>
      rw [run_cons_cutShort hread, Reading.rest_cutShort, tokenStatements_run_nil]
      rfl

/-- A raw scan keeps the state consistent. -/
theorem Fresh.take (options : Options) {event : Event} (h : Fresh state)
    (hcustom : state.delimiter ≠ Event.semicolon)
    (hpossible : Event.Possible state.delimiter event rest) :
    Consistent (state.take options event).next rest ∧
      (state.take options event).tokenStatements = [] := by
  cases hpossible with
  | token hmark => exact absurd hmark hcustom
  | statement => exact ⟨(Fresh.of_clear h.depth _).consistent _, rfl⟩
  | directive => exact ⟨((Fresh.of_clear h.depth _).setDelimiter _).consistent _, rfl⟩
  | remainder =>
      refine ⟨⟨fun hmark => absurd hmark hcustom, ?_⟩, rfl⟩
      intro _ hne
      exact absurd rfl hne

theorem event_takeToken (options : Options) (state : State) (token : Token) :
    (state.takeToken options token).event = .token token :=
  event_take options state (.token token)

theorem tokenStatements_takeToken (options : Options) (state : State) (token : Token) :
    (state.takeToken options token).tokenStatements =
      (state.takeToken options token).statements := by
  rw [Step.tokenStatements, event_takeToken]

theorem tookDirective_takeToken (options : Options) (state : State) (d : Directive) :
    (state.takeToken options (.directive d)).tookDirective = true := by
  rw [Step.tookDirective, event_takeToken]

/-- The first step keeps the state consistent, and what it collected from tokens
is split to itself. -/
theorem Consistent.firstStep {c : Char} (h : Consistent state (c :: t))
    (houtside : (firstStep options state c t).tookDirective = true →
      (firstStep options state c t).next.depth = 0) :
    Consistent (firstStep options state c t).next (Event.read state.delimiter c t).rest ∧
      ∀ s ∈ (firstStep options state c t).tokenStatements, SplitsToItself s := by
  by_cases hmark : state.delimiter = Event.semicolon
  · obtain ⟨tokens, hcollected⟩ := h.collected hmark
    rw [firstStep_of_semicolon hmark] at houtside ⊢
    rw [read_of_semicolon hmark, Reading.rest_map, tokenStatements_takeToken]
    apply hcollected.takeToken hmark
    intro d hd
    apply houtside
    rw [hd, tookDirective_takeToken]
  · obtain ⟨hnext, hnone⟩ := (h.fresh hmark (List.cons_ne_nil c t)).take options hmark
      (Event.possible_read state.delimiter c t)
    refine ⟨hnext, ?_⟩
    intro s hs
    rw [Splitter.firstStep, hnone] at hs
    exact absurd hs List.not_mem_nil

/-- From a consistent state, everything that is collected from tokens is split to
itself. -/
theorem splitsToItself_of_mem_tokenStatements (hconsistent : Consistent state t)
    (houtside : (run options state t).DirectivesOutsideBlocks) :
    ∀ s ∈ (run options state t).tokenStatements, SplitsToItself s := by
  induction state, t using run_induction options with
  | done state =>
      intro s hs
      rw [tokenStatements_run_nil, State.tokenLeftover] at hs
      split at hs
      · rename_i hmark
        obtain ⟨tokens, hcollected⟩ := hconsistent.collected hmark
        obtain ⟨rfl, hne⟩ := mem_leftover hs
        exact hcollected.splitsToItself hne
      · exact absurd hs List.not_mem_nil
  | step state c t ih =>
      rw [Run.DirectivesOutsideBlocks, steps_run_cons, List.forall_mem_cons] at houtside
      obtain ⟨hnext, hgiven⟩ := hconsistent.firstStep houtside.1
      intro s hs
      rw [tokenStatements_run_cons] at hs
      rcases List.mem_append.mp hs with hfirst | hothers
      · exact hgiven s hfirst
      · exact ih hnext houtside.2 s hothers

/-- Without directives every statement of a run is collected from tokens. -/
theorem tokenStatements_of_no_directive (options : Options) (state : State) (t : Text)
    (hmark : state.delimiter = Event.semicolon) (hnone : ∀ d, Token.directive d ∉ lex t) :
    (run options state t).DirectivesOutsideBlocks ∧
      (run options state t).tokenStatements = (run options state t).statements := by
  induction state, t using run_induction options with
  | done state =>
      rw [tokenStatements_run_nil, statements_run_nil, State.tokenLeftover, if_pos hmark,
        Run.DirectivesOutsideBlocks, steps_run_nil]
      exact ⟨List.forall_mem_nil _, rfl⟩
  | step state c t ih =>
      rw [lex_cons] at hnone
      have hdirective : ∀ d, (read c t).value ≠ .directive d := by
        intro d hd
        exact hnone d (hd ▸ List.mem_cons_self)
      have hothers : ∀ d, Token.directive d ∉ lex (read c t).rest :=
        fun d hd => hnone d (List.mem_cons_of_mem _ hd)
      rw [Run.DirectivesOutsideBlocks, steps_run_cons, List.forall_mem_cons,
        tokenStatements_run_cons, statements_run_cons]
      rw [read_of_semicolon hmark, Reading.rest_map, firstStep_of_semicolon hmark] at ih ⊢
      have hnext := delimiter_takeToken options state hdirective
      obtain ⟨houtside, hsame⟩ := ih (hnext.trans hmark) hothers
      rw [tokenStatements_takeToken, hsame]
      refine ⟨⟨?_, houtside⟩, rfl⟩
      intro htook
      rw [Step.tookDirective, event_takeToken] at htook
      split at htook
      · rename_i d hd
        exact absurd (Event.token.inj hd) (hdirective d)
      · exact absurd htook Bool.false_ne_true

end Splitter

/-- The statements that are collected from tokens are split to themselves,
provided that no block is open at any directive among the tokens.  In a text
without directives they are all the statements. -/
theorem tokenStatements_splitToThemselves (options : Options) (t : Text) :
    (Splitter.run options {} t).tokenStatements.Sublist (split options t).statements ∧
      ((Splitter.run options {} t).DirectivesOutsideBlocks →
        ∀ s ∈ (Splitter.run options {} t).tokenStatements, SplitsToItself s) ∧
      ((∀ d, Token.directive d ∉ Token.lex t) →
        ∀ s ∈ (split options t).statements, SplitsToItself s) := by
  have hfresh : Splitter.Fresh {} := ⟨rfl, rfl⟩
  have hconsistent := hfresh.consistent t
  refine ⟨(Splitter.run options {} t).tokenStatements_sublist, ?_, ?_⟩
  · exact Splitter.splitsToItself_of_mem_tokenStatements hconsistent
  · intro hnone s hs
    obtain ⟨houtside, hsame⟩ := Splitter.tokenStatements_of_no_directive options {} t rfl hnone
    apply Splitter.splitsToItself_of_mem_tokenStatements hconsistent houtside
    rwa [hsame]

/-- Statements around a custom delimiter, ended by a semicolon, by a directive and
by the end of the text; and a text whose only statement is broken off. -/
theorem tokenStatements_around_custom_delimiter :
    (Splitter.run {} {}
        "BEGIN a; END; x DELIMITER //\ny;//DELIMITER ;\n'b;' BEGIN c;".toList).tokenStatements =
        ["BEGIN a; END;".toList, " x ".toList, "\n'b;' BEGIN c;".toList] ∧
      SplitsToItself "BEGIN a; END;".toList ∧ SplitsToItself " x ".toList ∧
      SplitsToItself "\n'b;' BEGIN c;".toList ∧
      (∀ d, Token.directive d ∉ Token.lex "a /* ;".toList) ∧ SplitsToItself "a /* ;".toList := by
  have hstatements : (Splitter.run {} {}
      "BEGIN a; END; x DELIMITER //\ny;//DELIMITER ;\n'b;' BEGIN c;".toList).tokenStatements =
        ["BEGIN a; END;".toList, " x ".toList, "\n'b;' BEGIN c;".toList] := by
    decide +kernel
  obtain ⟨-, hwhole, -⟩ := tokenStatements_splitToThemselves {}
    "BEGIN a; END; x DELIMITER //\ny;//DELIMITER ;\n'b;' BEGIN c;".toList
  have hall := hwhole (by decide +kernel)
  rw [hstatements] at hall
  have hnone : ∀ d, Token.directive d ∉ Token.lex "a /* ;".toList := by
    rw [show Token.lex "a /* ;".toList = [.text ['a'], .text [' '], .text "/* ;".toList] by
      decide +kernel]
    simp
  obtain ⟨-, -, hplain⟩ := tokenStatements_splitToThemselves {} "a /* ;".toList
  refine ⟨hstatements, hall _ (by simp), hall _ (by simp), hall _ (by simp), hnone, ?_⟩
  apply hplain hnone
  rw [show (split {} "a /* ;".toList).statements = ["a /* ;".toList] by decide +kernel]
  exact List.mem_singleton_self _

end SqlScript

/-
What the depth counts.  Under the semicolon the buffer holds the tokens taken
last, and every one of them moves the depth as it would move a count of its own.
A semicolon that ends a statement leaves the depth at zero.  A directive empties
the buffer too, but leaves the depth alone: the depth is the number of blocks that
are open in the buffer exactly as long as no directive is met inside a block on the
way back to the semicolon.
-/
import SqlScript.Proofs.Splitter.Idempotence

namespace SqlScript

namespace Token

/-- How many blocks are open behind some tokens. -/
def openBlocks (tokens : List Token) : Nat :=
  tokens.foldl depthAfter 0

example : openBlocks [.blockClose "END".toList, .blockOpen "BEGIN".toList, .statementEnd] = 1 := by
  decide

theorem openBlocks_concat (tokens : List Token) (token : Token) :
    openBlocks (tokens ++ [token]) = token.depthAfter (openBlocks tokens) := by
  simp [openBlocks]

end Token

namespace Splitter

open Token

/-- Whether a step met a directive, as a token or in a raw scan. -/
def Step.metDirective (step : Step) : Bool :=
  match step.event with
  | .token (.directive _) => true
  | .directive _ _ => true
  | _ => false

/-- The state that a run from `state` has reached after `n` steps, or at its end. -/
def stateAfter (options : Options) (state : State) (t : Text) (n : Nat) : State :=
  ((run options state t).steps.take n).getLast?.elim state Step.next

/-- The tokens in the buffer are the same on their own and in front of the text. -/
def Lexed (state : State) (t : Text) : Prop :=
  state.delimiter = Event.semicolon → lex (state.buffer ++ t) = lex state.buffer ++ lex t

/-- What a step does to the tokens in the buffer and to the depth.  It collects a
token, ends a statement outside all blocks, or meets a directive. -/
inductive Counts (state : State) (step : Step) : Prop
  | collects {token : Token} (hmark : state.delimiter = Event.semicolon)
      (hevent : step.event = .token token)
      (hlexed : lex step.next.buffer = lex state.buffer ++ [token])
      (hdepth : step.next.depth = token.depthAfter state.depth)
  | ends (hbuffer : step.next.buffer = []) (hdepth : step.next.depth = 0)
  | directs (hmet : step.metDirective = true) (hbuffer : step.next.buffer = [])

variable {options : Options} {state : State} {c : Char} {t : Text}

theorem Lexed.of_empty (h : state.buffer = []) (t : Text) : Lexed state t := by
  intro _
  simp [h]

/-- Collecting the next token adds just that token to those in the buffer. -/
theorem Lexed.collects (h : Lexed state (c :: t)) (hmark : state.delimiter = Event.semicolon)
    {step : Step} (hstep : Collects state (read c t).value step) :
    lex step.next.buffer = lex state.buffer ++ [(read c t).value] ∧
      Lexed step.next (read c t).rest := by
  have hwhole : lex (step.next.buffer ++ (read c t).rest) =
      (lex state.buffer ++ [(read c t).value]) ++ lex (read c t).rest := by
    rw [hstep.buffer, List.append_assoc, show _ ++ _ = c :: t from read_partitions c t, h hmark,
      lex_cons, List.append_assoc, List.singleton_append]
  have htext : groupText (lex state.buffer ++ [(read c t).value]) = step.next.buffer := by
    rw [groupText, List.flatMap_append, flatMap_lexeme_lex, hstep.buffer]
    simp
  have hlexed := lex_front hwhole htext
  refine ⟨hlexed, fun _ => ?_⟩
  rw [hlexed, hwhole]

/-- The tokens in the buffer stay what they are, and a token counts what it does. -/
theorem Lexed.takeToken (h : Lexed state (c :: t)) (hmark : state.delimiter = Event.semicolon) :
    Lexed (state.takeToken options (read c t).value).next (read c t).rest ∧
      Counts state (state.takeToken options (read c t).value) := by
  by_cases hend : (read c t).value = .statementEnd ∧ state.depth = 0
  · obtain ⟨hvalue, hdepth⟩ := hend
    rw [hvalue, State.takeToken, if_pos hdepth]
    exact ⟨.of_empty rfl _, .ends rfl hdepth⟩
  by_cases hdirective : ∃ d, (read c t).value = .directive d
  · obtain ⟨d, hvalue⟩ := hdirective
    rw [hvalue]
    have hempty : (state.takeToken options (.directive d)).next.buffer = [] :=
      State.buffer_setDelimiter _ _
    exact ⟨.of_empty hempty _, .directs rfl hempty⟩
  · have hstep := takeToken_collects options hend fun d hd => hdirective ⟨d, hd⟩
    obtain ⟨hlexed, hothers⟩ := h.collects hmark hstep
    exact ⟨hothers, .collects hmark (event_takeToken options state _) hlexed hstep.depth⟩

/-- The tokens in the buffer stay what they are, and a step that leads to the
semicolon counts what it does. -/
theorem Lexed.firstStep (options : Options) (h : Lexed state (c :: t)) :
    Lexed (firstStep options state c t).next (Event.read state.delimiter c t).rest ∧
      ((firstStep options state c t).next.delimiter = Event.semicolon →
        Counts state (firstStep options state c t)) := by
  by_cases hmark : state.delimiter = Event.semicolon
  · rw [firstStep_of_semicolon hmark, read_of_semicolon hmark, Reading.rest_map]
    obtain ⟨hlexed, hcounts⟩ := h.takeToken hmark
    exact ⟨hlexed, fun _ => hcounts⟩
  · have hpossible := Event.possible_read state.delimiter c t
    rw [Splitter.firstStep]
    generalize Event.read state.delimiter c t = reading at hpossible
    generalize reading.value = event at hpossible
    generalize reading.rest = rest at hpossible
    cases hpossible with
    | token hsemicolon => exact absurd hsemicolon hmark
    | statement => exact ⟨.of_empty rfl rest, fun hnext => absurd hnext hmark⟩
    | @directive preceding rest d =>
        have hempty : (state.take options (.directive preceding d)).next.buffer = [] :=
          State.buffer_setDelimiter _ _
        exact ⟨.of_empty hempty rest, fun _ => .directs rfl hempty⟩
    | remainder => exact ⟨fun hnext => absurd hnext hmark, fun hnext => absurd hnext hmark⟩

theorem stateAfter_zero : stateAfter options state t 0 = state := by
  simp [stateAfter]

theorem stateAfter_nil (n : Nat) : stateAfter options state [] n = state := by
  rw [stateAfter, steps_run_nil, List.take_nil]
  rfl

theorem stateAfter_succ (n : Nat) :
    stateAfter options state (c :: t) (n + 1) =
      stateAfter options (firstStep options state c t).next
        (Event.read state.delimiter c t).rest n := by
  rw [stateAfter, steps_run_cons, List.take_succ_cons, List.getLast?_cons, stateAfter]
  cases ((run options _ _).steps.take n).getLast? <;> rfl

/-- What holds in front of a text, and is kept by the step of every event, holds
wherever the run gets; the steps that are left are those of the text ahead. -/
theorem stateAfter_induction {motive : List Step → State → Text → Prop} (options : Options)
    (hstep : ∀ {past : List Step} {state : State} {c : Char} {t : Text},
      motive past state (c :: t) →
        motive (past ++ [firstStep options state c t]) (firstStep options state c t).next
          (Event.read state.delimiter c t).rest)
    {past : List Step} {state : State} {t : Text} (start : motive past state t) (n : Nat) :
    ∃ rest, motive (past ++ (run options state t).steps.take n) (stateAfter options state t n) rest ∧
      (run options (stateAfter options state t n) rest).steps =
        (run options state t).steps.drop n := by
  induction n generalizing state t past with
  | zero =>
      rw [stateAfter_zero, List.take_zero, List.append_nil]
      exact ⟨t, start, rfl⟩
  | succ n ih =>
      cases t with
      | nil =>
          rw [stateAfter_nil, steps_run_nil, List.take_nil, List.append_nil]
          exact ⟨[], start, steps_run_nil options state⟩
      | cons c t =>
          rw [stateAfter_succ, steps_run_cons, List.take_succ_cons, List.append_cons,
            List.drop_succ_cons]
          exact ih (hstep start)

/-- What the steps `past` have made of the buffer and of the depth, with the text
`rest` ahead. -/
structure Counted (past : List Step) (state : State) (rest : Text) : Prop where
  lexed : Lexed state rest
  /-- The tokens in the buffer are those that were taken last. -/
  latest : state.delimiter = Event.semicolon →
    (lex state.buffer).map Event.token <:+ past.map Step.event
  /-- The depth counts what is open in the buffer, unless a directive kept it. -/
  depth : (∀ step ∈ past, step.metDirective = true →
      step.next.delimiter = Event.semicolon → step.next.depth = 0) →
    state.delimiter = Event.semicolon → state.depth = openBlocks (lex state.buffer)

variable {past : List Step}

theorem counted_start (t : Text) : Counted [] {} t where
  lexed := .of_empty rfl t
  latest _ := by
    rw [show lex ({} : State).buffer = [] from lex_nil]
    exact List.nil_suffix
  depth _ _ := by
    rw [show lex ({} : State).buffer = [] from lex_nil]
    rfl

theorem Counted.firstStep (options : Options) (h : Counted past state (c :: t)) :
    Counted (past ++ [firstStep options state c t]) (firstStep options state c t).next
      (Event.read state.delimiter c t).rest := by
  obtain ⟨hlexed, hcounts⟩ := h.lexed.firstStep options
  generalize Splitter.firstStep options state c t = step at hlexed hcounts ⊢
  refine ⟨hlexed, ?_, ?_⟩
  · intro hmark
    rw [List.map_append]
    cases hcounts hmark with
    | collects hstart hevent hbuffer hdepth =>
        rw [hbuffer, List.map_append, List.map_singleton, List.map_singleton, hevent]
        exact (List.suffix_append_self_iff).mpr (h.latest hstart)
    | ends hbuffer hdepth =>
        rw [hbuffer, lex_nil]
        exact List.nil_suffix
    | directs hmet hbuffer =>
        rw [hbuffer, lex_nil]
        exact List.nil_suffix
  · intro hdirectives hmark
    cases hcounts hmark with
    | collects hstart hevent hbuffer hdepth =>
        have hbefore := h.depth (fun step hstep => hdirectives step (by simp [hstep])) hstart
        rw [hbuffer, hdepth, openBlocks_concat, hbefore]
    | ends hbuffer hdepth =>
        rw [hbuffer, hdepth, lex_nil]
        rfl
    | directs hmet hbuffer =>
        rw [hbuffer, hdirectives step (by simp) hmet hmark, lex_nil]
        rfl

/-- Every state that a run reaches is counted by the steps that led there. -/
theorem Counted.after (options : Options) (h : Counted past state t) (n : Nat) :
    ∃ rest, Counted (past ++ (run options state t).steps.take n)
      (stateAfter options state t n) rest := by
  obtain ⟨rest, hcounted, -⟩ := stateAfter_induction options (Counted.firstStep options) h n
  exact ⟨rest, hcounted⟩

/-- A directive empties the buffer. -/
theorem buffer_of_metDirective (state : State) (event : Event)
    (h : (state.take options event).metDirective = true) :
    (state.take options event).next.buffer = [] := by
  rw [Step.metDirective, event_take] at h
  split at h
  · exact State.buffer_setDelimiter _ _
  · exact State.buffer_setDelimiter _ _
  · exact absurd h (by simp)

/-- Every step of a run leads to a state that the run reaches. -/
theorem exists_stateAfter_of_mem {step : Step} (h : step ∈ (run options state t).steps) :
    (∃ n, stateAfter options state t n = step.next) ∧
      (step.metDirective = true → step.next.buffer = []) := by
  induction state, t using run_induction options with
  | done state =>
      rw [steps_run_nil] at h
      exact absurd h List.not_mem_nil
  | step state c t ih =>
      rw [steps_run_cons] at h
      rcases List.mem_cons.mp h with rfl | hothers
      · refine ⟨⟨1, ?_⟩, buffer_of_metDirective state _⟩
        rw [stateAfter_succ, stateAfter_zero]
      · obtain ⟨⟨n, hn⟩, hbuffer⟩ := ih hothers
        exact ⟨⟨n + 1, by rw [stateAfter_succ, hn]⟩, hbuffer⟩

/-- In every state that a splitter reaches under the semicolon, the tokens in the
buffer are those that were taken last.  The depth is the number of blocks that are
open among them if and only if no directive, wherever it was met, leads to the
semicolon while a block is open. -/
theorem depth_eq_openBlocks_iff (options : Options) (t : Text) :
    (∀ n, (stateAfter options {} t n).delimiter = Event.semicolon →
        (lex (stateAfter options {} t n).buffer).map Event.token <:+
          ((run options {} t).steps.take n).map Step.event) ∧
      ((∀ n, (stateAfter options {} t n).delimiter = Event.semicolon →
          (stateAfter options {} t n).depth =
            openBlocks (lex (stateAfter options {} t n).buffer)) ↔
        ∀ step ∈ (run options {} t).steps, step.metDirective = true →
          step.next.delimiter = Event.semicolon → step.next.depth = 0) := by
  refine ⟨fun n hmark => ?_, ?_, fun hdirectives n hmark => ?_⟩
  · obtain ⟨rest, hcounted⟩ := (counted_start t).after options n
    exact hcounted.latest hmark
  · intro hcounted step hstep hmet hmark
    obtain ⟨⟨n, hn⟩, hbuffer⟩ := exists_stateAfter_of_mem hstep
    have hdepth := hcounted n
    rw [hn, hbuffer hmet, lex_nil] at hdepth
    exact hdepth hmark
  · obtain ⟨rest, hcounted⟩ := (counted_start t).after options n
    apply hcounted.depth ?_ hmark
    intro step hstep
    exact hdirectives step (List.mem_of_mem_take hstep)

/-- A directive inside a block leaves the block open in front of an empty buffer,
and the semicolon behind `a` does not end its statement. -/
theorem stale_depth_behind_directive :
    let script := "BEGIN\nDELIMITER //\nx//\nDELIMITER ;\na; b;".toList
    (∃ n, (stateAfter {} {} script n).delimiter = Event.semicolon ∧
        (stateAfter {} {} script n).buffer = [] ∧ (stateAfter {} {} script n).depth = 1) ∧
      ¬ (∀ n, (stateAfter {} {} script n).delimiter = Event.semicolon →
          (stateAfter {} {} script n).depth =
            openBlocks (lex (stateAfter {} {} script n).buffer)) ∧
        (split {} script).statements =
          ["BEGIN\n".toList, "x".toList, "\na; b;".toList] := by
  intro script
  have hstate : (stateAfter {} {} script 5).delimiter = Event.semicolon ∧
      (stateAfter {} {} script 5).buffer = [] ∧ (stateAfter {} {} script 5).depth = 1 := by
    decide +kernel
  refine ⟨⟨5, hstate⟩, ?_, by decide +kernel⟩
  intro hcounted
  obtain ⟨hmark, hbuffer, hdepth⟩ := hstate
  have hzero := hcounted 5 hmark
  rw [hbuffer, hdepth, lex_nil] at hzero
  exact absurd hzero (by decide)

end Splitter

end SqlScript

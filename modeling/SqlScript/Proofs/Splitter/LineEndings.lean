/-
Splitting and line endings.  A script with a carriage return in front of every
newline has the same statements, with the same change of their line endings.  The
two runs are compared step by step: the delimiter and the open blocks agree, and
so do the buffers up to line endings.  A newline under the semicolon is the one
event that the other run takes in two steps.
-/
import SqlScript.Proofs.Event.LineEndings
import SqlScript.Proofs.Source.RoundTrip
import SqlScript.Proofs.Splitter.Steps

namespace SqlScript

namespace Token

theorem depthAfter_crlf (depth : Nat) (token : Token) :
    token.crlf.depthAfter depth = token.depthAfter depth := by
  cases token <;> rfl

/-- A carriage return and a newline are tokens of their own. -/
theorem read_lineEnding {c : Char} (hc : c = '\r' ∨ c = '\n') (t : Text) :
    read c t = .settled (.text [c]) t := by
  have hplain : ¬ (c = '\'' ∨ c = '"') ∧ c ≠ '-' ∧ c ≠ '/' ∧ c ≠ ';' ∧
      ¬ Text.isWordStart c = true := by
    rcases hc with rfl | rfl <;> decide
  obtain ⟨hquote, hdash, hslash, hsemicolon, hstart⟩ := hplain
  rw [read, if_neg hquote, if_neg hdash, if_neg hslash, if_neg hsemicolon, if_neg hstart]

end Token

namespace Splitter

open Directive

theorem unlessBlank_crlf (t : Text) : unlessBlank (Text.crlf t) = (unlessBlank t).map Text.crlf := by
  rw [unlessBlank, unlessBlank, Text.allBlank_crlf]
  split <;> rfl

theorem unlessEmpty_crlf (t : Text) : unlessEmpty (Text.crlf t) = (unlessEmpty t).map Text.crlf := by
  simp only [unlessEmpty, Text.crlf_eq_nil_iff]
  split <;> rfl

/-- A state of the run over a script, and a state of the run over the script with
other line endings. -/
structure Corresponds (state other : State) : Prop where
  delimiter : other.delimiter = state.delimiter
  depth : other.depth = state.depth
  buffer : other.buffer = Text.crlf state.buffer

namespace Corresponds

variable {options : Options} {state other : State}

theorem leftover (h : Corresponds state other) :
    other.leftover = state.leftover.map Text.crlf := by
  rw [State.leftover, h.buffer, unlessEmpty_crlf, State.leftover]

theorem clear (h : Corresponds state other) (count taken : Nat) :
    Corresponds (state.clear count) (other.clear taken) :=
  ⟨h.delimiter, h.depth, rfl⟩

theorem setDelimiter (h : Corresponds state other) (argument : Text) :
    Corresponds (state.setDelimiter argument) (other.setDelimiter argument) := by
  constructor
  · rw [State.delimiter_setDelimiter, State.delimiter_setDelimiter, h.delimiter]
  · rw [State.depth_setDelimiter, State.depth_setDelimiter, h.depth]
  · rw [State.buffer_setDelimiter, State.buffer_setDelimiter, h.buffer]

/-- Tokens that are just collected keep the buffers alike. -/
theorem collects (h : Corresponds state other) {token : Token} {step step' : Step}
    (hstep : Collects state token step) (hother : Collects other token.crlf step') :
    Corresponds step.next step'.next := by
  constructor
  · rw [hstep.delimiter, hother.delimiter, h.delimiter]
  · rw [hstep.depth, hother.depth, h.depth, Token.depthAfter_crlf]
  · rw [hstep.buffer, hother.buffer, h.buffer, Token.lexeme_crlf, Text.crlf_append]

/-- A token gives out the same statements and leads to states that correspond. -/
theorem takeToken (h : Corresponds state other) {token : Token} {rest : Text}
    (hdirective : ∀ d, token = .directive d → d.IsBefore rest) :
    (other.takeToken options token.crlf).statements =
        (state.takeToken options token).statements.map Text.crlf ∧
      Corresponds (state.takeToken options token).next
        (other.takeToken options token.crlf).next := by
  by_cases hend : token = .statementEnd ∧ state.depth = 0
  · obtain ⟨rfl, hdepth⟩ := hend
    have hother : other.depth = 0 := h.depth.trans hdepth
    rw [Token.crlf, State.takeToken, State.takeToken, if_pos hdepth, if_pos hother]
    refine ⟨?_, h.clear _ _⟩
    simp [h.buffer, Text.crlf_cons]
  by_cases hdirectives : ∃ d, token = .directive d
  · obtain ⟨d, rfl⟩ := hdirectives
    have hsame := (hdirective d rfl).delimiter_crlf
    rw [Token.crlf, State.takeToken, State.takeToken, hsame, h.buffer, unlessBlank_crlf]
    refine ⟨?_, (h.clear _ _).setDelimiter d.delimiter⟩
    split <;> rfl
  · have hnone : ∀ d, token ≠ .directive d := fun d hd => hdirectives ⟨d, hd⟩
    have hstep := takeToken_collects options hend hnone
    have hother : Collects other token.crlf (other.takeToken options token.crlf) := by
      apply takeToken_collects
      · rintro ⟨htoken, hdepth⟩
        apply hend
        cases token with
        | statementEnd => exact ⟨rfl, h.depth.symm.trans hdepth⟩
        | _ => exact absurd htoken (by simp [Token.crlf])
      · intro d hd
        cases token with
        | directive d => exact hnone d rfl
        | _ => exact absurd hd (by simp [Token.crlf])
    refine ⟨?_, h.collects hstep hother⟩
    rw [hstep.statements, hother.statements, List.map_nil]

/-- An event gives out the same statements and leads to states that correspond. -/
theorem take (options : Options) (h : Corresponds state other) {event : Event} {rest : Text}
    (hpossible : Event.Possible state.delimiter event rest) :
    (other.take options event.crlf).statements =
        (state.take options event).statements.map Text.crlf ∧
      Corresponds (state.take options event).next (other.take options event.crlf).next := by
  cases hpossible with
  | token hmark hdirective => exact h.takeToken hdirective
  | statement hmark => exact ⟨unlessBlank_crlf _, h.clear _ _⟩
  | @directive preceding rest d hmark hdirective =>
      rw [Event.crlf, State.take, State.take, hdirective.delimiter_crlf]
      exact ⟨unlessBlank_crlf preceding, (h.clear _ _).setDelimiter d.delimiter⟩
  | remainder hmark hkeyword =>
      refine ⟨rfl, h.delimiter, h.depth, ?_⟩
      simp [State.take, State.buffer, Event.crlf]

end Corresponds

variable {options : Options} {state other : State}

/-- Under the semicolon a carriage return or a newline is just collected. -/
theorem run_lineEnding (options : Options) (hmark : state.delimiter = Event.semicolon) {c : Char}
    (hc : c = '\r' ∨ c = '\n') (t : Text) :
    (run options state (c :: t)).statements =
      (run options (state.collect [c]) t).statements := by
  have hread := Token.read_lineEnding hc t
  rw [statements_run_cons, firstStep_of_semicolon hmark, read_of_semicolon hmark, hread]
  rfl

/-- A newline under the semicolon is taken in two steps of the other run. -/
theorem Corresponds.newline (h : Corresponds state other) :
    Corresponds (state.collect ['\n']) ((other.collect ['\r']).collect ['\n']) := by
  refine ⟨h.delimiter, h.depth, ?_⟩
  simp [h.buffer]

/-- From states that correspond, the run over the text with other line endings
gives out the statements with other line endings. -/
theorem run_crlf (h : Corresponds state other) (hmark : PossibleDelimiter state.delimiter)
    (t : Text) : (run options other (Text.crlf t)).statements =
      (run options state t).statements.map Text.crlf := by
  induction state, t using run_induction options generalizing other with
  | done state =>
      rw [Text.crlf_nil, statements_run_nil, statements_run_nil, h.leftover]
  | step state c t ih =>
      by_cases hline : c = '\n' ∧ state.delimiter = Event.semicolon
      · obtain ⟨rfl, hsemicolon⟩ := hline
        have hother : other.delimiter = Event.semicolon := h.delimiter.trans hsemicolon
        have hbehind : (other.collect ['\r']).delimiter = Event.semicolon := hother
        have hfirst := Token.read_lineEnding (.inr rfl) t
        rw [firstStep_of_semicolon hsemicolon, read_of_semicolon hsemicolon, hfirst] at ih
        rw [Text.crlf_newline, run_lineEnding options hother (.inl rfl),
          run_lineEnding options hbehind (.inr rfl), run_lineEnding options hsemicolon (.inr rfl)]
        exact ih h.newline hmark
      · have hpossible := Event.possible_read state.delimiter c t
        obtain ⟨hstatements, hnext⟩ := h.take options hpossible
        have hnameable := nameable_of_possibleDelimiter hmark
        obtain ⟨next, more, hcons, hread⟩ := Event.read_crlf hnameable hline t
        have hfirst : firstStep options other next more =
            other.take options (Event.read state.delimiter c t).value.crlf := by
          rw [firstStep, h.delimiter, hread, Reading.value_crlf]
        rw [hcons, statements_run_cons, statements_run_cons, hfirst, h.delimiter, hread,
          Reading.rest_crlf, List.map_append]
        rw [hstatements, ih hnext (possibleDelimiter_take options hmark hpossible)]
        rfl

end Splitter

/-- A script with a carriage return in front of every newline is split into the
same statements, with a carriage return in front of every newline, whether the
text or its bytes are split. -/
theorem split_crlf (options : Options) (t : Text) :
    (split options (Text.crlf t)).statements = (split options t).statements.map Text.crlf ∧
      (splitSource options (.ofText (Text.crlf t))).answer =
        .ok ((split options t).statements.map Text.crlf) := by
  have hstart : Splitter.Corresponds {} {} := ⟨rfl, rfl, rfl⟩
  have hsplit : (split options (Text.crlf t)).statements =
      (split options t).statements.map Text.crlf :=
    Splitter.run_crlf hstart possibleDelimiter_semicolon t
  refine ⟨hsplit, ?_⟩
  rw [splitSource_ofText, hsplit]

example : (split {} (Text.crlf "DELIMITER //\nx\n//\nDELIMITER ;\na;".toList)).statements =
    ["x\r\n".toList, "\r\na;".toList] := by decide +kernel

end SqlScript

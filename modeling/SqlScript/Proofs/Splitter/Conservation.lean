/-
Splitting loses nothing but separators.  Every script can be cut into stretches
that are its statements, the directives and custom delimiters between them, and
blanks in front of these; together they are the script.  The cut is built along
the run, where the buffer is always empty under a custom delimiter.
-/
import SqlScript.Proofs.Event.Shape
import SqlScript.Proofs.Source.RoundTrip
import SqlScript.Proofs.Splitter.Steps

namespace SqlScript

namespace Splitter

/-- A stretch of a script, by what becomes of it. -/
inductive Stretch where
  | statement (text : Text)
  | directive (directive : Directive)
  /-- A custom delimiter that ended a statement or a blank. -/
  | delimiter (mark : Text)
  | blank (text : Text)
deriving Repr, DecidableEq

namespace Stretch

def text : Stretch → Text
  | .statement t => t
  | .directive d => d.lexeme
  | .delimiter mark => mark
  | .blank t => t

/-- The statement that a stretch is, if it is one. -/
def statement? : Stretch → Option Text
  | .statement t => some t
  | _ => none

/-- Directives and delimiters separate what stands around them. -/
def isSeparator : Stretch → Bool
  | .directive _ => true
  | .delimiter _ => true
  | _ => false

end Stretch

/-- The active delimiter behind a directive: its argument, unless that is
empty. -/
def activeAfter (active : Text) (d : Directive) : Text :=
  if d.delimiter = [] then active else d.delimiter

/-- What the stretches of a script obey from where `active` is the active
delimiter.  Only the last statement may be blank.  A directive runs through its
line.  A delimiter is the active one, which is not the semicolon.  A blank
stands in front of a separator. -/
inductive Lawful : (active : Text) → List Stretch → Prop where
  | done {active : Text} : Lawful active []
  | statement {active t : Text} {others : List Stretch} (hne : t ≠ [])
      (hlast : Text.allBlank t = true → others.filterMap Stretch.statement? = [])
      (hothers : Lawful active others) : Lawful active (.statement t :: others)
  | directive {active : Text} {d : Directive} {others : List Stretch}
      (hdirective : d.IsBefore (others.flatMap Stretch.text))
      (hothers : Lawful (activeAfter active d) others) : Lawful active (.directive d :: others)
  | delimiter {active : Text} {others : List Stretch} (hcustom : active ≠ Event.semicolon)
      (hothers : Lawful active others) : Lawful active (.delimiter active :: others)
  | blank {active t : Text} {separator : Stretch} {others : List Stretch} (hne : t ≠ [])
      (hblank : Text.allBlank t = true) (hseparator : separator.isSeparator = true)
      (hothers : Lawful active (separator :: others)) :
      Lawful active (.blank t :: separator :: others)

/-- A lawful cut of the text `t` whose statements are `statements`. -/
structure IsCut (active t : Text) (statements : List Text) (cut : List Stretch) : Prop where
  text : cut.flatMap Stretch.text = t
  statements : cut.filterMap Stretch.statement? = statements
  lawful : Lawful active cut

namespace IsCut

variable {active t : Text} {statements : List Text} {cut : List Stretch}

theorem nil (active : Text) : IsCut active [] [] [] :=
  ⟨rfl, rfl, .done⟩

theorem statement (h : IsCut active t statements cut) {s : Text} (hne : s ≠ [])
    (hlast : Text.allBlank s = true → statements = []) :
    IsCut active (s ++ t) (s :: statements) (.statement s :: cut) := by
  constructor
  · rw [List.flatMap_cons, h.text]
    rfl
  · have hfirst : (Stretch.statement s).statement? = some s := rfl
    rw [List.filterMap_cons_some hfirst, h.statements]
  · apply Lawful.statement hne ?_ h.lawful
    rw [h.statements]
    exact hlast

/-- A stretch in front that is no statement adds its text only. -/
theorem cons_of_none {behind : Text} (h : IsCut behind t statements cut) (stretch : Stretch)
    (hnone : stretch.statement? = none) (hlawful : Lawful active (stretch :: cut)) :
    IsCut active (stretch.text ++ t) statements (stretch :: cut) := by
  constructor
  · rw [List.flatMap_cons, h.text]
  · rw [List.filterMap_cons_none hnone, h.statements]
  · exact hlawful

theorem directive {d : Directive} (h : IsCut (activeAfter active d) t statements cut)
    (hdirective : d.IsBefore t) :
    IsCut active (d.lexeme ++ t) statements (.directive d :: cut) := by
  apply h.cons_of_none (.directive d) rfl
  apply Lawful.directive ?_ h.lawful
  rw [h.text]
  exact hdirective

theorem delimiter (h : IsCut active t statements cut) (hcustom : active ≠ Event.semicolon) :
    IsCut active (active ++ t) statements (.delimiter active :: cut) := by
  exact h.cons_of_none (.delimiter active) rfl (.delimiter hcustom h.lawful)

theorem blank {separator : Stretch} (h : IsCut active t statements (separator :: cut))
    (hseparator : separator.isSeparator = true) {s : Text} (hne : s ≠ [])
    (hblank : Text.allBlank s = true) :
    IsCut active (s ++ t) statements (.blank s :: separator :: cut) := by
  exact h.cons_of_none (.blank s) rfl (.blank hne hblank hseparator h.lawful)

/-- Text in front of a separator is a statement, a blank or nothing. -/
theorem exists_before_separator {separator : Stretch}
    (h : IsCut active t statements (separator :: cut)) (hseparator : separator.isSeparator = true)
    (s : Text) : ∃ cut, IsCut active (s ++ t) (unlessBlank s ++ statements) cut := by
  by_cases hblank : Text.allBlank s = true
  · rw [unlessBlank, if_pos hblank, List.nil_append]
    rcases Decidable.em (s = []) with rfl | hne
    · exact ⟨separator :: cut, h⟩
    · exact ⟨.blank s :: separator :: cut, h.blank hseparator hne hblank⟩
  · rw [unlessBlank, if_neg hblank, List.singleton_append]
    refine ⟨.statement s :: separator :: cut, ?_⟩
    apply h.statement
    · rintro rfl
      exact hblank rfl
    · intro hall
      exact absurd hall hblank

/-- The last text is a statement unless it is empty, even when it is blank. -/
theorem exists_unlessEmpty (h : IsCut active t [] cut) (s : Text) :
    ∃ cut, IsCut active (s ++ t) (unlessEmpty s) cut := by
  rcases Decidable.em (s = []) with rfl | hne
  · exact ⟨cut, h⟩
  · rw [unlessEmpty, if_neg hne]
    exact ⟨.statement s :: cut, h.statement hne fun _ => rfl⟩

end IsCut

/-- Outside raw scans text may be pending; under a custom delimiter the buffer
is empty. -/
def BufferFree (state : State) : Prop :=
  state.delimiter ≠ Event.semicolon → state.buffer = []

/-- What a run has to give from `state` in front of `t`: a lawful cut of the
buffer and the text that has the statements of the run. -/
def Conserved (options : Options) (state : State) (t : Text) : Prop :=
  ∃ cut, IsCut state.delimiter (state.buffer ++ t) (run options state t).statements cut

theorem exists_cut_leftover (state : State) :
    ∃ cut, IsCut state.delimiter state.buffer state.leftover cut := by
  obtain ⟨cut, hcut⟩ := (IsCut.nil state.delimiter).exists_unlessEmpty state.buffer
  rw [List.append_nil] at hcut
  exact ⟨cut, hcut⟩

/-- A directive that is broken off behind its keyword names nothing. -/
theorem exists_cut_keyword (active : Text) {keyword : Text}
    (h : keyword = [] ∨ Directive.IsKeyword keyword) : ∃ cut, IsCut active keyword [] cut := by
  rcases h with rfl | hkeyword
  · exact ⟨[], .nil active⟩
  · let d : Directive := ⟨keyword, []⟩
    have hdirective : d.IsBefore [] := ⟨hkeyword, .inr ⟨rfl, by simp [d]⟩⟩
    have hcut := (IsCut.nil (activeAfter active d)).directive hdirective
    rw [Directive.lexeme, List.append_nil, List.append_nil] at hcut
    exact ⟨[.directive d], hcut⟩

theorem allBlank_append_semicolon (t : Text) : Text.allBlank (t ++ [';']) = false := by
  have hsemicolon : Text.isBlank ';' = false := by decide
  simp [Text.allBlank, hsemicolon]

variable {options : Options} {state : State} {rest : Text}

theorem conserved_token {token : Token} (hflush : options.flushBeforeDirective = true)
    (hmark : state.delimiter = Event.semicolon)
    (hdirective : ∀ d, token = .directive d → d.IsBefore rest)
    (hothers : BufferFree (state.takeToken options token).next →
      Conserved options (state.takeToken options token).next rest) :
    ∃ cut, IsCut state.delimiter (state.buffer ++ (token.lexeme ++ rest))
      ((state.takeToken options token).statements ++
        (run options (state.takeToken options token).next rest).statements) cut := by
  by_cases hend : token = .statementEnd ∧ state.depth = 0
  · obtain ⟨rfl, hdepth⟩ := hend
    rw [State.takeToken, if_pos hdepth] at hothers ⊢
    obtain ⟨cut, hcut⟩ := hothers fun _ => rfl
    rw [State.buffer_clear, List.nil_append] at hcut
    refine ⟨.statement (state.buffer ++ [';']) :: cut, ?_⟩
    rw [← List.append_assoc, List.singleton_append, State.buffer_collect]
    apply hcut.statement (List.append_ne_nil_of_right_ne_nil state.buffer (List.cons_ne_nil _ _))
    intro hblank
    rw [allBlank_append_semicolon] at hblank
    exact absurd hblank Bool.false_ne_true
  by_cases hdirectives : ∃ d, token = .directive d
  · obtain ⟨d, rfl⟩ := hdirectives
    rw [State.takeToken, if_pos hflush] at hothers ⊢
    obtain ⟨cut, hcut⟩ := hothers fun _ => State.buffer_setDelimiter _ _
    rw [State.buffer_setDelimiter, State.buffer_clear, List.nil_append,
      State.delimiter_setDelimiter, State.delimiter_clear] at hcut
    have hseparated := IsCut.directive (d := d) hcut (hdirective d rfl)
    exact hseparated.exists_before_separator rfl state.buffer
  · have hstep := takeToken_collects options hend
      fun d hd => hdirectives ⟨d, hd⟩
    have hfree : BufferFree (state.takeToken options token).next :=
      fun hcustom => absurd (hstep.delimiter.trans hmark) hcustom
    obtain ⟨cut, hcut⟩ := hothers hfree
    rw [hstep.delimiter, hstep.buffer, List.append_assoc] at hcut
    rw [hstep.statements]
    exact ⟨cut, hcut⟩

/-- A step keeps every character: what it takes and what it leaves in the
buffer are the stretches it adds. -/
theorem conserved_step {event : Event} (hflush : options.flushBeforeDirective = true)
    (hfree : BufferFree state) (hpossible : Event.Possible state.delimiter event rest)
    (hothers : BufferFree (state.take options event).next →
      Conserved options (state.take options event).next rest) :
    ∃ cut, IsCut state.delimiter (state.buffer ++ (event.lexeme ++ rest))
      ((state.take options event).statements ++
        (run options (state.take options event).next rest).statements) cut := by
  cases hpossible with
  | token hmark hdirective => exact conserved_token hflush hmark hdirective hothers
  | @statement text rest hcustom =>
      obtain ⟨cut, hcut⟩ := hothers fun _ => rfl
      rw [hfree hcustom, List.nil_append]
      have hseparated := (IsCut.delimiter hcut hcustom).exists_before_separator rfl text
      rwa [← List.append_assoc] at hseparated
  | @directive preceding rest d hcustom hdirective =>
      obtain ⟨cut, hcut⟩ := hothers fun _ => State.buffer_setDelimiter _ _
      rw [State.take, State.buffer_setDelimiter, State.buffer_clear, List.nil_append,
        State.delimiter_setDelimiter, State.delimiter_clear] at hcut
      rw [hfree hcustom, List.nil_append]
      have hseparated := (IsCut.directive (d := d) hcut hdirective).exists_before_separator rfl
        preceding
      rwa [← List.append_assoc] at hseparated
  | @remainder text keyword hcustom hkeyword =>
      -- The run ends here, so the induction hypothesis is of no use.
      rw [hfree hcustom, List.nil_append, List.append_nil, statements_run_nil]
      have hbuffer : (state.take options (.remainder text keyword)).next.buffer = text := by
        simp [State.take, State.buffer]
      rw [State.leftover, hbuffer]
      obtain ⟨last, hlast⟩ := exists_cut_keyword state.delimiter hkeyword
      exact hlast.exists_unlessEmpty text

/-- From every state of a run, the buffer and the text in front of it have a
lawful cut whose statements are those of the run. -/
theorem conserved_run (options : Options) (hflush : options.flushBeforeDirective = true)
    (state : State) (t : Text) (hfree : BufferFree state) : Conserved options state t := by
  induction state, t using run_induction options with
  | done state =>
      rw [Conserved, List.append_nil, statements_run_nil]
      exact exists_cut_leftover state
  | step state c t ih =>
      have hsplit := Event.read_partitions state.delimiter c t
      rw [Conserved, statements_run_cons, ← show _ = c :: t from hsplit]
      exact conserved_step hflush hfree (Event.possible_read state.delimiter c t) ih

end Splitter

/-- Every script is the concatenation of a lawful cut, with the semicolon active
in front of it, whose statements are exactly those that splitting gives. -/
theorem exists_lawful_cut (t : Text) :
    ∃ cut : List Splitter.Stretch,
      cut.flatMap Splitter.Stretch.text = t ∧
        (split { flushBeforeDirective := true } t).statements =
          cut.filterMap Splitter.Stretch.statement? ∧
        (splitSource { flushBeforeDirective := true } (.ofText t)).answer =
          .ok (cut.filterMap Splitter.Stretch.statement?) ∧
        Splitter.Lawful Event.semicolon cut := by
  let options : Options := { flushBeforeDirective := true }
  obtain ⟨cut, hcut⟩ := Splitter.conserved_run options rfl {} t fun _ => rfl
  have hsplit : (split options t).statements = cut.filterMap Splitter.Stretch.statement? :=
    hcut.statements.symm
  refine ⟨cut, hcut.text, hsplit, ?_, hcut.lawful⟩
  rw [splitSource_ofText, hsplit]

end SqlScript

/-
Splitting any source.  The statements and the records are those of the longest
text that the bytes of the source begin with.  Where the source gives no more
than that text, splitting succeeds; otherwise it ends with the error that stands
behind the text, and with a front of the records.
-/
import SqlScript.Proofs.Source.Obstacle
import SqlScript.Proofs.Splitter.Pulling

namespace SqlScript

theorem Stop.firstError?_behind (stop : Stop) (t : Text) (position : Nat) :
    firstError? (stop.behind t position).ahead = firstError? stop.ahead := by
  induction t with
  | nil => rfl
  | cons c t ih => exact ih

/-- A source is its text and the obstacle behind it. -/
theorem Cursor.exists_ofSource_eq_behind (source : Source) :
    ∃ stop : Stop, ofSource source = stop.behind source.text 0 ∧
      stop.error? = source.obstacle? := by
  obtain ⟨stop, t, hcursor⟩ := (ofSource source).exists_eq_behind
  have htext : source.text = t := by
    have hbefore := congrArg (fun cursor : Cursor => textBefore cursor.ahead) hcursor
    exact hbefore.trans (stop.textBefore_behind t 0)
  have hfirst : firstError? source.deliveries = firstError? stop.ahead := by
    have hahead := congrArg (fun cursor : Cursor => firstError? cursor.ahead) hcursor
    exact hahead.trans (stop.firstError?_behind t 0)
  have hending : source.ending = stop.ending := congrArg Cursor.ending hcursor
  refine ⟨stop, ?_, ?_⟩
  · rw [htext]
    exact hcursor
  · rw [Stop.error?, Source.obstacle?, hfirst, hending]

namespace Splitter

/-- The records of settled steps come first. -/
theorem Run.settledLog_isPrefix (run : Run) : run.settledLog <+: run.log := by
  induction run with
  | done state => exact List.nil_prefix
  | cut last => exact List.nil_prefix
  | step first others ih => exact (List.prefix_append_right_inj first.log).mpr ih

end Splitter

theorem splitSource_eq_outcome (options : Options) (source : Source) :
    splitSource options source =
      (Splitter.run options {} source.text).outcome source.obstacle? := by
  rw [splitSource]
  cases source.obstacle? <;> rfl

/-- Splitting a source comes to pulling it character by character. -/
theorem splitSource_eq_pullSplit (options : Options) (source : Source) :
    splitSource options source =
      Splitter.pullSplit options {} (Cursor.ofSource source) := by
  obtain ⟨stop, hcursor, herror⟩ := Cursor.exists_ofSource_eq_behind source
  have hfree : Splitter.BufferFree {} := fun hcustom => absurd rfl hcustom
  rw [splitSource_eq_outcome, hcursor, ← herror]
  exact (Splitter.pullSplit_behind options stop {} source.text hfree).symm

/-- Let `p` be the longest text that the bytes of a source begin with, and
`left` the bytes behind it.  A source with nothing left that ends normally is
split like `p`.  Any other gives an error: its own failure when that comes before
another character could be complete, and else the offset of `left`.  What was
reported until then is a front of what splitting `p` reports.  Pulling the source
through every reader of the splitter comes to the same. -/
theorem splitSource_of_bytes (options : Options) (source : Source) :
    ∃ p left, source.bytes = Utf8.encode p ++ left ∧
      (∀ q, Utf8.encode q <+: source.bytes → q <+: p) ∧
      (source.ending = .endOfInput → left = [] →
        splitSource options source = ⟨.ok (split options p).statements, (split options p).log⟩) ∧
      (source.ending = .endOfInput → left ≠ [] →
        (splitSource options source).answer = .error (.invalidUtf8 (Utf8.encode p).length)) ∧
      (∀ reason, source.ending = .failure reason →
        (splitSource options source).answer =
          .error (if Utf8.CutOff left then .failed reason
            else .invalidUtf8 (Utf8.encode p).length)) ∧
      (splitSource options source).log <+: (split options p).log ∧
      splitSource options source = Splitter.pullSplit options {} (Cursor.ofSource source) := by
  obtain ⟨left, hbytes, hleft, hobstacle⟩ := source.exists_bytes_eq
  have hsplit := splitSource_eq_outcome options source
  refine ⟨source.text, left, hbytes, ?_, ?_, ?_, ?_, ?_, splitSource_eq_pullSplit options source⟩
  · intro q hq
    rw [hbytes] at hq
    exact Utf8.isPrefix_of_encode_isPrefix hleft hq
  · intro hending hnil
    rw [hsplit, hobstacle, hending, hnil]
    rfl
  · intro hending hne
    rw [hsplit, hobstacle, hending, Source.obstacleAt?, if_neg hne]
    rfl
  · intro reason hending
    rw [hsplit, hobstacle, hending, Source.obstacleAt?]
    split <;> rfl
  · rw [hsplit]
    cases source.obstacle? with
    | none => exact List.prefix_refl _
    | some e => exact Splitter.Run.settledLog_isPrefix _

end SqlScript

/-
Blocks under other line endings.  Carriage returns in front of newlines belong to the
endings of lines, whichever newlines have one, so that they change no line, and
cutting lines into blocks sees nothing of them.
-/
import SqlScript.Proofs.Annotated.Reading

namespace SqlScript

namespace Text

/-- A text with a carriage return in front of some of its newlines.  The newlines are
counted from zero, and `chosen` tells which of them get one. -/
def withReturns (chosen : Nat → Bool) : Text → Text
  | [] => []
  | '\n' :: t =>
      (if chosen 0 then ['\r', '\n'] else ['\n']) ++ withReturns (fun n => chosen (n + 1)) t
  | c :: t => c :: withReturns chosen t

example : withReturns (· % 2 == 1) "a\nb\n\n\nc".toList = "a\nb\r\n\n\r\nc".toList := by decide

/-- The carriage returns are no part of any line.  One more in front of them would
be. -/
theorem lines_withReturns (chosen : Nat → Bool) {t : Text} (h : '\r' ∉ t) :
    lines (withReturns chosen t) = lines t := by
  fun_induction withReturns chosen t with
  | case1 => rfl
  | case2 chosen t ih =>
      have ht : '\r' ∉ t := fun hmem => h (List.mem_cons_of_mem _ hmem)
      rw [lines_newline, ← ih ht]
      split
      · exact lines_return_newline _
      · exact lines_newline _
  | case3 chosen c t hc ih =>
      obtain ⟨hreturn, ht⟩ : '\r' ≠ c ∧ '\r' ∉ t := by simpa using h
      have hcons (s : Text) : lines (c :: s) = (c :: (lines s).headD []) :: (lines s).tail :=
        lines_cons hc fun heq => absurd heq.symm hreturn
      rw [hcons, hcons, ih ht]

end Text

/-- A text without carriage returns is cut into the same blocks, with the same
records, when some of its newlines get one, and so are its bytes. -/
theorem splitAnnotated_withReturns (tool : Text) (chosen : Nat → Bool) {t : Text}
    (h : '\r' ∉ t) :
    splitAnnotated tool (Text.withReturns chosen t) = splitAnnotated tool t ∧
      readAnnotated tool (.ofText (Text.withReturns chosen t)) =
        readAnnotated tool (.ofText t) ∧
      (readAnnotated tool (.ofText t)).answer = .ok (splitAnnotated tool t) := by
  have hsplit : splitAnnotated tool (Text.withReturns chosen t) = splitAnnotated tool t := by
    rw [splitAnnotated, Text.lines_withReturns chosen h]
    rfl
  refine ⟨hsplit, ?_, ?_⟩
  · rw [readAnnotated_ofText, readAnnotated_ofText, hsplit]
  · rw [readAnnotated_ofText]

/-- The carriage returns stand behind both markers and on the blank line between
them. -/
theorem splitAnnotated_withReturns_at_markers :
    let tool := "goose".toList
    let chosen := fun n : Nat => n == 1 || n == 2 || n == 4
    let script := "a;\n-- +goose StatementBegin\n\nb;\n-- +goose StatementEnd\n".toList
    let mixed := "a;\n-- +goose StatementBegin\r\n\r\nb;\n-- +goose StatementEnd\r\n".toList
    '\r' ∉ script ∧ Text.withReturns chosen script = mixed ∧
      splitAnnotated tool mixed =
        ⟨[⟨"a;".toList, false⟩,
            ⟨"-- +goose StatementBegin\n\nb;\n-- +goose StatementEnd".toList, true⟩],
          false, []⟩ ∧
      readAnnotated tool (.ofText mixed) = readAnnotated tool (.ofText script) := by
  intro tool chosen script mixed
  have hreturn : '\r' ∉ script := by decide
  have hmixed : Text.withReturns chosen script = mixed := by decide
  obtain ⟨hsplit, hread, -⟩ := splitAnnotated_withReturns tool chosen hreturn
  rw [hmixed] at hsplit hread
  refine ⟨hreturn, hmixed, ?_, hread⟩
  rw [hsplit]
  decide

end SqlScript

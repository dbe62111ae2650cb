/-
Directives are the same in raw scans and among tokens.  A scan knows the keyword by
its last characters and the one behind it, a token is read from the whole word; both
then read the same line, so a scan that stops at a directive has found the token that
stands behind what precedes it.
-/
import SqlScript.Proofs.Event.Searching
import SqlScript.Proofs.Token.Directives
import SqlScript.Proofs.Token.Next

namespace SqlScript

namespace Token

open Directive

/-- In front of a boundary the next token is the directive of the keyword. -/
theorem isNext_of_isKeyword {word : Text} {c : Char} (hkeyword : IsKeyword word)
    (hboundary : IsBoundary c) (more : Text) :
    IsNext (word ++ c :: more) (.directive (Directive.read word (c :: more)).value)
      (Directive.read word (c :: more)).rest := by
  obtain ⟨first, others, rfl⟩ := List.exists_cons_of_ne_nil (ne_nil_of_isKeyword hkeyword)
  apply isNext_of_value
  · rw [List.append_eq, read_of_isKeyword hkeyword hboundary, Reading.value_map]
  · exact Directive.read_partitions (first :: others) (c :: more)

end Token

namespace Event

open Directive

variable {mark seen t preceding : Text} {d : Directive}

/-- A scan that stops at a directive reads it from its keyword in front of a
boundary. -/
theorem exists_keyword_of_stopAfter? {reading : Reading Event}
    (h : stopAfter? mark seen t = some reading) (hd : reading.value = .directive preceding d) :
    ∃ word c more, IsKeyword word ∧ IsBoundary c ∧
      reading = (Directive.read word (c :: more)).map (.directive preceding) := by
  rw [stopAfter?] at h
  split at h
  · obtain rfl := Option.some.inj h
    exact absurd hd (by simp)
  split at h
  · exact absurd h (by simp)
  rename_i before word hword
  split at h
  · obtain rfl := Option.some.inj h
    exact absurd hd (by simp)
  · rename_i next more
    split at h
    · rename_i hboundary
      obtain rfl := Option.some.inj h
      rw [Reading.value_map] at hd
      obtain ⟨rfl, -⟩ := Event.directive.inj hd
      exact ⟨word, next, more, isKeyword_of_keywordAtEnd? hword, hboundary, rfl⟩
    · exact absurd h (by simp)

theorem exists_keyword_of_scanBehind (h : (scanBehind mark seen t).value = .directive preceding d) :
    ∃ word c more, IsKeyword word ∧ IsBoundary c ∧
      scanBehind mark seen t = (Directive.read word (c :: more)).map (.directive preceding) := by
  induction t generalizing seen with
  | nil => exact absurd h (by simp [scanBehind])
  | cons c t ih =>
      rw [scanBehind] at h ⊢
      split at h
      · rename_i reading hstop
        exact exists_keyword_of_stopAfter? hstop h
      · exact ih h

/-- What stands behind the text that precedes a scanned directive begins with the
token of that directive. -/
theorem isNext_of_scan (h : (scan mark t).value = .directive preceding d) :
    Token.IsNext (t.drop preceding.length) (.directive d) (scan mark t).rest := by
  obtain ⟨word, c, more, hkeyword, hboundary, hscan⟩ := exists_keyword_of_scanBehind h
  have hnext := Token.isNext_of_isKeyword hkeyword hboundary more
  have hsplit : lexeme (scan mark t).value ++ (scan mark t).rest = t :=
    scanBehind_partitions mark [] t
  rw [h] at hsplit
  rw [scan, hscan, Reading.value_map] at h
  obtain ⟨-, rfl⟩ := Event.directive.inj h
  have hrest : (scan mark t).rest = (Directive.read word (c :: more)).rest := by
    rw [scan, hscan, Reading.rest_map]
  have hbehind : t.drop preceding.length = word ++ c :: more := by
    rw [← hsplit, lexeme, List.append_assoc, List.drop_left, hrest]
    exact hnext.split
  rw [hbehind, hrest]
  exact hnext

/-- When a raw scan comes to a directive with some text in front of it, behind `count`
characters, then behind that text stands the token of this directive, with the same
delimiter.  It ends behind the same `count` characters, so both readers leave the same
text. -/
theorem directive_isNext_of_scanned {mark t preceding : Text} {d : Directive} {position : Nat}
    {cursor : Cursor}
    (h : (Stop.endOfInput.behind t position).pullScan mark [] =
      (.ok (.directive preceding d), cursor)) :
    ∃ count, cursor = Stop.endOfInput.behind (t.drop count) (position + count) ∧
      Token.IsNext (t.drop preceding.length) (.directive d) (t.drop count) ∧
      (Token.directive d).delimiter? = some d.delimiter ∧
      (Token.directive d).lexeme.length + preceding.length = count := by
  have hpulls : Pulls _ _ _ (scan mark t) := Stop.endOfInput.pullScan_behind mark [] t position
  rw [h] at hpulls
  obtain ⟨hvalue, -⟩ := hpulls.eq_of_ok (scanBehind_partitions mark [] t)
  have hfinds := finds_of_value hvalue.symm rfl
  have hnext := isNext_of_scan hvalue.symm
  rw [hfinds.rest] at hnext
  refine ⟨_, ?_, hnext, rfl, ?_⟩
  · exact (Prod.mk.inj (h.symm.trans (hfinds.pulled position))).2
  · rw [Token.lexeme_directive, Nat.add_comm, ← List.length_append]
    rfl

/-- The keyword that ends a longer word is passed over, and the argument in front of
the semicolon is taken whole. -/
theorem directive_isNext_of_scanned_behind_longer_word :
    let script := "éDELIMITER DELIMITERS	DeLiMiTeR $$ ;;".toList
    let preceding := "éDELIMITER DELIMITERS	".toList
    let d : Directive := ⟨"DeLiMiTeR".toList, " $$ ;".toList⟩
    (Stop.endOfInput.behind script 5).pullScan "//".toList [] =
        (.ok (.directive preceding d), Stop.endOfInput.behind ";".toList 41) ∧
      Token.IsNext "DeLiMiTeR $$ ;;".toList (.directive d) ";".toList := by
  intro script preceding d
  have hscan : (scan "//".toList script).value = .directive preceding d := by decide +kernel
  have hbehind : script.drop preceding.length = "DeLiMiTeR\u00a0$$ ;;".toList := by decide
  have hrest : script.drop 36 = ";".toList := by decide
  have hfinds : Finds "//".toList script (.directive preceding d) 36 := finds_of_value hscan rfl
  have hpulled := hfinds.pulled 5
  obtain ⟨count, -, hnext, -, hcount⟩ := directive_isNext_of_scanned hpulled
  obtain rfl : 36 = count := hcount
  rw [hbehind, hrest] at hnext
  rw [hrest] at hpulled
  exact ⟨hpulled, hnext⟩

end Event

end SqlScript

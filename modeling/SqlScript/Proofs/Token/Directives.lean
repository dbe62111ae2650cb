/-
Directives among tokens.  A keyword in any ASCII case is a word that case folding
knows, and it ends in front of a boundary, so the token that begins there is the
directive.
-/
import SqlScript.Proofs.Event.Scanning
import SqlScript.Proofs.Text.Letters
import SqlScript.Proofs.Token.Branching

namespace SqlScript

namespace Directive

variable {word : Text} {c : Char}

/-- A keyword in any ASCII case is made of letters. -/
theorem isLetter_of_isKeyword (h : IsKeyword word) (hc : c ∈ word) : Text.isLetter c = true := by
  have hsmall : ∀ d ∈ Keyword.delimiter.spelling, 97 ≤ d.toNat ∧ d.toNat ≤ 122 := by
    simp [Keyword.spelling]
  exact Text.isLetter_of_toLower (hsmall _ (toLower_mem_of_isKeyword h hc))

/-- Whoever compares words under case folding knows every keyword in any ASCII
case. -/
theorem ofWord?_of_isKeyword (h : IsKeyword word) : Keyword.ofWord? word = some .delimiter := by
  have hfold : word.map Keyword.foldCase = Keyword.delimiter.spelling := by
    rw [← h]
    apply List.map_congr_left
    intro c hc
    have hmem := toLower_mem_of_isKeyword h hc
    have hlong : c ≠ 'ſ' := by
      rintro rfl
      exact absurd hmem (by decide)
    have hkelvin : c ≠ '\u212a' := by
      rintro rfl
      exact absurd hmem (by decide)
    rw [Keyword.foldCase, if_neg hlong, if_neg hkelvin]
  rw [Keyword.ofWord?, hfold]
  decide

/-- A word ends in front of a boundary. -/
theorem not_isWordChar_of_isBoundary (h : IsBoundary c) : Text.isWordChar c = false := by
  rcases h with rfl | hblank
  · decide
  · exact Text.not_isWordChar_of_isBlank hblank

end Directive

namespace Token

open Directive Reading

/-- In front of a boundary a keyword begins the token of its directive. -/
theorem read_of_isKeyword {first : Char} {others : Text} {c : Char}
    (hkeyword : IsKeyword (first :: others)) (hboundary : IsBoundary c) (more : Text) :
    read first (others ++ c :: more) =
      (Directive.read (first :: others) (c :: more)).map .directive := by
  have hletters : ∀ d ∈ first :: others, Text.isLetter d = true :=
    fun d hd => isLetter_of_isKeyword hkeyword hd
  obtain ⟨hfirst, hothers⟩ := List.forall_mem_cons.mp hletters
  have hstart : Text.isWordStart first = true := by simp [Text.isWordStart, hfirst]
  have hword : ∀ d ∈ others, Text.isWordChar d = true := by
    intro d hd
    simp [Text.isWordChar, hothers d hd]
  have hend := not_isWordChar_of_isBoundary hboundary
  rw [read_of_isWordStart hstart, takeRun_append_cons hword hend]
  change readBehindWord (first :: others) (c :: more) = _
  rw [readBehindWord, ofWord?_of_isKeyword hkeyword]

end Token

end SqlScript

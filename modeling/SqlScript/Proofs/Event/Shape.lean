/-
What events look like.  A directive begins with its keyword in any ASCII case
and runs through the first newline or semicolon, in tokens and in raw scans
alike.  Only tokens are met under the semicolon, and none under any other
delimiter; what a raw scan calls the delimiter is the active one.
-/
import SqlScript.Event
import SqlScript.Proofs.Reading.Extent

namespace SqlScript

namespace Keyword

theorem map_foldCase_of_ofWord? {word : Text} {keyword : Keyword}
    (h : ofWord? word = some keyword) : word.map foldCase = keyword.spelling := by
  have hfound := List.find?_some h
  exact (eq_of_beq hfound).symm

/-- Beyond ASCII, case folding only gives `s` and `k`. -/
theorem toLower_eq_foldCase {c : Char} (hs : foldCase c ≠ 's') (hk : foldCase c ≠ 'k') :
    c.toLower = foldCase c := by
  have hlong : c ≠ 'ſ' := by
    rintro rfl
    exact hs rfl
  have hkelvin : c ≠ '\u212a' := by
    rintro rfl
    exact hk rfl
  rw [foldCase, if_neg hlong, if_neg hkelvin]

end Keyword

namespace Directive

/-- The word that begins a directive, in any ASCII case. -/
def IsKeyword (word : Text) : Prop :=
  word.map Char.toLower = Keyword.delimiter.spelling

/-- A tail in front of `rest` runs through the first newline or semicolon; a
tail without either is followed by nothing. -/
def RunsThroughLine (tail rest : Text) : Prop :=
  (∃ body stop, tail = body ++ [stop] ∧ (stop = '\n' ∨ stop = ';') ∧
      ∀ c ∈ body, c ≠ '\n' ∧ c ≠ ';') ∨
    rest = [] ∧ ∀ c ∈ tail, c ≠ '\n' ∧ c ≠ ';'

/-- A complete directive in front of `rest`. -/
structure IsBefore (d : Directive) (rest : Text) : Prop where
  keyword : IsKeyword d.keyword
  tail : RunsThroughLine d.tail rest

/-- A word is read as a directive's keyword only if ASCII case alone tells it
from the keyword: no letter of the keyword has another folding. -/
theorem isKeyword_of_ofWord? {word : Text} (h : Keyword.ofWord? word = some .delimiter) :
    IsKeyword word := by
  have hfold := Keyword.map_foldCase_of_ofWord? h
  rw [IsKeyword, ← hfold]
  apply List.map_congr_left
  intro c hc
  have hmem : Keyword.foldCase c ∈ Keyword.delimiter.spelling :=
    hfold ▸ List.mem_map_of_mem hc
  apply Keyword.toLower_eq_foldCase
  · intro hs
    exact absurd (hs ▸ hmem) (by decide)
  · intro hk
    exact absurd (hk ▸ hmem) (by decide)

theorem endsDirective_eq_true_iff (c : Char) : endsDirective c = true ↔ c = '\n' ∨ c = ';' := by
  simp [endsDirective]

theorem endsDirective_eq_false_iff (c : Char) :
    endsDirective c = false ↔ c ≠ '\n' ∧ c ≠ ';' := by
  simp [endsDirective]

theorem read_isBefore {keyword : Text} (h : IsKeyword keyword) (t : Text) :
    (read keyword t).value.IsBefore (read keyword t).rest := by
  rw [read, Reading.value_map, Reading.rest_map]
  refine ⟨h, ?_⟩
  rcases Reading.takeThrough_extent endsDirective t with
    ⟨body, stop, hvalue, hstop, hbody⟩ | ⟨hrest, hvalue⟩
  · refine .inl ⟨body, stop, hvalue, (endsDirective_eq_true_iff stop).mp hstop, ?_⟩
    intro c hc
    exact (endsDirective_eq_false_iff c).mp (hbody c hc)
  · refine .inr ⟨hrest, ?_⟩
    intro c hc
    exact (endsDirective_eq_false_iff c).mp (hvalue c hc)

end Directive

namespace Token

open Reading

theorem value_readDash (t : Text) : ∃ lexeme, (readDash t).value = .text lexeme := by
  fun_cases readDash t with
  | case1 => exact ⟨_, rfl⟩
  | case2 rest => exact ⟨_, value_map _ _⟩
  | case3 rest hne hdash => exact ⟨_, rfl⟩

theorem value_readSlash (t : Text) : ∃ lexeme, (readSlash t).value = .text lexeme := by
  fun_cases readSlash t with
  | case1 => exact ⟨_, rfl⟩
  | case2 rest => exact ⟨_, value_map _ _⟩
  | case3 rest hne hstar => exact ⟨_, rfl⟩

theorem value_readTag (lead t : Text) : ∃ lexeme, (readTag lead t).value = .text lexeme := by
  rw [readTag, value_andThen]
  split
  · exact ⟨_, value_map _ _⟩
  · exact ⟨_, rfl⟩

theorem value_readBody (word t : Text) : ∃ lexeme, (readBody word t).value = .text lexeme := by
  rw [readBody, value_andThen]
  split
  · exact value_readTag _ _
  · exact ⟨_, rfl⟩

/-- If a reading is a directive, then it is a complete one. -/
def DirectivesComplete (r : Reading Token) : Prop :=
  ∀ d, r.value = .directive d → d.IsBefore r.rest

theorem DirectivesComplete.of_ne {r : Reading Token} (h : ∀ d, r.value ≠ .directive d) :
    DirectivesComplete r := by
  intro d hd
  exact absurd hd (h d)

theorem DirectivesComplete.of_text {r : Reading Token}
    (h : ∃ lexeme, r.value = .text lexeme) : DirectivesComplete r := by
  obtain ⟨lexeme, hvalue⟩ := h
  exact .of_ne fun d => by simp [hvalue]

theorem readBehindWord_directivesComplete (word t : Text) :
    DirectivesComplete (readBehindWord word t) := by
  rw [readBehindWord]
  split
  · exact .of_ne fun d => by simp
  · exact .of_ne fun d => by simp
  · rename_i hword
    intro d hd
    rw [value_map] at hd
    obtain rfl := Token.directive.inj hd
    rw [rest_map]
    exact Directive.read_isBefore (Directive.isKeyword_of_ofWord? hword) t
  · exact .of_text (value_readBody word t)
  · exact .of_text ⟨word, rfl⟩

/-- Every directive among the tokens begins with its keyword and runs through
its line. -/
theorem read_directivesComplete (c : Char) (t : Text) : DirectivesComplete (read c t) := by
  rw [read]
  split
  · exact .of_text ⟨_, value_map _ _⟩
  split
  · exact .of_text (value_readDash t)
  split
  · exact .of_text (value_readSlash t)
  split
  · exact .of_ne fun d => by simp
  split
  · cases hrun : takeRun Text.isWordChar t with
    | settled run rest => exact readBehindWord_directivesComplete (c :: run) rest
    | cutShort run =>
        intro d hd
        have hrest := rest_readBehindWord_nil (c :: run)
        have hcomplete := readBehindWord_directivesComplete (c :: run) [] d hd
        rwa [hrest] at hcomplete
  · exact .of_text ⟨_, rfl⟩

end Token

namespace Event

/-- What an event in front of `rest` can be while `mark` is the active
delimiter. -/
inductive Possible (mark : Text) : Event → Text → Prop where
  | token {token : Token} {rest : Text} (hmark : mark = semicolon)
      (hdirective : ∀ d, token = .directive d → d.IsBefore rest) :
      Possible mark (.token token) rest
  | statement {text rest : Text} (hmark : mark ≠ semicolon) :
      Possible mark (.statement text mark) rest
  | directive {preceding rest : Text} {d : Directive} (hmark : mark ≠ semicolon)
      (hdirective : d.IsBefore rest) : Possible mark (.directive preceding d) rest
  | remainder {text keyword : Text} (hmark : mark ≠ semicolon)
      (hkeyword : keyword = [] ∨ Directive.IsKeyword keyword) :
      Possible mark (.remainder text keyword) []

theorem isKeyword_of_keywordAtEnd? {seen before word : Text}
    (h : keywordAtEnd? seen = some (before, word)) : Directive.IsKeyword word := by
  simp only [keywordAtEnd?] at h
  split at h
  · rename_i hword
    obtain ⟨-, rfl⟩ := Prod.mk.inj (Option.some.inj h)
    exact hword.1
  · exact absurd h (by simp)

theorem possible_of_stopAfter? {mark seen t : Text} {r : Reading Event}
    (hmark : mark ≠ semicolon) (h : stopAfter? mark seen t = some r) :
    Possible mark r.value r.rest := by
  rw [stopAfter?] at h
  split at h
  · obtain rfl := Option.some.inj h
    exact .statement hmark
  split at h
  · exact absurd h (by simp)
  rename_i before word hword
  have hkeyword := isKeyword_of_keywordAtEnd? hword
  split at h
  · obtain rfl := Option.some.inj h
    exact .remainder hmark (.inr hkeyword)
  · rename_i next rest
    split at h
    · obtain rfl := Option.some.inj h
      rw [Reading.value_map, Reading.rest_map]
      exact .directive hmark (Directive.read_isBefore hkeyword (next :: rest))
    · exact absurd h (by simp)

theorem possible_scanBehind {mark : Text} (hmark : mark ≠ semicolon) (seen t : Text) :
    Possible mark (scanBehind mark seen t).value (scanBehind mark seen t).rest := by
  induction t generalizing seen with
  | nil => exact .remainder hmark (.inl rfl)
  | cons c t ih =>
      rw [scanBehind]
      split
      · rename_i r hstop
        exact possible_of_stopAfter? hmark hstop
      · exact ih (c :: seen)

/-- Every event that is read is one of those that can be. -/
theorem possible_read (mark : Text) (c : Char) (t : Text) :
    Possible mark (read mark c t).value (read mark c t).rest := by
  rw [read]
  split
  · rename_i hmark
    rw [Reading.value_map, Reading.rest_map]
    exact .token hmark (Token.read_directivesComplete c t)
  · rename_i hmark
    exact possible_scanBehind hmark [] (c :: t)

end Event

end SqlScript

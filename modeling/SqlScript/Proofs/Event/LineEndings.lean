/-
Raw scans and line endings.  A delimiter stands on one line and does not end with
a blank, so a scan never stops between a carriage return and its newline, and it
stops behind the same characters whatever the line endings are.  Directives name
the same delimiter, since what ends their line is trimmed off.
-/
import SqlScript.Proofs.Event.Naming
import SqlScript.Proofs.Event.Scanning
import SqlScript.Proofs.Token.LineEndings

namespace SqlScript

namespace Directive

/-- Text on one line that does not end with a blank. -/
structure Nameable (mark : Text) : Prop where
  no_newline : '\n' ∉ mark
  last : ∃ c ∈ mark.getLast?, Text.isBlank c = false

theorem nameable_of_possibleDelimiter {mark : Text} (h : PossibleDelimiter mark) :
    Nameable mark := by
  have hlast := List.getLast?_eq_some_getLast h.ne_nil
  exact ⟨h.no_newline, _, hlast, h.trimmed.last _ hlast⟩

/-- The line that a directive names its delimiter on. -/
theorem RunsThroughLine.exists_line {tail rest : Text} (h : RunsThroughLine tail rest) :
    ∃ line, '\n' ∉ line ∧ Text.trim tail = Text.trim line ∧
      Text.trim (Text.crlf tail) = Text.trim line := by
  have hwhole {line : Text} (hline : '\n' ∉ line) : Text.trim (Text.crlf line) = Text.trim line :=
    congrArg Text.trim (Text.crlf_of_not_mem hline)
  rcases h with ⟨body, stop, rfl, rfl | rfl, hbody⟩ | ⟨-, htail⟩
  · have hnewline : '\n' ∉ body := fun hmem => (hbody '\n' hmem).1 rfl
    have hplain : ∀ c ∈ ['\n'], Text.isBlank c = true := List.forall_mem_singleton.mpr rfl
    have hother : ∀ c ∈ ['\r', '\n'], Text.isBlank c = true :=
      List.forall_mem_cons.mpr ⟨rfl, hplain⟩
    refine ⟨body, hnewline, Text.trim_append_of_blank body hplain, ?_⟩
    rw [Text.crlf_append, Text.crlf_of_not_mem hnewline]
    exact Text.trim_append_of_blank body hother
  · have hnewline : '\n' ∉ body ++ [';'] := by
      intro hmem
      rcases List.mem_append.mp hmem with hfront | hlast
      · exact (hbody '\n' hfront).1 rfl
      · exact absurd hlast (by decide)
    exact ⟨body ++ [';'], hnewline, rfl, hwhole hnewline⟩
  · have hnewline : '\n' ∉ tail := fun hmem => (htail '\n' hmem).1 rfl
    exact ⟨tail, hnewline, rfl, hwhole hnewline⟩

variable {d : Directive} {rest : Text}

/-- A directive names the same delimiter whatever ends its line. -/
theorem IsBefore.delimiter_crlf (h : d.IsBefore rest) : d.crlf.delimiter = d.delimiter := by
  obtain ⟨line, -, hplain, hother⟩ := h.tail.exists_line
  rw [delimiter, delimiter, crlf, hplain, hother]

theorem not_mem_of_isKeyword {word : Text} (h : IsKeyword word) : '\n' ∉ word ∧ '\r' ∉ word := by
  constructor
  · intro hnewline
    exact absurd (toLower_mem_of_isKeyword h hnewline) (by decide)
  · intro hreturn
    exact absurd (toLower_mem_of_isKeyword h hreturn) (by decide)

theorem mayFollow_crlf_iff (before : Text) : MayFollow (Text.crlf before) ↔ MayFollow before := by
  rw [MayFollow, MayFollow, Text.getLast?_crlf]

/-- A boundary stays where it is when line endings change. -/
theorem exists_crlf_cons (c : Char) (t : Text) :
    ∃ next more, Text.crlf (c :: t) = next :: more ∧ (IsBoundary next ↔ IsBoundary c) := by
  by_cases hc : c = '\n'
  · subst hc
    exact ⟨'\r', '\n' :: Text.crlf t, rfl, by decide⟩
  · exact ⟨c, Text.crlf t, Text.crlf_cons hc t, Iff.rfl⟩

end Directive

namespace Event

open Directive

/-- The event with other line endings. -/
def crlf : Event → Event
  | .token t => .token t.crlf
  | .statement text mark => .statement (Text.crlf text) mark
  | .directive preceding d => .directive (Text.crlf preceding) d.crlf
  | .remainder text keyword => .remainder (Text.crlf text) keyword

variable {mark : Text}

/-- A keyword is found at the end of the same characters. -/
theorem keywordAtEnd?_crlf (front : Text) :
    keywordAtEnd? (Text.crlf front).reverse =
      (keywordAtEnd? front.reverse).map fun found =>
        ((Text.crlf found.1.reverse).reverse, found.2) := by
  cases hfound : keywordAtEnd? front.reverse with
  | some found =>
      obtain ⟨before, word⟩ := found
      rw [← before.reverse_reverse, keywordAtEnd?_reverse_eq_some_iff] at hfound
      obtain ⟨rfl, hkeyword, hfollows⟩ := hfound
      refine keywordAtEnd?_reverse_eq_some_iff.mpr ⟨?_, hkeyword, ?_⟩
      · rw [Text.crlf_append, Text.crlf_of_not_mem (not_mem_of_isKeyword hkeyword).1]
      · rwa [mayFollow_crlf_iff]
  | none =>
      cases hother : keywordAtEnd? (Text.crlf front).reverse with
      | none => rfl
      | some found =>
          obtain ⟨before, word⟩ := found
          rw [← before.reverse_reverse, keywordAtEnd?_reverse_eq_some_iff] at hother
          obtain ⟨hsplit, hkeyword, hfollows⟩ := hother
          have hnewline := (not_mem_of_isKeyword hkeyword).1
          have hsuffix : word <:+ Text.crlf front := ⟨before.reverse, hsplit.symm⟩
          obtain ⟨plain, rfl⟩ := (Text.suffix_crlf_iff hnewline).mp hsuffix
          rw [Text.crlf_append, Text.crlf_of_not_mem hnewline] at hsplit
          rw [← List.append_cancel_right hsplit, mayFollow_crlf_iff] at hfollows
          have hagain := keywordAtEnd?_reverse_eq_some_iff.mpr ⟨rfl, hkeyword, hfollows⟩
          rw [hagain] at hfound
          exact absurd hfound (by simp)

/-- A scan stops behind the same characters. -/
theorem stopAfter?_crlf (h : '\n' ∉ mark) (front t : Text) :
    stopAfter? mark (Text.crlf front).reverse (Text.crlf t) =
      (stopAfter? mark front.reverse t).map (Reading.crlf crlf) := by
  by_cases hmark : mark <:+ front
  · obtain ⟨text, rfl⟩ := hmark
    rw [Text.crlf_append, Text.crlf_of_not_mem h, stopAfter?_of_suffix, stopAfter?_of_suffix]
    rfl
  · have hother : ¬ mark <:+ Text.crlf front := mt (Text.suffix_crlf_iff h).mp hmark
    rw [← List.reverse_prefix, ← List.isPrefixOf_iff_prefix] at hmark hother
    rw [stopAfter?, stopAfter?, if_neg hmark, if_neg hother, keywordAtEnd?_crlf]
    cases hfound : keywordAtEnd? front.reverse with
    | none => rfl
    | some found =>
        obtain ⟨before, word⟩ := found
        have hkeyword := isKeyword_of_keywordAtEnd? hfound
        cases t with
        | nil => simp [Reading.crlf, crlf]
        | cons c t =>
            have hread := Directive.read_crlf word (c :: t)
            rw [Text.crlf_of_not_mem (not_mem_of_isKeyword hkeyword).1] at hread
            obtain ⟨next, more, hnext, hboundary⟩ := exists_crlf_cons c t
            rw [hnext] at hread ⊢
            by_cases hc : IsBoundary c
            · have hstops : next = ';' ∨ Text.isBlank next = true := hboundary.mpr hc
              have hstopped : c = ';' ∨ Text.isBlank c = true := hc
              simp only [Option.map_some, if_pos hstops, if_pos hstopped, hread,
                List.reverse_reverse]
              refine congrArg some (Reading.crlf_map ?_).symm
              rfl
            · have hgoes : ¬ (next = ';' ∨ Text.isBlank next = true) := mt hboundary.mp hc
              have hwent : ¬ (c = ';' ∨ Text.isBlank c = true) := hc
              simp only [Option.map_some, if_neg hgoes, if_neg hwent, Option.map_none]

/-- No scan stops behind a carriage return whose newline is ahead. -/
theorem stopAfter?_return (h : Nameable mark) (front t : Text) :
    stopAfter? mark (front ++ ['\r']).reverse ('\n' :: t) = none := by
  apply stopAfter?_eq_none
  · rintro ⟨text, hsplit⟩
    obtain ⟨c, hc, hblank⟩ := h.last
    have hlast := congrArg List.getLast? hsplit
    rw [List.getLast?_append, hc, List.getLast?_concat, Option.some_or] at hlast
    rw [Option.some.inj hlast] at hblank
    exact absurd hblank (by decide)
  · intro before word hsplit hkeyword _
    have hne : word ≠ [] := by
      rintro rfl
      exact absurd (length_of_isKeyword hkeyword) (by decide)
    have hlast := congrArg List.getLast? hsplit
    rw [List.getLast?_concat, List.getLast?_append, List.getLast?_eq_some_getLast hne,
      Option.some_or, Option.some_inj] at hlast
    have hmem : '\r' ∈ word := hlast ▸ List.getLast_mem hne
    exact absurd hmem (not_mem_of_isKeyword hkeyword).2

/-- A scan of the text with other line endings finds the same event. -/
theorem scanBehind_crlf (h : Nameable mark) (front t : Text) :
    scanBehind mark (Text.crlf front).reverse (Text.crlf t) =
      (scanBehind mark front.reverse t).crlf crlf := by
  induction t generalizing front with
  | nil => simp [scanBehind, Reading.crlf, crlf]
  | cons c t ih =>
      have hstop := stopAfter?_crlf h.no_newline (front ++ [c]) t
      have hothers := ih (front ++ [c])
      have hseen : c :: front.reverse = (front ++ [c]).reverse := by simp
      rw [scanBehind, hseen]
      by_cases hc : c = '\n'
      · subst hc
        have hfirst := stopAfter?_return h (Text.crlf front) (Text.crlf t)
        have hreturn : '\r' :: (Text.crlf front).reverse = (Text.crlf front ++ ['\r']).reverse := by
          simp
        have hboth : '\n' :: (Text.crlf front ++ ['\r']).reverse =
            (Text.crlf (front ++ ['\n'])).reverse := by simp
        rw [Text.crlf_newline, scanBehind, hreturn, hfirst, scanBehind, hboth, hstop]
        cases stopAfter? mark (front ++ ['\n']).reverse t with
        | some reading => rfl
        | none => exact hothers
      · have hsame : c :: (Text.crlf front).reverse = (Text.crlf (front ++ [c])).reverse := by
          simp [Text.crlf_cons hc]
        rw [Text.crlf_cons hc, scanBehind, hsame, hstop]
        cases stopAfter? mark (front ++ [c]).reverse t with
        | some reading => rfl
        | none => exact hothers

theorem scan_crlf (h : Nameable mark) (t : Text) :
    scan mark (Text.crlf t) = (scan mark t).crlf crlf :=
  scanBehind_crlf h [] t

/-- But for a newline under the semicolon, the next event of the text with other
line endings is the next event with other line endings. -/
theorem read_crlf (h : Nameable mark) {c : Char} (hc : ¬ (c = '\n' ∧ mark = semicolon))
    (t : Text) :
    ∃ next more, Text.crlf (c :: t) = next :: more ∧
      read mark next more = (read mark c t).crlf crlf := by
  obtain ⟨next, more, hnext, -⟩ := exists_crlf_cons c t
  refine ⟨next, more, hnext, ?_⟩
  by_cases hmark : mark = semicolon
  · have hplain : c ≠ '\n' := fun hline => hc ⟨hline, hmark⟩
    rw [Text.crlf_cons hplain] at hnext
    obtain ⟨rfl, rfl⟩ : c = next ∧ Text.crlf t = more := by simpa using hnext
    rw [read, read, if_pos hmark, if_pos hmark, Token.read_crlf hplain]
    refine (Reading.crlf_map ?_).symm
    rfl
  · rw [read, read, if_neg hmark, if_neg hmark, ← hnext]
    exact scan_crlf h (c :: t)

end Event

end SqlScript

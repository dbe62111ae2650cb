/-
Where raw scans stop.  A scan stops behind the first characters that the
delimiter or a directive's keyword ends, so it is found by looking at the fronts
of the text one after the other.
-/
import SqlScript.Proofs.Event.Shape

namespace SqlScript

namespace Directive

/-- A character that may stand next to a directive's keyword. -/
def IsBoundary (c : Char) : Prop :=
  c = ';' ∨ Text.isBlank c = true

instance : DecidablePred IsBoundary :=
  fun c => inferInstanceAs (Decidable (c = ';' ∨ Text.isBlank c = true))

/-- A keyword may stand behind `before`: at the start of a text or behind a
boundary. -/
def MayFollow (before : Text) : Prop :=
  ∀ c ∈ before.getLast?, IsBoundary c

instance : DecidablePred MayFollow :=
  fun before => before.getLast?.decidableForallMem

theorem length_of_isKeyword {word : Text} (h : IsKeyword word) :
    word.length = Keyword.delimiter.spelling.length := by
  rw [← h, List.length_map]

theorem ne_nil_of_isKeyword {word : Text} (h : IsKeyword word) : word ≠ [] := by
  rw [← List.length_pos_iff, length_of_isKeyword h]
  decide

theorem toLower_mem_of_isKeyword {word : Text} {c : Char} (h : IsKeyword word) (hc : c ∈ word) :
    c.toLower ∈ Keyword.delimiter.spelling :=
  h ▸ List.mem_map_of_mem hc

end Directive

namespace Event

open Directive

theorem atWordBoundary_reverse_iff (before : Text) :
    atWordBoundary before.reverse = true ↔ MayFollow before := by
  rw [MayFollow, ← List.head?_reverse]
  cases before.reverse with
  | nil => simp [atWordBoundary]
  | cons c behind => simp [atWordBoundary, IsBoundary]

/-- A keyword at the end of what was scanned splits it in two. -/
theorem keywordAtEnd?_reverse_eq_some_iff {front before word : Text} :
    keywordAtEnd? front.reverse = some (before.reverse, word) ↔
      front = before ++ word ∧ IsKeyword word ∧ MayFollow before := by
  constructor
  · intro h
    have hsplit := congrArg List.reverse (keywordAtEnd?_eq_some h)
    refine ⟨by simpa using hsplit.symm, isKeyword_of_keywordAtEnd? h, ?_⟩
    simp only [keywordAtEnd?] at h
    split at h
    · rename_i hword
      obtain ⟨hbefore, -⟩ := Prod.mk.inj (Option.some.inj h)
      rw [← atWordBoundary_reverse_iff, ← hbefore]
      exact hword.2
    · exact absurd h (by simp)
  · rintro ⟨rfl, hkeyword, hfollows⟩
    have hlength : word.reverse.length = Keyword.delimiter.spelling.length := by
      rw [List.length_reverse, length_of_isKeyword hkeyword]
    rw [← atWordBoundary_reverse_iff] at hfollows
    simp only [keywordAtEnd?, List.reverse_append, List.take_left' hlength,
      List.drop_left' hlength, List.reverse_reverse]
    exact if_pos ⟨hkeyword, hfollows⟩

/-- A scan goes on behind a front that neither the delimiter ends nor a keyword
that is followed by a boundary or the end of the text. -/
theorem stopAfter?_eq_none {mark front t : Text} (hmark : ¬ mark <:+ front)
    (hword : ∀ before word, front = before ++ word → IsKeyword word → MayFollow before →
      ∃ c ∈ t.head?, ¬ IsBoundary c) : stopAfter? mark front.reverse t = none := by
  have hprefix : ¬ mark.reverse.isPrefixOf front.reverse = true := by
    rwa [List.isPrefixOf_iff_prefix, List.reverse_prefix]
  rw [stopAfter?, if_neg hprefix]
  cases hfound : keywordAtEnd? front.reverse with
  | none => rfl
  | some found =>
      obtain ⟨before, word⟩ := found
      rw [← before.reverse_reverse, keywordAtEnd?_reverse_eq_some_iff] at hfound
      obtain ⟨hfront, hkeyword, hfollows⟩ := hfound
      obtain ⟨c, hc, hboundary⟩ := hword before.reverse word hfront hkeyword hfollows
      cases t with
      | nil => exact absurd hc (by simp)
      | cons next rest =>
          obtain rfl : next = c := Option.some.inj hc
          exact if_neg hboundary

/-- The delimiter ends a scan. -/
theorem stopAfter?_of_suffix (text mark t : Text) :
    stopAfter? mark (text ++ mark).reverse t = some (.settled (.statement text mark) t) := by
  have hprefix : mark.reverse.isPrefixOf (mark.reverse ++ text.reverse) = true :=
    List.isPrefixOf_iff_prefix.mpr (List.prefix_append _ _)
  have hdrop : (mark.reverse ++ text.reverse).drop mark.length = text.reverse :=
    List.drop_left' List.length_reverse
  rw [List.reverse_append, stopAfter?, if_pos hprefix, hdrop, List.reverse_reverse]

/-- What is left decides whether a keyword that the delimiter does not end ends a
scan. -/
theorem stopAfter?_append_keyword {mark before word : Text} (hmark : ¬ mark <:+ before ++ word)
    (hkeyword : IsKeyword word) (hfollows : MayFollow before) (t : Text) :
    stopAfter? mark (before ++ word).reverse t =
      match t with
      | [] => some (.cutShort (.remainder before word))
      | c :: _ =>
          if IsBoundary c then some ((Directive.read word t).map (.directive before)) else none := by
  have hprefix : ¬ mark.reverse.isPrefixOf (before ++ word).reverse = true := by
    rwa [List.isPrefixOf_iff_prefix, List.reverse_prefix]
  have hfound := keywordAtEnd?_reverse_eq_some_iff.mpr ⟨rfl, hkeyword, hfollows⟩
  rw [stopAfter?, if_neg hprefix, hfound]
  simp only [List.reverse_reverse]
  rfl

/-- A keyword that the delimiter does not end ends a scan in front of a boundary,
and the directive is read on from there. -/
theorem stopAfter?_of_keyword {mark before word : Text} (hmark : ¬ mark <:+ before ++ word)
    (hkeyword : IsKeyword word) (hfollows : MayFollow before) {c : Char} (hc : IsBoundary c)
    (t : Text) :
    stopAfter? mark (before ++ word).reverse (c :: t) =
      some ((Directive.read word (c :: t)).map (.directive before)) := by
  rw [stopAfter?_append_keyword hmark hkeyword hfollows]
  exact if_pos hc

/-- A scan that does not stop inside `body` goes on behind it. -/
theorem scanBehind_append {mark seen body rest : Text}
    (h : ∀ front back, front ≠ [] → front ++ back = body →
      stopAfter? mark (front.reverse ++ seen) (back ++ rest) = none) :
    scanBehind mark seen (body ++ rest) = scanBehind mark (body.reverse ++ seen) rest := by
  induction body generalizing seen with
  | nil => rfl
  | cons c body ih =>
      have hfirst : stopAfter? mark (c :: seen) (body ++ rest) = none :=
        h [c] body (List.cons_ne_nil c []) rfl
      rw [List.cons_append, scanBehind, hfirst, List.reverse_cons, List.append_assoc]
      apply ih
      intro front back hne hbody
      have hlonger := h (c :: front) back (List.cons_ne_nil c front) (by rw [← hbody]; rfl)
      rwa [List.reverse_cons, List.append_assoc] at hlonger

/-- A scan stops at the first front that ends it. -/
theorem scan_of_stop {mark body rest : Text} {c : Char} {reading : Reading Event}
    (hbody : ∀ front back, front ≠ [] → front ++ back = body →
      stopAfter? mark front.reverse (back ++ c :: rest) = none)
    (hstop : stopAfter? mark (body ++ [c]).reverse rest = some reading) :
    scan mark (body ++ c :: rest) = reading := by
  rw [List.reverse_append] at hstop
  rw [scan, scanBehind_append, List.append_nil, scanBehind]
  · rw [show c :: body.reverse = [c].reverse ++ body.reverse from rfl, hstop]
  · intro front back hne hfront
    rw [List.append_nil]
    exact hbody front back hne hfront

end Event

end SqlScript

/-
Raw scans as searches.  A scan stops behind the shortest front of the text that
the delimiter ends, or a directive's keyword that counts, and the delimiter goes
before the keyword.  What it comes to is told by that front and by what is left,
and taking characters one at a time, with one put back behind every keyword that
does not count, comes to the same.
-/
import SqlScript.Proofs.Event.Scanning
import SqlScript.Proofs.Splitter.Pulling
import SqlScript.Proofs.Utf8.Ends

namespace SqlScript

namespace Event

open Directive

/-- A directive's keyword ends `front` where one may stand, and what is left does
not go on with the word. -/
def EndsWithKeyword (front rest : Text) : Prop :=
  ∃ before word, front = before ++ word ∧ IsKeyword word ∧ MayFollow before ∧
    ∀ c ∈ rest.head?, IsBoundary c

/-- The first `n` characters of a text end a scan for `mark`. -/
def StopsAt (mark t : Text) (n : Nat) : Prop :=
  0 < n ∧ n ≤ t.length ∧ (mark <:+ t.take n ∨ EndsWithKeyword (t.take n) (t.drop n))

/-- A scan for `mark` in front of `t` comes to an event and takes `count`
characters, over the text and from every cursor in front of it. -/
structure Finds (mark t : Text) (event : Event) (count : Nat) : Prop where
  value : (scan mark t).value = event
  rest : (scan mark t).rest = t.drop count
  pulled : ∀ position, (Stop.endOfInput.behind t position).pullScan mark [] =
    (.ok event, Stop.endOfInput.behind (t.drop count) (position + count))

instance (front rest : Text) : Decidable (EndsWithKeyword front rest) :=
  let : Decidable (∀ c ∈ rest.head?, IsBoundary c) := rest.head?.decidableForallMem
  decidable_of_iff ((keywordAtEnd? front.reverse).isSome ∧ ∀ c ∈ rest.head?, IsBoundary c) <| by
    constructor
    · rintro ⟨hfound, hrest⟩
      obtain ⟨⟨before, word⟩, hfound⟩ := Option.isSome_iff_exists.mp hfound
      rw [← before.reverse_reverse, keywordAtEnd?_reverse_eq_some_iff] at hfound
      obtain ⟨hfront, hkeyword, hfollows⟩ := hfound
      exact ⟨_, word, hfront, hkeyword, hfollows, hrest⟩
    · rintro ⟨before, word, hfront, hkeyword, hfollows, hrest⟩
      rw [keywordAtEnd?_reverse_eq_some_iff.mpr ⟨hfront, hkeyword, hfollows⟩]
      exact ⟨rfl, hrest⟩

instance (mark t : Text) (n : Nat) : Decidable (StopsAt mark t n) :=
  inferInstanceAs (Decidable (_ ∧ _ ∧ (_ ∨ _)))

variable {mark t front rest : Text}

/-- Every scan finds what it has read, and takes just that. -/
theorem finds_of_value {event : Event} {count : Nat} (h : (scan mark t).value = event)
    (hcount : event.lexeme.length = count) : Finds mark t event count := by
  have hsplit : (scan mark t).Partitions lexeme t := scanBehind_partitions mark [] t
  have hrest : (scan mark t).rest = t.drop count := by
    have hwhole : event.lexeme ++ (scan mark t).rest = t := h ▸ hsplit
    rw [← hcount, ← congrArg (List.drop event.lexeme.length) hwhole, List.drop_left]
  refine ⟨h, hrest, fun position => ?_⟩
  have hpulls : Pulls _ _ _ (scan mark t) := Stop.endOfInput.pullScan_behind mark [] t position
  rw [hpulls.eq_of_no_error hsplit rfl, h, hrest, hcount]

theorem stopsAt_length_iff :
    StopsAt mark (front ++ rest) front.length ↔
      front ≠ [] ∧ (mark <:+ front ∨ EndsWithKeyword front rest) := by
  rw [StopsAt, List.take_left, List.drop_left, List.length_pos_iff, List.length_append]
  simp

/-- A scan goes on behind every front where it does not stop. -/
theorem stopAfter?_of_not_stopsAt (hne : front ≠ [])
    (h : ¬ StopsAt mark (front ++ rest) front.length) :
    stopAfter? mark front.reverse rest = none := by
  rw [stopsAt_length_iff, not_and, not_or] at h
  obtain ⟨hmark, hkeyword⟩ := h hne
  apply stopAfter?_eq_none hmark
  intro before word hfront hword hfollows
  by_contra hnext
  apply hkeyword
  refine ⟨before, word, hfront, hword, hfollows, fun c hc => ?_⟩
  by_contra hboundary
  exact hnext ⟨c, hc, hboundary⟩

/-- A text without a place to stop is scanned to its end. -/
theorem scan_of_no_stop (h : ∀ n, ¬ StopsAt mark t n) :
    scan mark t = .cutShort (.remainder t []) := by
  have hwhole : scanBehind mark [] (t ++ []) = scanBehind mark (t.reverse ++ []) [] := by
    apply scanBehind_append
    rintro front back hne rfl
    rw [List.append_nil, List.append_nil]
    exact stopAfter?_of_not_stopsAt hne (h front.length)
  rw [List.append_nil, List.append_nil] at hwhole
  rw [scan, hwhole, scanBehind, List.reverse_reverse]

/-- Behind the first place to stop, the scan comes to what ends it there. -/
theorem scan_of_first_stop {reading : Reading Event} (hne : front ≠ [])
    (hfirst : ∀ m < front.length, ¬ StopsAt mark (front ++ rest) m)
    (hstop : stopAfter? mark front.reverse rest = some reading) :
    scan mark (front ++ rest) = reading := by
  obtain ⟨body, c, rfl⟩ := List.eq_nil_or_concat front |>.resolve_left hne
  rw [List.concat_eq_append] at hfirst hstop ⊢
  rw [List.append_assoc, List.singleton_append] at hfirst ⊢
  apply scan_of_stop ?_ hstop
  rintro before back hbefore rfl
  apply stopAfter?_of_not_stopsAt hbefore
  rw [← List.append_assoc]
  apply hfirst
  simp only [List.length_append, List.length_singleton]
  omega

/-- The delimiter does not occur in front of the first place where it stands. -/
theorem not_isInfix_of_first {text : Text} (hmark : mark ≠ [])
    (hfirst : ∀ m < (text ++ mark).length, ¬ StopsAt mark (text ++ mark ++ rest) m) :
    ¬ mark <:+: text := by
  rintro ⟨front, behind, rfl⟩
  have hlength := List.length_pos_iff.mpr hmark
  apply hfirst (front ++ mark).length
  · simp only [List.length_append]
    omega
  · rw [List.append_assoc, List.append_assoc (front ++ mark), stopsAt_length_iff]
    exact ⟨List.append_ne_nil_of_right_ne_nil front hmark, .inl (List.suffix_append front mark)⟩

/-- The delimiter at the end of the first front that ends a scan gives the text in
front of it. -/
theorem finds_statement {text : Text} (hmark : mark ≠ [])
    (hfirst : ∀ m < (text ++ mark).length, ¬ StopsAt mark (text ++ mark ++ rest) m) :
    Finds mark (text ++ mark ++ rest) (.statement text mark) (text ++ mark).length := by
  have hne : text ++ mark ≠ [] := List.append_ne_nil_of_right_ne_nil text hmark
  have hscan := scan_of_first_stop hne hfirst (stopAfter?_of_suffix text mark rest)
  exact finds_of_value (congrArg Reading.value hscan) rfl

/-- What a scan of `t` finds when it stops behind the keyword `word`, which ends
the first `n` characters. -/
structure FindsKeyword (mark t : Text) (n : Nat) (before word : Text) : Prop where
  /-- At the end of the text the keyword is dropped. -/
  atEnd : t.drop n = [] → Finds mark t (.remainder before word) n
  /-- A semicolon is the argument itself. -/
  semicolon : ∀ rest, t.drop n = ';' :: rest →
    Finds mark t (.directive before ⟨word, [';']⟩) (n + 1) ∧
      Directive.delimiter ⟨word, [';']⟩ = Event.semicolon
  /-- A blank begins a line, whose blanks are no part of the argument. -/
  line : ∀ c rest, t.drop n = c :: rest → Text.isBlank c = true → ∃ tail behind,
    c :: rest = tail ++ behind ∧ RunsThroughLine tail behind ∧
      Finds mark t (.directive before ⟨word, tail⟩) (n + tail.length) ∧
        Directive.delimiter ⟨word, tail⟩ = Text.trim tail

/-- In front of a boundary the directive is read on from the keyword. -/
theorem finds_directive {before word more : Text} {c : Char} (hkeyword : IsKeyword word)
    (hfollows : MayFollow before) (hmark : ¬ mark <:+ before ++ word)
    (hfirst : ∀ m < (before ++ word).length, ¬ StopsAt mark (before ++ word ++ c :: more) m)
    (hboundary : IsBoundary c) :
    let tail := (Reading.takeThrough endsDirective (c :: more)).value
    Finds mark (before ++ word ++ c :: more) (.directive before ⟨word, tail⟩)
      ((before ++ word).length + tail.length) := by
  have hne : before ++ word ≠ [] :=
    List.append_ne_nil_of_right_ne_nil before (ne_nil_of_isKeyword hkeyword)
  have hscan := scan_of_first_stop hne hfirst
    (stopAfter?_of_keyword hmark hkeyword hfollows hboundary more)
  apply finds_of_value
  · rw [hscan, Reading.value_map, Directive.read, Reading.value_map]
  · simp [lexeme, Directive.lexeme, Nat.add_assoc]

theorem findsKeyword_of_first {before word : Text} (hkeyword : IsKeyword word)
    (hfollows : MayFollow before) (hmark : ¬ mark <:+ before ++ word)
    (hfirst : ∀ m < (before ++ word).length, ¬ StopsAt mark (before ++ word ++ rest) m) :
    FindsKeyword mark (before ++ word ++ rest) (before ++ word).length before word := by
  constructor
  · rw [List.drop_left]
    rintro rfl
    have hne : before ++ word ≠ [] :=
      List.append_ne_nil_of_right_ne_nil before (ne_nil_of_isKeyword hkeyword)
    have hstop := stopAfter?_append_keyword hmark hkeyword hfollows []
    exact finds_of_value (congrArg Reading.value (scan_of_first_stop hne hfirst hstop)) rfl
  · rw [List.drop_left]
    rintro more rfl
    exact ⟨finds_directive hkeyword hfollows hmark hfirst (.inl rfl), rfl⟩
  · rw [List.drop_left]
    rintro c more rfl hblank
    have hline := (Directive.read_isBefore hkeyword (c :: more)).tail
    simp only [Directive.read, Reading.value_map, Reading.rest_map] at hline
    have hsplit : _ = c :: more := Reading.takeThrough_partitions endsDirective (c :: more)
    have hfound := finds_directive hkeyword hfollows hmark hfirst (.inr hblank)
    exact ⟨_, _, hsplit.symm, hline, hfound, rfl⟩

/-- A raw scan is a search for the first place where the delimiter or a keyword
that counts ends the text.  Without such a place the scan comes to the end.  The
delimiter gives the text in front of it, in which it does not occur; a keyword on
its own begins a directive.  Whether the delimiter ends a text can as well be told
from their bytes. -/
theorem scan_finds_first {mark : Text} (hmark : mark ≠ []) (t : Text) :
    ((∀ n, ¬ StopsAt mark t n) → Finds mark t (.remainder t []) t.length) ∧
      (∀ n, StopsAt mark t n → (∀ m < n, ¬ StopsAt mark t m) →
        (∀ text, t.take n = text ++ mark →
          Finds mark t (.statement text mark) n ∧ ¬ mark <:+: text) ∧
        (¬ mark <:+ t.take n → ∃ before word, t.take n = before ++ word ∧ IsKeyword word ∧
          MayFollow before ∧ FindsKeyword mark t n before word)) ∧
      ∀ front, Utf8.encode mark <:+ Utf8.encode front ↔ mark <:+ front := by
  refine ⟨fun hnone => ?_, fun n hstop hfirst => ?_, fun front => Utf8.encode_isSuffix_encode_iff⟩
  · exact finds_of_value (congrArg Reading.value (scan_of_no_stop hnone)) (by simp [lexeme])
  · obtain ⟨-, hle, hends⟩ := hstop
    obtain ⟨front, rest, rfl, rfl⟩ : ∃ front rest, front ++ rest = t ∧ front.length = n :=
      ⟨t.take n, t.drop n, List.take_append_drop n t, List.length_take_of_le hle⟩
    rw [List.take_left, List.drop_left] at hends
    rw [List.take_left]
    constructor
    · rintro text rfl
      exact ⟨finds_statement hmark hfirst, not_isInfix_of_first hmark hfirst⟩
    · intro hother
      obtain ⟨before, word, rfl, hkeyword, hfollows, -⟩ := hends.resolve_left hother
      exact ⟨before, word, rfl, hkeyword, hfollows,
        findsKeyword_of_first hkeyword hfollows hother hfirst⟩

/-- A keyword that follows a letter and one that goes on as a longer word stand in
front of the directive; the delimiter that shares a character with what is in front
of it ends a statement. -/
theorem scan_finds_first_behind_longer_words :
    let mark := "//".toList
    let script := "aDELIMITER DELIMITERS DELIMITER $$\nb".toList
    let other := "é/a///".toList
    (mark ≠ [] ∧ StopsAt mark script 31 ∧ (∀ m < 31, ¬ StopsAt mark script m) ∧
        StopsAt mark other 5 ∧ (∀ m < 5, ¬ StopsAt mark other m)) ∧
      (∃ before word, script.take 31 = before ++ word ∧ IsKeyword word ∧ MayFollow before ∧
          FindsKeyword mark script 31 before word) ∧
        Finds mark other (.statement "é/a".toList mark) 5 := by
  intro mark script other
  have hmark : mark ≠ [] := by decide
  have hscript : StopsAt mark script 31 ∧ ∀ m < 31, ¬ StopsAt mark script m := by decide +kernel
  have hother : StopsAt mark other 5 ∧ ∀ m < 5, ¬ StopsAt mark other m := by decide +kernel
  have hends : ¬ mark <:+ script.take 31 := by decide +kernel
  obtain ⟨-, hfirst, -⟩ := scan_finds_first hmark script
  obtain ⟨-, hfirst', -⟩ := scan_finds_first hmark other
  refine ⟨⟨hmark, hscript.1, hscript.2, hother⟩, (hfirst 31 hscript.1 hscript.2).2 hends, ?_⟩
  exact ((hfirst' 5 hother.1 hother.2).1 "é/a".toList (by decide +kernel)).1

end Event

end SqlScript

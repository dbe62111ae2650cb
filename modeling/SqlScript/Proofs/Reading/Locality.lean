/-
What decides a reading.  A settled reading is decided by the characters it took
and by at most one character behind them: it comes out the same before every
text that begins alike, and at the end of the text.  A reading that left
nothing did not look behind itself at all.
-/
import Mathlib.Data.List.Infix
import SqlScript.Proofs.Reading.Extent

namespace SqlScript.Reading

variable {α β : Type}

/-- A reading that left `rest` admits `other` in its place when there was
nothing to look at, or when both begin alike. -/
def Admits (rest other : Text) : Prop :=
  rest = [] ∨ rest.head? = other.head?

theorem Admits.append_left {rest other : Text} (h : Admits rest other) (body : Text) :
    Admits (body ++ rest) (body ++ other) := by
  cases body with
  | nil => exact h
  | cons c body => exact .inr rfl

theorem Admits.of_isPrefix {rest other : Text} (h : other <+: rest) (hne : other ≠ []) :
    Admits rest other := by
  obtain ⟨more, rfl⟩ := h
  obtain ⟨c, tail, rfl⟩ := List.exists_cons_of_ne_nil hne
  exact .inr rfl

theorem Admits.cons {c : Char} {rest other : Text} (h : Admits (c :: rest) other) :
    ∃ more, other = c :: more := by
  cases other with
  | nil => simp [Admits] at h
  | cons d more =>
      have hd : c = d := by simpa [Admits] using h
      exact ⟨more, hd ▸ rfl⟩

/-- Having read `a` from `body` in front of `rest` was decided there. -/
structure DecidedBy (read : Text → Reading α) (body : Text) (a : α) (rest : Text) : Prop where
  value_alone : (read body).value = a
  rest_alone : (read body).rest = []
  settled_before : ∀ other, Admits rest other → read (body ++ other) = .settled a other

/-- What is behind may be cut off anywhere. -/
theorem DecidedBy.before_front {read : Text → Reading α} {body rest other : Text} {a : α}
    (h : DecidedBy read body a rest) (hfront : other <+: rest) :
    (read (body ++ other)).value = a ∧ (read (body ++ other)).rest = other := by
  by_cases hother : other = []
  · subst hother
    rw [List.append_nil]
    exact ⟨h.value_alone, h.rest_alone⟩
  · rw [h.settled_before other (.of_isPrefix hfront hother)]
    exact ⟨rfl, rfl⟩

/-- If a reading of `t` is settled, then it was decided by what it took. -/
def LocalAt (read : Text → Reading α) (t : Text) : Prop :=
  ∀ a rest, read t = .settled a rest → ∃ body, t = body ++ rest ∧ DecidedBy read body a rest

/-- A local reader settles nothing that it has not seen. -/
def Local (read : Text → Reading α) : Prop :=
  ∀ t, LocalAt read t

theorem LocalAt.of_cutShort {read : Text → Reading α} {t : Text} {a : α}
    (h : read t = .cutShort a) : LocalAt read t := by
  intro b rest hread
  rw [h] at hread
  exact absurd hread (by simp)

/-- A reader that takes nothing and settles whatever is ahead is local. -/
theorem settled_local (a : α) : Local (settled a) := by
  intro t b rest hread
  obtain ⟨rfl, rfl⟩ : a = b ∧ t = rest := by simpa using hread
  exact ⟨[], rfl, rfl, rfl, fun _ _ => rfl⟩

theorem LocalAt.map {read : Text → Reading α} {t : Text} (h : LocalAt read t) (f : α → β) :
    LocalAt (fun t => (read t).map f) t := by
  intro b rest hread
  obtain ⟨a, hsettled, rfl⟩ := map_eq_settled hread
  obtain ⟨body, ht, hbody⟩ := h a rest hsettled
  refine ⟨body, ht, ?_, ?_, ?_⟩
  · rw [value_map, hbody.value_alone]
  · rw [rest_map, hbody.rest_alone]
  · intro other hother
    rw [hbody.settled_before other hother]
    rfl

theorem Local.map {read : Text → Reading α} (h : Local read) (f : α → β) :
    Local fun t => (read t).map f := by
  intro t
  exact (h t).map f

/-- A reader that goes on as `read` behind `lead` is local where `read` is. -/
theorem LocalAt.behind {read outer : Text → Reading α} {t : Text} (h : LocalAt read t)
    (lead : Text) (houter : ∀ t, outer (lead ++ t) = read t) : LocalAt outer (lead ++ t) := by
  intro a rest hread
  rw [houter] at hread
  obtain ⟨body, ht, hbody⟩ := h a rest hread
  refine ⟨lead ++ body, by rw [ht, List.append_assoc], ?_, ?_, ?_⟩
  · rw [houter, hbody.value_alone]
  · rw [houter, hbody.rest_alone]
  · intro other hother
    rw [List.append_assoc, houter]
    exact hbody.settled_before other hother

/-- A reader that goes on as `inner` behind `lead`, and otherwise settles on `a`
without taking anything, is local wherever there is a character to look at. -/
theorem LocalAt.of_lead {read inner : Text → Reading α} (lead : Char) {a : α} {t : Text}
    (hne : t ≠ []) (hinner : Local inner) (hlead : ∀ t, read (lead :: t) = inner t)
    (hother : ∀ c t, c ≠ lead → read (c :: t) = .settled a (c :: t))
    (hvalue : (read []).value = a) (hrest : (read []).rest = []) : LocalAt read t := by
  obtain ⟨c, t, rfl⟩ := List.exists_cons_of_ne_nil hne
  by_cases hc : c = lead
  · subst hc
    exact (hinner t).behind [c] hlead
  · intro b rest hread
    obtain ⟨rfl, rfl⟩ : a = b ∧ c :: t = rest := by simpa [hother c t hc] using hread
    refine ⟨[], rfl, hvalue, hrest, ?_⟩
    intro other hadmits
    obtain ⟨more, rfl⟩ := hadmits.cons
    exact hother c more hc

/-- Reading on stays local.  The continuation need only be local where the
first reader can have left it. -/
theorem LocalAt.andThen {read : Text → Reading α} {next : α → Text → Reading β} {t : Text}
    (h : LocalAt read t)
    (hnext : ∀ a rest, read t = .settled a rest → LocalAt (next a) rest) :
    LocalAt (fun t => (read t).andThen next) t := by
  intro b rest hboth
  cases hread : read t with
  | cutShort a => simp [hread, Reading.andThen] at hboth
  | settled a middle =>
      have hsettled : next a middle = .settled b rest := by
        simpa [hread, Reading.andThen] using hboth
      obtain ⟨first, ht, hfirst⟩ := h a middle hread
      obtain ⟨second, hmiddle, hsecond⟩ := hnext a middle hread b rest hsettled
      have halone := hfirst.before_front ⟨rest, hmiddle.symm⟩
      refine ⟨first ++ second, by rw [ht, hmiddle, List.append_assoc], ?_, ?_, ?_⟩
      · rw [value_andThen, halone.1, halone.2]
        exact hsecond.value_alone
      · cases hbody : read (first ++ second) with
        | cutShort a => rfl
        | settled c left =>
            rw [hbody, value_settled, rest_settled] at halone
            rw [halone.1, halone.2]
            exact hsecond.rest_alone
      · intro other hother
        have hadmits := hother.append_left second
        rw [← hmiddle] at hadmits
        rw [List.append_assoc, hfirst.settled_before _ hadmits]
        exact hsecond.settled_before other hother

theorem takeRun_local (p : Char → Bool) : Local (takeRun p) := by
  intro t
  induction t with
  | nil => exact .of_cutShort rfl
  | cons c t ih =>
      by_cases hc : p c = true
      · exact (ih.map (c :: ·)).behind [c] fun t => by simp [takeRun, hc]
      · intro a rest hread
        obtain ⟨rfl, rfl⟩ : [] = a ∧ c :: t = rest := by simpa [takeRun, hc] using hread
        refine ⟨[], rfl, rfl, rfl, ?_⟩
        intro other hother
        obtain ⟨more, rfl⟩ := hother.cons
        simp [takeRun, hc]

theorem takeThrough_local (p : Char → Bool) : Local (takeThrough p) := by
  intro t
  induction t with
  | nil => exact .of_cutShort rfl
  | cons c t ih =>
      by_cases hc : p c = true
      · intro a rest hread
        obtain ⟨rfl, rfl⟩ : [c] = a ∧ t = rest := by simpa [takeThrough, hc] using hread
        refine ⟨[c], rfl, by simp [takeThrough, hc], by simp [takeThrough, hc], ?_⟩
        intro other _
        simp [takeThrough, hc]
      · exact (ih.map (c :: ·)).behind [c] fun t => by simp [takeThrough, hc]

/-- Behind a text that is long enough, nothing helps or hinders a mark. -/
theorem isPrefixOf_append_eq {mark body : Text} (h : mark.length ≤ body.length)
    (rest other : Text) : mark.isPrefixOf (body ++ rest) = mark.isPrefixOf (body ++ other) := by
  rw [Bool.eq_iff_iff, List.isPrefixOf_iff_prefix, List.isPrefixOf_iff_prefix,
    List.isPrefix_append_of_length h, List.isPrefix_append_of_length h]

theorem takeThroughMark_local {mark : Text} (hne : mark ≠ []) :
    Local (takeThroughMark mark) := by
  obtain ⟨first, marks, rfl⟩ := List.exists_cons_of_ne_nil hne
  intro t
  induction t with
  | nil => exact .of_cutShort rfl
  | cons c t ih =>
      intro taken rest hread
      by_cases hmark : (first :: marks).isPrefixOf (c :: t) = true
      · obtain ⟨rfl, rfl⟩ :
            first :: marks = taken ∧ (c :: t).drop (first :: marks).length = rest := by
          simpa only [takeThroughMark, hmark, if_true, settled.injEq] using hread
        have hsplit := List.prefix_iff_eq_append.mp (List.isPrefixOf_iff_prefix.mp hmark)
        refine ⟨first :: marks, hsplit.symm, ?_, ?_, ?_⟩
        · simp [takeThroughMark]
        · simp [takeThroughMark]
        · intro other _
          simp [takeThroughMark]
      · obtain ⟨more, hmore, rfl⟩ := map_eq_settled (by simpa [takeThroughMark, hmark] using hread)
        obtain ⟨body, ht, hbody⟩ := ih more rest hmore
        -- `body` ends with the mark, so no mark that begins at `c` reaches behind it.
        have hmoreBody : more = body := by
          have hsplit : more ++ rest = t := by
            simpa [hmore, Partitions] using takeThroughMark_partitions (first :: marks) t
          exact List.append_cancel_right (hsplit.trans ht)
        have hlength : (first :: marks).length ≤ (c :: body).length := by
          have hsuffix := (mark_suffix_of_takeThroughMark hmore).length_le
          rw [hmoreBody] at hsuffix
          exact Nat.le_succ_of_le hsuffix
        have hstill : ∀ other, (first :: marks).isPrefixOf (c :: (body ++ other)) = false := by
          intro other
          have heq := isPrefixOf_append_eq hlength rest other
          rw [List.cons_append, List.cons_append, ← ht] at heq
          rw [← heq]
          exact eq_false_of_ne_true hmark
        have hagain : ∀ other, takeThroughMark (first :: marks) (c :: (body ++ other)) =
            (takeThroughMark (first :: marks) (body ++ other)).map (c :: ·) := by
          intro other
          simp [takeThroughMark, hstill other]
        have halone := hagain []
        rw [List.append_nil] at halone
        refine ⟨c :: body, by rw [ht, List.cons_append], ?_, ?_, ?_⟩
        · rw [halone, value_map, hbody.value_alone]
        · rw [halone, rest_map, hbody.rest_alone]
        · intro other hother
          rw [List.cons_append, hagain, hbody.settled_before other hother]
          rfl

end SqlScript.Reading

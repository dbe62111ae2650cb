/-
Basic strings that are written are read back.  Every character is read from how it
stands in the string, be it as it is, behind a backslash or as a code point.  On
several lines the closing quotes are not found too early: where a reader looks for
them, no more than two quotes stand in a row.
-/
import SqlScript.Toml.Strings
import SqlScript.Toml.Writer

namespace SqlScript.Toml

/-! ### Closing quotes -/

section Closing

variable {quote : Char} {body rest : Text}

theorem closeTripled?_eq_none_iff {t : Text} :
    closeTripled? quote t = none ↔ ¬ List.replicate 3 quote <+: t := by
  have hfive : List.replicate 5 quote <+: t → List.replicate 3 quote <+: t :=
    (List.prefix_append (List.replicate 3 quote) (List.replicate 2 quote)).trans
  have hfour : List.replicate 4 quote <+: t → List.replicate 3 quote <+: t :=
    (List.prefix_append (List.replicate 3 quote) (List.replicate 1 quote)).trans
  simp only [List.replicate] at hfive hfour ⊢
  simp only [closeTripled?, List.isPrefixOf_iff_prefix]
  repeat' split
  all_goals simp_all

/-- Nothing is closed in front of a character that is no quote. -/
theorem closeTripled?_of_ne {c : Char} (h : c ≠ quote) (t : Text) :
    closeTripled? quote (c :: t) = none := by
  rw [closeTripled?_eq_none_iff]
  intro hquotes
  exact h (List.cons_prefix_cons.mp hquotes).1.symm

/-- Where no three quotes stand and something else follows, nothing is closed. -/
theorem closeTripled?_eq_none (hrun : ¬ List.replicate 3 quote <+: body)
    (hother : ∃ c ∈ body, c ≠ quote) (others : Text) :
    closeTripled? quote (body ++ others) = none := by
  rw [closeTripled?_eq_none_iff]
  intro hquotes
  rcases List.prefix_or_prefix_of_prefix hquotes (List.prefix_append body others) with h | h
  · exact hrun h
  · obtain ⟨c, hc, hne⟩ := hother
    exact hne (List.eq_of_mem_replicate (h.subset hc))

/-- Up to two quotes in front of the closing ones belong to the string. -/
theorem closeTripled?_replicate {count : Nat} (hcount : count ≤ 2)
    (hrest : rest.head? ≠ some quote) :
    closeTripled? quote (List.replicate count quote ++ List.replicate 3 quote ++ rest) =
      some (List.replicate count quote, rest) := by
  have hnot : ∀ more : Text, List.isPrefixOf (quote :: more) rest = false := by
    intro more
    cases rest with
    | nil => rfl
    | cons d rest =>
        have hne : quote ≠ d := by
          rintro rfl
          exact hrest rfl
        simp [List.isPrefixOf, hne]
  obtain rfl | rfl | rfl : count = 0 ∨ count = 1 ∨ count = 2 := by omega
  all_goals simp [closeTripled?, List.replicate, hnot]

end Closing

/-! ### Escapes -/

theorem hexValue?_upperHexDigit : ∀ n < 16, hexValue? (upperHexDigit n) = some n := by
  decide

theorem charOfCode?_toNat (c : Char) : charOfCode? c.toNat = some c := by
  have hvalid : c.toNat.isValidChar := c.valid
  rw [charOfCode?, if_pos hvalid, Char.ofNat_toNat]

/-- What is no control is printable, the newline apart. -/
theorem isPrintable_of_not_isRawControl {c : Char} (hc : isRawControl c = false)
    (hnewline : c ≠ '\n') : isPrintable c = true := by
  simp only [isRawControl, Bool.or_eq_false_iff, Bool.and_eq_false_iff, bne_eq_false_iff_eq,
    decide_eq_false_iff_not, beq_eq_false_iff_ne] at hc
  simp only [isPrintable, Bool.or_eq_true, beq_iff_eq, Bool.and_eq_true, decide_eq_true_eq,
    bne_iff_ne]
  rcases hc.1 with (hlow | htab) | heq
  · exact .inr ⟨by omega, hc.2⟩
  · exact .inl htab
  · exact absurd heq hnewline

/-- How readers of basic strings take a character, and a backslash with what
belongs to it.  On several lines a newline may stand as it is. -/
structure ReadsBasic (onLines : Bool) (read : Within → Text → Found Text) : Prop where
  plain {c : Char} (hquote : c ≠ '"') (hbackslash : c ≠ '\\')
    (hc : isPrintable c = true ∨ onLines = true ∧ c = '\n') (rest : Text) :
    read .text (c :: rest) = (read .text rest).push c
  backslash (rest : Text) : read .text ('\\' :: rest) = read .escape rest
  letter {c e : Char} (hc : escapedChar? c = some e) (rest : Text) :
    read .escape (c :: rest) = (read .text rest).push e
  codeLetter {c : Char} {digits : Nat} (hnone : escapedChar? c = none)
    (hc : codeDigits? c = some digits) (rest : Text) :
    read .escape (c :: rest) = read (.code (digits - 1) 0) rest
  digit {c : Char} {digit more value : Nat} (hc : hexValue? c = some digit) (rest : Text) :
    read (.code (more + 1) value) (c :: rest) = read (.code more (16 * value + digit)) rest
  lastDigit {c e : Char} {digit value : Nat} (hc : hexValue? c = some digit)
    (he : charOfCode? (16 * value + digit) = some e) (rest : Text) :
    read (.code 0 value) (c :: rest) = (read .text rest).push e

theorem readsBasic_readBasic : ReadsBasic false readBasic where
  plain hquote hbackslash hc rest := by
    simp only [Bool.false_eq_true, false_and, or_false] at hc
    simp [readBasic, hquote, hbackslash, hc]
  backslash rest := by simp [readBasic]
  letter hc rest := by simp [readBasic, hc]
  codeLetter hnone hc rest := by simp [readBasic, hnone, hc]
  digit hc rest := by simp [readBasic, hc]
  lastDigit hc he rest := by simp [readBasic, hc, he]

theorem readsBasic_readBasicLines : ReadsBasic true readBasicLines where
  plain := by
    intro c hquote hbackslash hc rest
    have hatNewline : isPrintable c = true ∨ atNewline (c :: rest) = true := by
      rcases hc with hc | ⟨-, rfl⟩
      · exact .inl hc
      · exact .inr rfl
    simp [readBasicLines, closeTripled?_of_ne hquote, hbackslash, hatNewline]
  backslash rest := by simp [readBasicLines, closeTripled?_of_ne]
  letter hc rest := by simp [readBasicLines, hc]
  codeLetter hnone hc rest := by simp [readBasicLines, hnone, hc]
  digit hc rest := by simp [readBasicLines, hc]
  lastDigit hc he rest := by simp [readBasicLines, hc, he]

namespace ReadsBasic

variable {onLines : Bool} {read : Within → Text → Found Text}

/-- A control is read back from its code point. -/
theorem control (h : ReadsBasic onLines read) {c : Char} (hc : c.toNat < 0x100) (rest : Text) :
    read .text ('\\' :: 'u' :: '0' :: '0' :: upperHexDigit (c.toNat / 16) ::
      upperHexDigit (c.toNat % 16) :: rest) = (read .text rest).push c := by
  have hzero : hexValue? '0' = some 0 := rfl
  have hhigh := hexValue?_upperHexDigit (c.toNat / 16) (by omega)
  have hlow := hexValue?_upperHexDigit (c.toNat % 16) (by omega)
  have hvalue : charOfCode? (16 * (16 * (16 * (16 * 0 + 0) + 0) + c.toNat / 16) + c.toNat % 16) =
      some c := by
    rw [← charOfCode?_toNat c]
    congr 1
    omega
  rw [h.backslash, h.codeLetter rfl rfl, h.digit hzero, h.digit hzero, h.digit hhigh,
    h.lastDigit hlow hvalue]

/-- A character other than a quote is read back from how it stands in a string. -/
theorem escapeChar_append (h : ReadsBasic onLines read) {c : Char} (hquote : c ≠ '"')
    (rest : Text) : read .text (escapeChar onLines c ++ rest) = (read .text rest).push c := by
  have hletter : ∀ {letter e : Char}, escapedChar? letter = some e →
      read .text (['\\', letter] ++ rest) = (read .text rest).push e := by
    intro letter e he
    rw [List.cons_append, List.cons_append, List.nil_append, h.backslash, h.letter he]
  unfold escapeChar
  split
  · exact hletter rfl
  · exact hletter rfl
  · split
    · exact h.plain (by decide) (by decide) (.inr ⟨‹_›, rfl⟩) rest
    · exact hletter rfl
  · exact hletter rfl
  · exact hletter rfl
  · exact hletter rfl
  · rename_i hnewline _ _ hbackslash
    split
    · rename_i hcontrol
      apply h.control
      simp only [isRawControl, Bool.or_eq_true, Bool.and_eq_true, decide_eq_true_eq,
        beq_iff_eq] at hcontrol
      omega
    · rename_i hcontrol
      have hprintable := isPrintable_of_not_isRawControl (by simpa using hcontrol) hnewline
      exact h.plain hquote hbackslash (.inl hprintable) rest

end ReadsBasic

/-! ### Basic forms -/

section Escaping

variable {onLines : Bool} {quotes : Nat} {c : Char} {t rest : Text}

/-- A quote stands as it is while fewer than two stand in front of it. -/
theorem escapeBehind_quote (h : quotes < 2) (t : Text) :
    escapeBehind true quotes ('"' :: t) = '"' :: escapeBehind true (quotes + 1) t := by
  rw [escapeBehind, if_pos rfl, if_pos ⟨rfl, h⟩]

theorem escapeBehind_escaped (h : ¬ (onLines = true ∧ quotes < 2)) (t : Text) :
    escapeBehind onLines quotes ('"' :: t) = '\\' :: '"' :: escapeBehind onLines 0 t := by
  rw [escapeBehind, if_pos rfl, if_neg h]

theorem escapeBehind_other (h : c ≠ '"') (t : Text) :
    escapeBehind onLines quotes (c :: t) = escapeChar onLines c ++ escapeBehind onLines 0 t := by
  rw [escapeBehind, if_neg h]

/-- What stands for a character begins with a backslash, or is the character as it
is. -/
theorem escapeChar_cases (onLines : Bool) (c : Char) :
    (∃ others, escapeChar onLines c = '\\' :: others) ∨
      (escapeChar onLines c = [c] ∧ (c ≠ '\n' → isPrintable c = true)) := by
  unfold escapeChar
  split
  · exact .inl ⟨_, rfl⟩
  · exact .inl ⟨_, rfl⟩
  · split
    · exact .inr ⟨rfl, fun h => absurd rfl h⟩
    · exact .inl ⟨_, rfl⟩
  · exact .inl ⟨_, rfl⟩
  · exact .inl ⟨_, rfl⟩
  · exact .inl ⟨_, rfl⟩
  · split
    · exact .inl ⟨_, rfl⟩
    · rename_i hcontrol
      exact .inr ⟨rfl, isPrintable_of_not_isRawControl (by simpa using hcontrol)⟩

/-- What does not stand as a quote does not begin with one, and only a newline
begins with a control. -/
theorem exists_cons_of_escapeBehind (h : ¬ (c = '"' ∧ onLines = true ∧ quotes < 2)) (t : Text) :
    ∃ d others, escapeBehind onLines quotes (c :: t) = d :: others ∧ d ≠ '"' ∧
      (c ≠ '\n' → isPrintable d = true) := by
  by_cases hquote : c = '"'
  · subst hquote
    rw [escapeBehind_escaped fun hraw => h ⟨rfl, hraw⟩]
    exact ⟨'\\', _, rfl, by decide, fun _ => rfl⟩
  · rw [escapeBehind_other hquote]
    rcases escapeChar_cases onLines c with ⟨others, hescape⟩ | ⟨hescape, hprintable⟩
    · rw [hescape]
      exact ⟨'\\', _, rfl, by decide, fun _ => rfl⟩
    · rw [hescape]
      exact ⟨c, _, rfl, hquote, hprintable⟩

namespace ReadsBasic

variable {read : Within → Text → Found Text}

/-- A character that does not stand as a quote is read, and reading goes on behind
it. -/
theorem escapeBehind_append (h : ReadsBasic onLines read)
    (hescaped : ¬ (c = '"' ∧ onLines = true ∧ quotes < 2)) (t rest : Text) :
    read .text (escapeBehind onLines quotes (c :: t) ++ rest) =
      (read .text (escapeBehind onLines 0 t ++ rest)).push c := by
  by_cases hquote : c = '"'
  · subst hquote
    rw [escapeBehind_escaped fun hraw => hescaped ⟨rfl, hraw⟩, List.cons_append,
      List.cons_append, h.backslash, h.letter rfl]
  · rw [escapeBehind_other hquote, List.append_assoc, h.escapeChar_append hquote]

end ReadsBasic

theorem readBasic_escapeBehind (t rest : Text) :
    readBasic .text (escapeBehind false 0 t ++ '"' :: rest) = some (t, rest) := by
  induction t with
  | nil => simp [escapeBehind, readBasic]
  | cons c t ih =>
      rw [readsBasic_readBasic.escapeBehind_append (by simp), ih]
      rfl

/-- No more than two quotes stand in a row, those in front included. -/
theorem count_le_of_replicate_isPrefix {count : Nat} (hquotes : quotes ≤ 2)
    (h : List.replicate count '"' <+: escapeBehind true quotes t) : count + quotes ≤ 2 := by
  induction t generalizing count quotes with
  | nil =>
      obtain rfl : count = 0 := by simpa [escapeBehind] using h
      omega
  | cons c t ih =>
      cases count with
      | zero => omega
      | succ count =>
          rw [List.replicate_succ] at h
          by_cases hraw : c = '"' ∧ quotes < 2
          · obtain ⟨rfl, hfew⟩ := hraw
            rw [escapeBehind_quote hfew] at h
            have hmore := ih hfew (List.cons_prefix_cons.mp h).2
            omega
          · have hescaped : ¬ (c = '"' ∧ true = true ∧ quotes < 2) := by simpa using hraw
            obtain ⟨d, others, hwritten, hd, -⟩ := exists_cons_of_escapeBehind hescaped t
            rw [hwritten] at h
            exact absurd (List.cons_prefix_cons.mp h).1.symm hd

/-- Where nothing but quotes is written, there are at most two, and they are the
text. -/
theorem eq_replicate_of_quotes (hquotes : quotes ≤ 2)
    (h : ∀ d ∈ escapeBehind true quotes t, d = '"') :
    ∃ count ≤ 2, escapeBehind true quotes t = List.replicate count '"' ∧
      t = List.replicate count '"' := by
  have hwritten := List.eq_replicate_of_mem h
  have hall : List.replicate (escapeBehind true quotes t).length '"' <+:
      escapeBehind true quotes t :=
    ⟨[], by rw [List.append_nil, ← hwritten]⟩
  have hcount := count_le_of_replicate_isPrefix hquotes hall
  refine ⟨_, by omega, hwritten, ?_⟩
  clear hwritten hall hcount
  induction t generalizing quotes with
  | nil => rfl
  | cons c t ih =>
      by_cases hraw : c = '"' ∧ quotes < 2
      · obtain ⟨rfl, hfew⟩ := hraw
        rw [escapeBehind_quote hfew] at h ⊢
        rw [List.length_cons, List.replicate_succ, ← ih hfew (List.forall_mem_cons.mp h).2]
      · have hescaped : ¬ (c = '"' ∧ true = true ∧ quotes < 2) := by simpa using hraw
        obtain ⟨d, others, hwritten, hd, -⟩ := exists_cons_of_escapeBehind hescaped t
        rw [hwritten] at h
        exact absurd (List.forall_mem_cons.mp h).1 hd

theorem readBasicLines_of_closed {found : Text × Text}
    (h : closeTripled? '"' t = some found) : readBasicLines .text t = some found := by
  cases t with
  | nil => simp [closeTripled?] at h
  | cons c t => simp [readBasicLines, h]

theorem readBasicLines_quote (h : closeTripled? '"' ('"' :: t) = none) :
    readBasicLines .text ('"' :: t) = (readBasicLines .text t).push '"' := by
  simp [readBasicLines, h, isPrintable]

theorem readBasicLines_escapeBehind (hquotes : quotes ≤ 2) (t : Text)
    (hrest : rest.head? ≠ some '"') :
    readBasicLines .text (escapeBehind true quotes t ++ (List.replicate 3 '"' ++ rest)) =
      some (t, rest) := by
  induction t generalizing quotes with
  | nil =>
      apply readBasicLines_of_closed
      exact closeTripled?_replicate (Nat.zero_le 2) hrest
  | cons c t ih =>
      by_cases hraw : c = '"' ∧ quotes < 2
      · by_cases honly : ∀ d ∈ escapeBehind true quotes (c :: t), d = '"'
        · obtain ⟨count, hcount, hwritten, htext⟩ := eq_replicate_of_quotes hquotes honly
          have hclosed := closeTripled?_replicate hcount hrest
          rw [hwritten, htext, ← List.append_assoc]
          exact readBasicLines_of_closed hclosed
        · obtain ⟨rfl, hfew⟩ := hraw
          have hnone := closeTripled?_eq_none
            (fun hthree => absurd (count_le_of_replicate_isPrefix hquotes hthree) (by omega))
            (by simpa using honly) (List.replicate 3 '"' ++ rest)
          rw [escapeBehind_quote hfew, List.cons_append] at hnone ⊢
          rw [readBasicLines_quote hnone, ih hfew]
          rfl
      · rw [readsBasic_readBasicLines.escapeBehind_append (by simpa using hraw),
          ih (Nat.zero_le 2)]
        rfl

end Escaping

end SqlScript.Toml

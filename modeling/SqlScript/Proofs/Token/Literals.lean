/-
Quoted literals.  A literal holds any text, with every quote in it doubled between
two quotes, and is read back whatever follows it that is no further quote.  Where a
text begins with a quote but no literal stands at its front, the token is the whole
text.
-/
import SqlScript.Proofs.Token.Branching
import SqlScript.Proofs.Token.Next

namespace SqlScript.Token

open Reading

/-- A text with every `quote` in it written twice. -/
def doubled (quote : Char) (t : Text) : Text :=
  t.flatMap fun c => if c = quote then [quote, quote] else [c]

/-- The literal that holds a text. -/
def literal (quote : Char) (t : Text) : Text :=
  quote :: (doubled quote t ++ [quote])

@[simp] theorem doubled_nil (quote : Char) : doubled quote [] = [] := rfl

@[simp] theorem doubled_cons_quote (quote : Char) (t : Text) :
    doubled quote (quote :: t) = quote :: quote :: doubled quote t := by
  simp [doubled]

@[simp] theorem doubled_cons {quote c : Char} (h : c ≠ quote) (t : Text) :
    doubled quote (c :: t) = c :: doubled quote t := by
  simp [doubled, h]

variable {quote : Char} {rest : Text}

/-- A doubled text is read through the quote behind it, unless one more follows. -/
theorem value_readQuoted_doubled (hrest : rest.head? ≠ some quote) (t : Text) :
    (readQuoted quote (doubled quote t ++ quote :: rest)).value = doubled quote t ++ [quote] := by
  induction t with
  | nil =>
      cases rest with
      | nil => rfl
      | cons d rest =>
          have hd : d ≠ quote := fun heq => hrest (congrArg some heq)
          simp [readQuoted, hd]
  | cons c t ih =>
      by_cases hc : c = quote
      · subst hc
        simp [readQuoted, ih]
      · simp [hc, readQuoted_cons hc, ih]

/-- Reading behind a quote comes to the end of a doubled text, or to the end of
everything. -/
theorem exists_doubled_or_whole (quote : Char) (t : Text) :
    (∃ held rest, t = doubled quote held ++ quote :: rest ∧ rest.head? ≠ some quote) ∨
      (readQuoted quote t).value = t := by
  fun_induction readQuoted quote t with
  | case1 => exact .inr rfl
  | case2 c => exact .inr rfl
  | case3 t ih =>
      rcases ih with ⟨held, rest, rfl, hrest⟩ | hwhole
      · exact .inl ⟨quote :: held, rest, by simp, hrest⟩
      · exact .inr (by simp [hwhole])
  | case4 d t hd => exact .inl ⟨[], d :: t, rfl, by simp [hd]⟩
  | case5 c d t hc ih =>
      rcases ih with ⟨held, rest, hsplit, hrest⟩ | hwhole
      · exact .inl ⟨c :: held, rest, by simp [hc, hsplit], hrest⟩
      · exact .inr (by simp [hwhole])

theorem value_read_of_quote (hquote : quote = '\'' ∨ quote = '"') (t : Text) :
    (read quote t).value = .text (quote :: (readQuoted quote t).value) := by
  rw [read, if_pos hquote, value_map]

/-- A literal is the next token unless one more quote follows it. -/
theorem isNext_literal (hquote : quote = '\'' ∨ quote = '"') (hrest : rest.head? ≠ some quote)
    (held : Text) : IsNext (literal quote held ++ rest) (.text (literal quote held)) rest := by
  have hsplit : literal quote held ++ rest = quote :: (doubled quote held ++ quote :: rest) := by
    simp [literal]
  rw [hsplit]
  apply isNext_of_value _ hsplit
  rw [value_read_of_quote hquote, value_readQuoted_doubled hrest, literal]

/-- A literal is one token in front of everything that does not begin with its
quote.  A text that begins with a quote begins with such a literal, or else its token
is the whole text, and each literal at its front is followed by one more quote. -/
theorem isNext_of_quote {quote : Char} (hquote : quote = '\'' ∨ quote = '"') :
    (∀ held rest, rest.head? ≠ some quote →
        IsNext (literal quote held ++ rest) (.text (literal quote held)) rest) ∧
      ∀ t, t.head? = some quote →
        (∃ held rest, t = literal quote held ++ rest ∧ rest.head? ≠ some quote ∧
            IsNext t (.text (literal quote held)) rest) ∨
          IsNext t (.text t) [] ∧
            ∀ held rest, t = literal quote held ++ rest → rest.head? = some quote := by
  refine ⟨fun held rest hrest => isNext_literal hquote hrest held, fun t ht => ?_⟩
  obtain ⟨t, rfl⟩ := List.head?_eq_some_iff.mp ht
  -- Wherever some literal closes at the front, it is the token.
  by_cases hfront : ∃ held rest, quote :: t = literal quote held ++ rest ∧ rest.head? ≠ some quote
  · obtain ⟨held, rest, hsplit, hrest⟩ := hfront
    refine .inl ⟨held, rest, hsplit, hrest, ?_⟩
    rw [hsplit]
    exact isNext_literal hquote hrest held
  · have hfollowed : ∀ held rest, quote :: t = literal quote held ++ rest →
        rest.head? = some quote := by
      intro held rest hsplit
      apply Decidable.byContradiction
      intro hrest
      exact hfront ⟨held, rest, hsplit, hrest⟩
    refine .inr ⟨?_, hfollowed⟩
    rcases exists_doubled_or_whole quote t with ⟨held, rest, rfl, hrest⟩ | hwhole
    · exact absurd (hfollowed held rest (by simp [literal])) hrest
    · apply isNext_of_value
      · rw [value_read_of_quote hquote, hwhole]
      · exact List.append_nil _

/-- Quotes at both ends of what a literal holds count, and a quote behind a literal
that ends the text leaves it open. -/
theorem isNext_of_quote_runs :
    let script := "'''it''s--;'''''x'".toList
    let unclosed := "\"a\"\"".toList
    ('\'' = '\'' ∨ '\'' = '"') ∧ ('"' = '\'' ∨ '"' = '"') ∧
      ("x'".toList.head? ≠ some '\'' ∧ unclosed.head? = some '"') ∧
      IsNext script (.text "'''it''s--;'''''".toList) "x'".toList ∧
        IsNext unclosed (.text unclosed) [] := by
  intro script unclosed
  have hscript : "x'".toList.head? ≠ some '\'' := by decide
  have hunclosed : unclosed.head? = some '"' := by decide
  refine ⟨.inl rfl, .inr rfl, ⟨hscript, hunclosed⟩, ?_, ?_⟩
  · exact (isNext_of_quote (.inl rfl)).1 "'it's--;''".toList "x'".toList hscript
  · have hlex : lex unclosed = [.text unclosed] := by decide +kernel
    rcases (isNext_of_quote (.inr rfl)).2 unclosed hunclosed with hclosed | ⟨hnext, -⟩
    · obtain ⟨held, rest, -, -, hnext⟩ := hclosed
      obtain ⟨htoken, -⟩ := List.cons.inj (hnext.lex.symm.trans hlex)
      rw [htoken] at hnext
      have hrest : rest = [] := by simpa using hnext.split
      rwa [hrest] at hnext
    · exact hnext

end SqlScript.Token

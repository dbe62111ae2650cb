/-
Reading character by character comes to what is read from the front of a text.
A reader that is done before the text ends brings back the settled reading.  One
that runs into what stands behind the text brings back the reading that is cut
short when that is the end of input, and the error when it is one.
-/
import SqlScript.Cursor.Pulling
import SqlScript.Proofs.Reading.Extent
import SqlScript.Proofs.Token.Branching

namespace SqlScript

/-- What stands behind a readable text: what is ahead of a cursor when no
character can be taken. -/
structure Stop where
  ahead : List (Except ReadError Char)
  ending : Ending
  noText : textBefore ahead = []

namespace Stop

/-- A cursor in front of the text `t`, with `position` characters taken. -/
def behind (stop : Stop) (t : Text) (position : Nat) : Cursor :=
  ⟨t.map .ok ++ stop.ahead, stop.ending, position⟩

/-- What a reader meets behind the text, unless that is the end of input. -/
def error? (stop : Stop) : Option ReadError :=
  (firstError? stop.ahead).or stop.ending.error?

/-- Nothing but the end of input stands behind the text. -/
def endOfInput : Stop :=
  ⟨[], .endOfInput, rfl⟩

@[simp] theorem error?_endOfInput : endOfInput.error? = none := rfl

/-- The cursor behind the error that was met. -/
def passed (stop : Stop) (position : Nat) : Cursor :=
  ⟨stop.ahead.tail, stop.ending, position⟩

/-- What a cursor answers at the end of the text. -/
def answer (stop : Stop) (position : Nat) : Pulled (Option Char) :=
  match stop.error? with
  | none => (.ok none, stop.behind [] position)
  | some e => (.error e, stop.passed position)

variable (stop : Stop) (position : Nat)

theorem next_behind_nil : (stop.behind [] position).next = stop.answer position := by
  rcases stop with ⟨ahead, ending, noText⟩
  cases ahead with
  | nil => cases ending <;> rfl
  | cons result others =>
      cases result with
      | ok c => exact absurd noText (List.cons_ne_nil c _)
      | error e => rfl

theorem peek_behind_nil : (stop.behind [] position).peek = stop.answer position := by
  rcases stop with ⟨ahead, ending, noText⟩
  cases ahead with
  | nil => cases ending <;> rfl
  | cons result others =>
      cases result with
      | ok c => exact absurd noText (List.cons_ne_nil c _)
      | error e => rfl

theorem nextIf_behind_nil (p : Char → Bool) :
    (stop.behind [] position).nextIf p = stop.answer position := by
  rw [Cursor.nextIf, peek_behind_nil, answer]
  cases stop.error? <;> rfl

theorem nextIf_behind_cons (p : Char → Bool) (c : Char) (t : Text) :
    (stop.behind (c :: t) position).nextIf p =
      if p c then (.ok (some c), stop.behind t (position + 1))
      else (.ok none, stop.behind (c :: t) position) := rfl

@[simp] theorem next_behind_cons (c : Char) (t : Text) :
    (stop.behind (c :: t) position).next = (.ok (some c), stop.behind t (position + 1)) := rfl

@[simp] theorem peek_behind_cons (c : Char) (t : Text) :
    (stop.behind (c :: t) position).peek = (.ok (some c), stop.behind (c :: t) position) := rfl

end Stop

/-- A reader in front of a text, `total` being the position behind it, does what
a reading of the text tells. -/
inductive Pulls {α : Type} (stop : Stop) (total : Nat) : Pulled α → Reading α → Prop where
  | settled (a : α) {rest : Text} {position : Nat} (h : position + rest.length = total) :
      Pulls stop total (.ok a, stop.behind rest position) (.settled a rest)
  | ended (a : α) (h : stop.error? = none) :
      Pulls stop total (.ok a, stop.behind [] total) (.cutShort a)
  | failed (a : α) {e : ReadError} (h : stop.error? = some e) :
      Pulls stop total (.error e, stop.passed total) (.cutShort a)

namespace Pulls

variable {α β : Type} {stop : Stop} {total : Nat} {pulled : Pulled α} {reading : Reading α}

theorem map (f : α → β) (h : Pulls stop total pulled reading) :
    Pulls stop total (Pulled.map f pulled) (reading.map f) := by
  cases h with
  | settled a hrest => exact .settled (f a) hrest
  | ended a hstop => exact .ended (f a) hstop
  | failed a hstop => exact .failed (f a) hstop

/-- Reading on behind a reader.  Where the first reading is settled there may be
text left; where it was cut short there is none, and only the end of input lets
the second reader come to an answer. -/
theorem andThen {next : α → Cursor → Pulled β} {next' : α → Text → Reading β}
    (h : Pulls stop total pulled reading)
    (hsettled : ∀ a rest position, reading = .settled a rest → position + rest.length = total →
      Pulls stop total (next a (stop.behind rest position)) (next' a rest))
    (hended : ∀ a, stop.error? = none →
      next a (stop.behind [] total) = (.ok (next' a []).value, stop.behind [] total)) :
    Pulls stop total (pulled.andThen next) (reading.andThen next') := by
  cases h with
  | settled a hrest => exact hsettled a _ _ rfl hrest
  | ended a hstop =>
      rw [Pulled.andThen, hended a hstop]
      exact .ended _ hstop
  | failed a hstop => exact .failed _ hstop

/-- A reading and what stands behind the text leave a reader no choice. -/
theorem unique {other : Pulled α} (h : Pulls stop total pulled reading)
    (hother : Pulls stop total other reading) : pulled = other := by
  cases h with
  | settled a htotal =>
      cases hother with
      | settled _ hsame => rw [Nat.add_right_cancel (htotal.trans hsame.symm)]
  | ended a hstop =>
      cases hother with
      | ended _ _ => rfl
      | failed _ hfailed => exact absurd (hstop.symm.trans hfailed) (by simp)
  | failed a hstop =>
      cases hother with
      | ended _ hended => exact absurd (hstop.symm.trans hended) (by simp)
      | failed _ hsame => rw [Option.some.inj (hstop.symm.trans hsame)]

/-- A reader that leaves nothing comes to an answer at the end of input. -/
theorem eq_of_ended (h : Pulls stop total pulled reading) (hstop : stop.error? = none)
    (hrest : reading.rest = []) : pulled = (.ok reading.value, stop.behind [] total) := by
  cases h with
  | settled a htotal =>
      obtain rfl : _ = [] := hrest
      rw [← htotal]
      rfl
  | ended a _ => rfl
  | failed a hfailed => exact absurd (hstop.symm.trans hfailed) (by simp)

/-- A reader that comes to an answer brings back what was read. -/
theorem eq_value {a : α} {cursor : Cursor} (h : Pulls stop total (.ok a, cursor) reading) :
    a = reading.value := by
  cases h <;> rfl

/-- A reader that comes to an answer has taken just what the reading took. -/
theorem eq_of_ok {lexeme : α → Text} {t : Text} {position : Nat} {a : α} {cursor : Cursor}
    (h : Pulls stop (position + t.length) (.ok a, cursor) reading)
    (hsplit : reading.Partitions lexeme t) :
    a = reading.value ∧ cursor = stop.behind reading.rest (position + (lexeme a).length) := by
  have hlength := congrArg List.length hsplit
  rw [List.length_append] at hlength
  cases h with
  | settled _ htotal =>
      rw [← hlength, ← Nat.add_assoc] at htotal
      exact ⟨rfl, by rw [Nat.add_right_cancel htotal]; rfl⟩
  | ended _ _ => exact ⟨rfl, by rw [← hlength]; rfl⟩

/-- In front of a text and the end of input, a reader comes to the reading. -/
theorem eq_of_no_error {lexeme : α → Text} {t : Text} {position : Nat}
    (h : Pulls stop (position + t.length) pulled reading)
    (hsplit : reading.Partitions lexeme t) (hstop : stop.error? = none) :
    pulled =
      (.ok reading.value,
        stop.behind reading.rest (position + (lexeme reading.value).length)) := by
  obtain ⟨answer, cursor⟩ := pulled
  cases answer with
  | ok a =>
      obtain ⟨rfl, rfl⟩ := h.eq_of_ok hsplit
      rfl
  | error e =>
      cases h with
      | failed a hfailed => exact absurd (hstop.symm.trans hfailed) (by simp)

/-- A reader that meets the end of the text before it is done. -/
theorem atEnd (a : α) (stop : Stop) (total : Nat) :
    Pulls stop total (Pulled.map (fun _ => a) (stop.answer total)) (.cutShort a) := by
  rw [Stop.answer]
  cases hstop : stop.error? with
  | none => exact .ended a hstop
  | some e => exact .failed a hstop

end Pulls

namespace Stop

variable (stop : Stop)

theorem position_add_length_cons (position : Nat) (c : Char) (t : Text) :
    position + (c :: t).length = position + 1 + t.length := by
  rw [List.length_cons, Nat.add_right_comm, Nat.add_assoc]

theorem pullThrough_behind (p : Char → Bool) (t : Text) (position : Nat) :
    Pulls stop (position + t.length) ((stop.behind t position).pullThrough p)
      (Reading.takeThrough p t) := by
  induction t generalizing position with
  | nil =>
      have hend : (stop.behind [] position).pullThrough p =
          Pulled.map (fun _ => []) (stop.answer position) := by
        rw [Cursor.pullThrough_eq, next_behind_nil, answer]
        cases stop.error? <;> rfl
      rw [hend]
      exact .atEnd [] stop position
  | cons c t ih =>
      rw [Cursor.pullThrough_eq, next_behind_cons, Reading.takeThrough, position_add_length_cons]
      simp only
      split
      · exact .settled [c] rfl
      · exact (ih (position + 1)).map (c :: ·)

theorem pullRun_behind (p : Char → Bool) (t : Text) (position : Nat) :
    Pulls stop (position + t.length) ((stop.behind t position).pullRun p)
      (Reading.takeRun p t) := by
  induction t generalizing position with
  | nil =>
      have hend : (stop.behind [] position).pullRun p =
          Pulled.map (fun _ => []) (stop.answer position) := by
        rw [Cursor.pullRun_eq, nextIf_behind_nil, answer]
        cases stop.error? <;> rfl
      rw [hend]
      exact .atEnd [] stop position
  | cons c t ih =>
      rw [Cursor.pullRun_eq, nextIf_behind_cons, Reading.takeRun]
      by_cases hc : p c = true
      · simp only [if_pos hc]
        rw [position_add_length_cons]
        exact (ih (position + 1)).map (c :: ·)
      · simp only [if_neg hc]
        exact .settled [] rfl

theorem pullQuoted_behind_nil (quote : Char) (position : Nat) :
    (stop.behind [] position).pullQuoted quote =
      Pulled.map (fun _ => []) (stop.answer position) := by
  rw [Cursor.pullQuoted_eq, next_behind_nil, answer]
  cases stop.error? <;> rfl

theorem pullQuoted_behind (quote : Char) (t : Text) (position : Nat) :
    Pulls stop (position + t.length) ((stop.behind t position).pullQuoted quote)
      (Token.readQuoted quote t) := by
  fun_induction Token.readQuoted quote t generalizing position with
  | case1 =>
      rw [pullQuoted_behind_nil]
      exact .atEnd [] stop position
  | case2 c =>
      have hend : (stop.behind [c] position).pullQuoted quote =
          Pulled.map (fun _ => [c]) (stop.answer (position + 1)) := by
        rw [Cursor.pullQuoted_eq, next_behind_cons]
        simp only [nextIf_behind_nil, pullQuoted_behind_nil, answer]
        cases stop.error? <;> simp [Pulled.map, Except.map]
      rw [hend]
      exact .atEnd [c] stop (position + 1)
  | case3 rest ih =>
      rw [Cursor.pullQuoted_eq, next_behind_cons, position_add_length_cons,
        position_add_length_cons]
      simp only [nextIf_behind_cons, beq_self_eq_true, if_true]
      exact (ih (position + 1 + 1)).map (quote :: quote :: ·)
  | case4 d rest hd =>
      rw [Cursor.pullQuoted_eq, next_behind_cons, position_add_length_cons]
      simp only [nextIf_behind_cons, beq_iff_eq, if_neg hd, if_true]
      exact .settled [quote] rfl
  | case5 c d rest hc ih =>
      rw [Cursor.pullQuoted_eq, next_behind_cons, position_add_length_cons]
      simp only [if_neg hc]
      exact (ih (position + 1)).map (c :: ·)

theorem pullComment_behind_nil (position : Nat) :
    (stop.behind [] position).pullComment =
      Pulled.map (fun _ => []) (stop.answer position) := by
  rw [Cursor.pullComment_eq, next_behind_nil, answer]
  cases stop.error? <;> rfl

theorem pullComment_behind (t : Text) (position : Nat) :
    Pulls stop (position + t.length) (stop.behind t position).pullComment
      (Token.readBlockComment t) := by
  rw [Token.readBlockComment]
  induction t generalizing position with
  | nil =>
      rw [pullComment_behind_nil]
      exact .atEnd [] stop position
  | cons c t ih =>
      have hmore := (ih (position + 1)).map (c :: ·)
      rw [Cursor.pullComment_eq, next_behind_cons, position_add_length_cons,
        Reading.takeThroughMark]
      simp only
      by_cases hstar : c = '*'
      · subst hstar
        rw [if_pos rfl]
        cases t with
        | nil =>
            rw [nextIf_behind_nil, answer]
            cases hstop : stop.error? with
            | none =>
                simp only [pullComment_behind_nil, answer, hstop]
                exact .ended ['*'] hstop
            | some e => exact .failed ['*'] hstop
        | cons d t =>
            rw [nextIf_behind_cons]
            by_cases hslash : d = '/'
            · subst hslash
              exact .settled ['*', '/'] (position_add_length_cons (position + 1) '/' t).symm
            · have hopen : ¬ ['*', '/'].isPrefixOf ('*' :: d :: t) = true := by
                simp [List.isPrefixOf, Ne.symm hslash]
              simp only [beq_iff_eq, if_neg hslash, if_neg hopen]
              exact hmore
      · have hopen : ¬ ['*', '/'].isPrefixOf (c :: t) = true := by
          simp [List.isPrefixOf, Ne.symm hstar]
        simp only [if_neg hstar, if_neg hopen]
        exact hmore

/-- The mark ends for the first time where the characters taken so far first end
with it. -/
theorem pullUntil_behind {mark seen : Text}
    (hseen : ∀ front, front <+: seen.reverse → ¬ mark <:+ front) (t : Text) (position : Nat) :
    Pulls stop (position + t.length) ((stop.behind t position).pullUntil mark seen)
      (Reading.takeThroughMark mark (seen.reverse ++ t)) := by
  induction t generalizing seen position with
  | nil =>
      have hend : (stop.behind [] position).pullUntil mark seen =
          Pulled.map (fun _ => seen.reverse) (stop.answer position) := by
        rw [Cursor.pullUntil_eq, next_behind_nil, answer]
        cases stop.error? <;> rfl
      rw [hend, List.append_nil, Reading.takeThroughMark_eq_cutShort hseen]
      exact .atEnd seen.reverse stop position
  | cons c t ih =>
      have hwhole : seen.reverse ++ c :: t = (c :: seen).reverse ++ t := by simp
      have hshort : ∀ front, front <+: (c :: seen).reverse → front ≠ (c :: seen).reverse →
          ¬ mark <:+ front := by
        intro front hfront hne
        rw [List.reverse_cons] at hfront hne
        rcases List.prefix_concat_iff.mp hfront with heq | hbefore
        · exact absurd heq hne
        · exact hseen front hbefore
      rw [Cursor.pullUntil_eq, next_behind_cons, position_add_length_cons, hwhole]
      simp only
      split
      · rename_i hmark
        have hends : mark <:+ (c :: seen).reverse :=
          List.reverse_prefix.mp (by simpa using hmark)
        rw [Reading.takeThroughMark_append (by simp) hends hshort]
        exact .settled _ rfl
      · rename_i hmark
        apply ih
        intro front hfront hends
        have heq : front = (c :: seen).reverse :=
          Classical.byContradiction fun hne => hshort front hfront hne hends
        rw [heq, ← List.reverse_prefix, List.reverse_reverse] at hends
        exact hmark (List.isPrefixOf_iff_prefix.mpr hends)

theorem pullDirective_behind (keyword t : Text) (position : Nat) :
    Pulls stop (position + t.length) ((stop.behind t position).pullDirective keyword none)
      (Directive.read keyword t) :=
  Pulls.map (Directive.mk keyword) (stop.pullThrough_behind Directive.endsDirective t position)

/-- It makes no difference whether the first character behind the keyword was
taken before. -/
theorem pullDirective_behind_lead (keyword : Text) (c : Char) (t : Text) (position : Nat) :
    Pulls stop (position + t.length) ((stop.behind t position).pullDirective keyword (some c))
      (Directive.read keyword (c :: t)) := by
  have hmore := stop.pullThrough_behind Directive.endsDirective t position
  rw [Cursor.pullDirective, Directive.read, Reading.takeThrough]
  split
  · exact .settled _ rfl
  · rw [Reading.map_map]
    exact hmore.map fun tail => Directive.mk keyword (c :: tail)

theorem pullBehindDollar_behind {otherwise : Token} {next : Cursor → Pulled Token}
    {inner : Text → Reading Token} {rest : Text} (hne : rest ≠ [])
    (h : ∀ t position, Pulls stop (position + t.length) (next (stop.behind t position)) (inner t))
    (position : Nat) :
    Pulls stop (position + rest.length)
      ((stop.behind rest position).pullBehindDollar otherwise next)
      (Token.behindDollar otherwise inner rest) := by
  have hbranches := Token.behindDollar_branches otherwise inner
  obtain ⟨c, t, rfl⟩ := List.exists_cons_of_ne_nil hne
  rw [Cursor.pullBehindDollar, nextIf_behind_cons]
  by_cases hc : c = '$'
  · subst hc
    rw [hbranches.on_lead, position_add_length_cons]
    exact h t (position + 1)
  · rw [hbranches.on_other c t hc, if_neg (by simpa using hc)]
    exact .settled otherwise rfl

theorem pullBehindDollar_behind_nil {otherwise : Token} {next : Cursor → Pulled Token}
    (h : stop.error? = none) (position : Nat) :
    (stop.behind [] position).pullBehindDollar otherwise next =
      (.ok otherwise, stop.behind [] position) := by
  rw [Cursor.pullBehindDollar, nextIf_behind_nil, answer, h]
  rfl

theorem pullTagged_behind (lead tag t : Text) (position : Nat) :
    Pulls stop (position + t.length) ((stop.behind t position).pullTagged lead tag)
      (Token.readTagged lead tag t) := by
  have hseen : ∀ front, front <+: ([] : Text).reverse → ¬ '$' :: tag ++ ['$'] <:+ front := by
    intro front hfront hmark
    obtain rfl := List.prefix_nil.mp hfront
    exact absurd (List.suffix_nil.mp hmark) (by simp)
  exact (stop.pullUntil_behind hseen t position).map
    fun body => Token.text (lead ++ '$' :: tag ++ '$' :: body)

theorem pullTag_behind (lead t : Text) (position : Nat) :
    Pulls stop (position + t.length) ((stop.behind t position).pullTag lead)
      (Token.readTag lead t) := by
  rw [Token.readTag_eq]
  apply (stop.pullRun_behind Text.isWordChar t position).andThen
  · intro tag rest position hread htotal
    rw [← htotal]
    have hne := Reading.rest_ne_nil_of_takeRun hread
    exact stop.pullBehindDollar_behind hne (stop.pullTagged_behind lead tag) position
  · intro tag hstop
    exact stop.pullBehindDollar_behind_nil hstop _

theorem pullBody_behind (word t : Text) (position : Nat) :
    Pulls stop (position + t.length) ((stop.behind t position).pullBody word)
      (Token.readBody word t) := by
  rw [Token.readBody_eq]
  apply (stop.pullRun_behind Text.isBlank t position).andThen
  · intro blanks rest position hread htotal
    rw [← htotal]
    have hne := Reading.rest_ne_nil_of_takeRun hread
    exact stop.pullBehindDollar_behind hne (stop.pullTag_behind (word ++ blanks)) position
  · intro blanks hstop
    exact stop.pullBehindDollar_behind_nil hstop _

theorem pullBehindWord_behind (word t : Text) (position : Nat) :
    Pulls stop (position + t.length) ((stop.behind t position).pullBehindWord word)
      (Token.readBehindWord word t) := by
  rw [Cursor.pullBehindWord, Token.readBehindWord]
  cases Keyword.ofWord? word with
  | none => exact .settled _ rfl
  | some keyword =>
      cases keyword with
      | blockBegin => exact .settled _ rfl
      | blockEnd => exact .settled _ rfl
      | delimiter => exact (stop.pullDirective_behind word t position).map Token.directive
      | bodyAs => exact stop.pullBody_behind word t position

/-- Looking at one character decides how a token goes on. -/
theorem branch_behind {lead : Char} {inner read : Text → Reading Token} {token : Token}
    {next : Cursor → Pulled Token} (hread : Reading.BranchesAt lead inner token read)
    (hnil : read [] = .cutShort token)
    (hlead : ∀ t position, Pulls stop (position + (lead :: t).length)
      (next (stop.behind (lead :: t) position)) (inner t))
    (t : Text) (position : Nat) :
    Pulls stop (position + t.length)
      (Pulled.andThen (stop.behind t position).peek fun found cursor =>
        if found = some lead then next cursor else (.ok token, cursor))
      (read t) := by
  cases t with
  | nil =>
      rw [hnil, peek_behind_nil, answer]
      cases hstop : stop.error? with
      | none => exact .ended token hstop
      | some e => exact .failed token hstop
  | cons c t =>
      rw [peek_behind_cons, Pulled.andThen]
      by_cases hc : c = lead
      · subst hc
        rw [hread.on_lead, if_pos rfl]
        exact hlead t position
      · rw [hread.on_other c t hc, if_neg (by simpa using hc)]
        exact .settled token rfl

theorem pullDash_behind (t : Text) (position : Nat) :
    Pulls stop (position + t.length) ((stop.behind t position).pullBehind '-')
      (Token.readDash t) := by
  rw [Cursor.pullBehind, if_neg (by decide), if_pos rfl]
  apply stop.branch_behind Token.readDash_branches rfl
  intro t position
  have hread := (stop.pullThrough_behind (· == '\n') ('-' :: t) position).map
    fun body => Token.text ('-' :: body)
  rw [Reading.takeThrough, if_neg (by decide), Reading.map_map] at hread
  exact hread

theorem pullSlash_behind (t : Text) (position : Nat) :
    Pulls stop (position + t.length) ((stop.behind t position).pullBehind '/')
      (Token.readSlash t) := by
  rw [Cursor.pullBehind, if_neg (by decide), if_neg (by decide), if_pos rfl]
  apply stop.branch_behind Token.readSlash_branches rfl
  intro t position
  rw [position_add_length_cons]
  exact (stop.pullComment_behind t (position + 1)).map
    fun body => Token.text ('/' :: '*' :: body)

/-- A token is taken character by character as it is read from a text. -/
theorem pullBehind_behind (c : Char) (t : Text) (position : Nat) :
    Pulls stop (position + t.length) ((stop.behind t position).pullBehind c)
      (Token.read c t) := by
  by_cases hdash : c = '-'
  · subst hdash
    exact stop.pullDash_behind t position
  by_cases hslash : c = '/'
  · subst hslash
    exact stop.pullSlash_behind t position
  rw [Cursor.pullBehind, Token.read, if_neg hdash, if_neg hdash, if_neg hslash, if_neg hslash]
  by_cases hquote : c = '\'' ∨ c = '"'
  · rw [if_pos hquote, if_pos hquote]
    exact (stop.pullQuoted_behind c t position).map fun body => Token.text (c :: body)
  rw [if_neg hquote, if_neg hquote]
  by_cases hend : c = ';'
  · rw [if_pos hend, if_pos hend]
    exact .settled _ rfl
  rw [if_neg hend, if_neg hend]
  by_cases hword : Text.isWordStart c = true
  · rw [if_pos hword, if_pos hword]
    apply (stop.pullRun_behind Text.isWordChar t position).andThen
    · intro run rest position hread htotal
      rw [← htotal]
      exact stop.pullBehindWord_behind (c :: run) rest position
    · intro run hstop
      have hread := stop.pullBehindWord_behind (c :: run) [] (position + t.length)
      exact hread.eq_of_ended hstop (Token.rest_readBehindWord_nil (c :: run))
  · rw [if_neg hword, if_neg hword]
    exact .settled _ rfl

@[simp] theorem textBefore_behind (t : Text) (position : Nat) :
    textBefore (stop.behind t position).ahead = t := by
  induction t with
  | nil => exact stop.noText
  | cons c t ih => exact congrArg (c :: ·) ih

theorem advance_behind (taken rest : Text) (position : Nat) :
    (stop.behind (taken ++ rest) position).advance taken.length =
      stop.behind rest (position + taken.length) := by
  let deliver : Char → Except ReadError Char := .ok
  have hdrop : (taken.map deliver ++ (rest.map deliver ++ stop.ahead)).drop taken.length =
      rest.map deliver ++ stop.ahead := by
    rw [← List.length_map deliver, List.drop_left]
  simp only [Cursor.advance, behind, List.map_append, List.append_assoc]
  rw [hdrop]

theorem pullToken_behind_cons (c : Char) (t : Text) (position : Nat) :
    Pulls stop (position + (c :: t).length) (stop.behind (c :: t) position).pullToken
      ((Token.read c t).map some) := by
  rw [position_add_length_cons]
  exact (stop.pullBehind_behind c t (position + 1)).map some

theorem nextToken_behind_cons (c : Char) (t : Text) (position : Nat) :
    Pulls stop (position + (c :: t).length) (stop.behind (c :: t) position).nextToken
      ((Token.read c t).map some) := by
  have hsplit := Token.read_partitions c t
  rw [Cursor.nextToken, textBefore_behind]
  simp only
  cases hread : Token.read c t with
  | settled token rest =>
      rw [hread] at hsplit
      have hwhole : token.lexeme ++ rest = c :: t := hsplit
      rw [← hwhole]
      simp only [advance_behind]
      apply Pulls.settled
      rw [List.length_append, Nat.add_assoc]
  | cutShort token =>
      have hadvance := stop.advance_behind (c :: t) [] position
      rw [List.append_nil] at hadvance
      simp only [hadvance, peek_behind_nil]
      exact .atEnd (some token) stop (position + (c :: t).length)

end Stop

namespace Cursor

/-- Every cursor stands in front of a text and of what stops the reading of it. -/
theorem exists_eq_behind (cursor : Cursor) :
    ∃ (stop : Stop) (t : Text), cursor = stop.behind t cursor.position := by
  rcases cursor with ⟨ahead, ending, position⟩
  induction ahead with
  | nil => exact ⟨⟨[], ending, rfl⟩, [], rfl⟩
  | cons result others ih =>
      cases result with
      | ok c =>
          obtain ⟨stop, t, heq⟩ := ih
          obtain ⟨rfl, rfl, -⟩ := Cursor.mk.inj heq
          exact ⟨stop, c :: t, rfl⟩
      | error e => exact ⟨⟨.error e :: others, ending, rfl⟩, [], rfl⟩

/-- Taking a token character by character comes to the token that is read from
the text ahead, and leaves the cursor at the same place, also when an error is
met. -/
theorem pullToken_eq_nextToken (cursor : Cursor) : cursor.pullToken = cursor.nextToken := by
  obtain ⟨stop, t, hcursor⟩ := cursor.exists_eq_behind
  rw [hcursor]
  cases t with
  | nil =>
      rw [pullToken, nextToken, Stop.textBefore_behind, Stop.next_behind_nil, Stop.answer]
      cases stop.error? <;> rfl
  | cons c t =>
      exact (stop.pullToken_behind_cons c t _).unique (stop.nextToken_behind_cons c t _)

end Cursor

end SqlScript

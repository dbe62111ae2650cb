/-
Custom delimiters carry any statements.  A script that names a delimiter and
puts it behind each of some texts is split into just these texts, whatever is
quoted, commented or opened in them, as long as the delimiter does not occur too
early and nothing in them reads as a directive.
-/
import SqlScript.Proofs.Event.Scanning
import SqlScript.Proofs.Splitter.Concatenation
import SqlScript.Proofs.Text.Trim
import SqlScript.Proofs.Token.Directives

namespace SqlScript

namespace Directive

/-- The keyword of a directive in capitals. -/
def capitals : Text :=
  ['D', 'E', 'L', 'I', 'M', 'I', 'T', 'E', 'R']

/-- The keyword of a directive stands `n` characters into a text, where it may
stand, and a boundary follows it. -/
def OpensAt (t : Text) (n : Nat) : Prop :=
  IsKeyword ((t.drop n).take capitals.length) ∧ MayFollow (t.take n) ∧
    ∃ c ∈ (t.drop (n + capitals.length)).head?, IsBoundary c

instance (t : Text) (n : Nat) : Decidable (OpensAt t n) :=
  let : Decidable (∃ c ∈ (t.drop (n + capitals.length)).head?, IsBoundary c) :=
    Option.decidableExistsMem _
  inferInstanceAs (Decidable ((_ = _) ∧ MayFollow (t.take n) ∧ _))

theorem isKeyword_capitals : IsKeyword capitals := by
  rw [IsKeyword]
  decide

theorem opensAt_of_split {before word : Text} {next : Char} (hkeyword : IsKeyword word)
    (hfollows : MayFollow before) (hnext : IsBoundary next) (more : Text) :
    OpensAt (before ++ (word ++ next :: more)) before.length := by
  have hlength : word.length = capitals.length := length_of_isKeyword hkeyword
  refine ⟨?_, ?_, next, ?_, hnext⟩
  · rwa [List.drop_left, List.take_left' hlength]
  · rwa [List.take_left]
  · rw [← List.drop_drop, List.drop_left, List.drop_left' hlength]
    rfl

/-- A line behind a keyword is its tail. -/
theorem read_line {keyword body : Text} {stop : Char}
    (hbody : ∀ c ∈ body, endsDirective c = false) (hstop : endsDirective stop = true)
    (rest : Text) :
    read keyword (body ++ stop :: rest) = .settled ⟨keyword, body ++ [stop]⟩ rest := by
  rw [read, Reading.takeThrough_append_cons hbody hstop]
  rfl

end Directive

/-- A text that a directive can set as the delimiter, and that no semicolon is
part of. -/
structure CustomDelimiter (d : Text) : Prop where
  ne_nil : d ≠ []
  trimmed : Text.Trimmed d
  no_newline : '\n' ∉ d
  no_semicolon : ';' ∉ d

/-- A text that the delimiter `d` can carry: it is not blank, `d` does not occur
in the text and `d` before their end, and nothing in them opens a directive. -/
structure Carried (d s : Text) : Prop where
  not_blank : Text.allBlank s = false
  first : ∀ n < s.length, ¬ d <+: (s ++ d).drop n
  no_directive : ∀ n < (s ++ d).length, ¬ Directive.OpensAt (s ++ d) n

instance (d : Text) : Decidable (CustomDelimiter d) :=
  decidable_of_iff (d ≠ [] ∧ Text.Trimmed d ∧ '\n' ∉ d ∧ ';' ∉ d)
    ⟨fun ⟨hne, htrimmed, hnewline, hsemicolon⟩ => ⟨hne, htrimmed, hnewline, hsemicolon⟩,
      fun h => ⟨h.ne_nil, h.trimmed, h.no_newline, h.no_semicolon⟩⟩

instance (d s : Text) : Decidable (Carried d s) :=
  decidable_of_iff (Text.allBlank s = false ∧ (∀ n < s.length, ¬ d <+: (s ++ d).drop n) ∧
      ∀ n < (s ++ d).length, ¬ Directive.OpensAt (s ++ d) n)
    ⟨fun ⟨hblank, hfirst, hdirective⟩ => ⟨hblank, hfirst, hdirective⟩,
      fun h => ⟨h.not_blank, h.first, h.no_directive⟩⟩

/-- A script that sets the delimiter `d` and puts it behind each of some texts. -/
def scriptUnder (d : Text) (texts : List Text) : Text :=
  Directive.capitals ++ ' ' :: d ++ '\n' :: texts.flatMap (· ++ d)

namespace Token

open Reading

/-- The directive on the first line of a text. -/
theorem read_capitals {argument : Text} {stop : Char}
    (hargument : ∀ c ∈ argument, Directive.endsDirective c = false)
    (hstop : Directive.endsDirective stop = true) (rest : Text) :
    read 'D' (Directive.capitals.tail ++ ' ' :: (argument ++ stop :: rest)) =
      .settled (.directive ⟨Directive.capitals, ' ' :: argument ++ [stop]⟩) rest := by
  have hline : ∀ c ∈ ' ' :: argument, Directive.endsDirective c = false := by
    intro c hc
    rcases List.mem_cons.mp hc with rfl | hc
    · rfl
    · exact hargument c hc
  have hblank : Directive.IsBoundary ' ' := .inr (by decide)
  have hread := read_of_isKeyword Directive.isKeyword_capitals hblank (argument ++ stop :: rest)
  rw [← List.cons_append, Directive.read_line hline hstop] at hread
  exact hread

end Token

namespace Carried

open Directive

variable {d s : Text}

/-- The delimiter does not end a front of a carried text and the delimiter. -/
theorem not_suffix (h : Carried d s) {front behind : Text}
    (hsplit : s ++ d = front ++ behind) (hne : behind ≠ []) : ¬ d <:+ front := by
  rintro ⟨before, rfl⟩
  have hlength := congrArg List.length hsplit
  have hbehind := List.length_pos_iff.mpr hne
  simp only [List.length_append] at hlength
  apply h.first before.length (by omega)
  rw [hsplit, List.append_assoc, List.drop_left]
  exact List.prefix_append d behind

/-- A keyword in a carried text goes on as a longer word. -/
theorem not_boundary (h : Carried d s) {before word more : Text} {next : Char}
    (hsplit : s ++ d = before ++ (word ++ next :: more)) (hkeyword : IsKeyword word)
    (hfollows : MayFollow before) : ¬ IsBoundary next := by
  intro hboundary
  have hopens := opensAt_of_split hkeyword hfollows hboundary more
  have hlt : before.length < (s ++ d).length := by
    rw [hsplit, List.length_append, List.length_append, List.length_cons]
    omega
  rw [← hsplit] at hopens
  exact h.no_directive before.length hlt hopens

end Carried

namespace Event

open Directive

variable {d s : Text}

/-- A carried text is scanned through the delimiter behind it. -/
theorem scan_carried (hd : d ≠ []) (h : Carried d s) (rest : Text) :
    scan d (s ++ d ++ rest) = .settled (.statement s d) rest := by
  have hne : s ++ d ≠ [] := List.append_ne_nil_of_right_ne_nil s hd
  obtain ⟨body, c, hbody⟩ := List.eq_nil_or_concat (s ++ d) |>.resolve_left hne
  rw [List.concat_eq_append] at hbody
  rw [hbody, List.append_assoc, List.singleton_append]
  apply scan_of_stop
  · rintro front back - rfl
    rw [List.append_assoc] at hbody
    have hbehind : back ++ [c] ≠ [] :=
      List.append_ne_nil_of_right_ne_nil back (List.cons_ne_nil c [])
    apply stopAfter?_eq_none (h.not_suffix hbody hbehind)
    rintro before word rfl hkeyword hfollows
    obtain ⟨next, more, hnext⟩ := List.exists_cons_of_ne_nil hbehind
    rw [hnext, List.append_assoc] at hbody
    refine ⟨next, ?_, h.not_boundary hbody hkeyword hfollows⟩
    rw [← List.singleton_append, ← List.append_assoc, hnext]
    rfl
  · rw [← hbody]
    exact stopAfter?_of_suffix s d rest

/-- A directive that sets the semicolon is found in front of a text, unless the
delimiter occurs in the keyword. -/
theorem scan_capitals (h : ¬ d <:+: capitals) (t : Text) :
    scan d (capitals ++ ' ' :: ';' :: t) =
      .settled (.directive [] ⟨capitals, [' ', ';']⟩) t := by
  change scan d (['D', 'E', 'L', 'I', 'M', 'I', 'T', 'E'] ++ 'R' :: ' ' :: ';' :: t) = _
  apply scan_of_stop
  · intro front back hne hfront
    have hprefix : front <+: capitals := by
      refine ⟨back ++ ['R'], ?_⟩
      rw [← List.append_assoc, hfront]
      rfl
    apply stopAfter?_eq_none
    · intro hsuffix
      exact h (hsuffix.isInfix.trans hprefix.isInfix)
    · rintro before word rfl hkeyword -
      have hlength := congrArg List.length hfront
      have hword := length_of_isKeyword hkeyword
      simp only [List.length_append, hword] at hlength
      exact absurd hlength (by simp [Keyword.spelling]; omega)
  · have hmark : ¬ d <:+ [] ++ capitals := fun hsuffix => h hsuffix.isInfix
    have hfollows : MayFollow [] := by simp [MayFollow]
    have hblank : IsBoundary ' ' := by decide
    change stopAfter? d ([] ++ capitals).reverse (' ' :: ';' :: t) = _
    rw [stopAfter?_of_keyword hmark isKeyword_capitals hfollows hblank]
    have hline : Directive.read capitals ([' '] ++ ';' :: t) =
        .settled ⟨capitals, [' '] ++ [';']⟩ t :=
      read_line (List.forall_mem_singleton.mpr rfl) rfl t
    exact congrArg (fun reading => some (reading.map (Event.directive []))) hline

end Event

namespace CustomDelimiter

variable {d : Text}

theorem ne_semicolon (h : CustomDelimiter d) : d ≠ Event.semicolon := by
  rintro rfl
  exact h.no_semicolon (List.mem_singleton_self ';')

theorem endsDirective_eq_false (h : CustomDelimiter d) :
    ∀ c ∈ d, Directive.endsDirective c = false := by
  intro c hc
  rw [Directive.endsDirective_eq_false_iff]
  constructor
  · rintro rfl
    exact h.no_newline hc
  · rintro rfl
    exact h.no_semicolon hc

/-- A directive that names the delimiter between blanks names just the
delimiter. -/
theorem delimiter_eq (h : CustomDelimiter d) (keyword : Text) :
    Directive.delimiter ⟨keyword, ' ' :: d ++ ['\n']⟩ = d := by
  have hlead : ∀ c ∈ [' '], Text.isBlank c = true := List.forall_mem_singleton.mpr rfl
  have htrail : ∀ c ∈ ['\n'], Text.isBlank c = true := List.forall_mem_singleton.mpr rfl
  exact Text.trim_of_surrounded hlead htrail h.trimmed h.ne_nil

end CustomDelimiter

namespace Splitter

open Directive

variable {d s : Text} (options : Options)

/-- The directive in front of a script sets the delimiter. -/
theorem advances_setting (hd : CustomDelimiter d) (rest : Text) :
    ∃ n, Advances options {} (capitals ++ ' ' :: d ++ '\n' :: rest) []
      [.delimiterChanged Event.semicolon d] { delimiter := d, position := n } rest := by
  let directive : Directive := ⟨capitals, ' ' :: d ++ ['\n']⟩
  have hnames : directive.delimiter = d := hd.delimiter_eq capitals
  have hread : Event.read Event.semicolon 'D' (capitals.tail ++ ' ' :: (d ++ '\n' :: rest)) =
      .settled (.token (.directive directive)) rest := by
    rw [Event.read, if_pos rfl, Token.read_capitals hd.endsDirective_eq_false rfl]
    rfl
  have hstep : ({} : State).take options (.token (.directive directive)) =
      { event := .token (.directive directive)
        statements := []
        log := [.delimiterChanged Event.semicolon d]
        next := { delimiter := d, position := directive.lexeme.length } } := by
    have hflushed : (if options.flushBeforeDirective = true then unlessBlank [] else []) = [] :=
      ite_self []
    simp only [State.take, State.takeToken, State.directiveRecord, State.setDelimiter, hnames,
      if_neg hd.ne_nil, Token.lexeme, State.clear, Nat.zero_add]
    exact congrArg (Step.mk _ · _ _) hflushed
  have hsingle : Advances options {} _ _ _ _ rest := Advances.single options hread
  rw [hstep] at hsingle
  exact ⟨_, hsingle⟩

/-- A carried text and the delimiter behind it give the text. -/
theorem advances_carried (hd : CustomDelimiter d) (h : Carried d s) (n : Nat) (rest : Text) :
    ∃ m, Advances options { delimiter := d, position := n } (s ++ d ++ rest) [s] []
      { delimiter := d, position := m } rest := by
  have hne : s ++ d ++ rest ≠ [] := by
    simp [hd.ne_nil]
  obtain ⟨c, t, ht⟩ := List.exists_cons_of_ne_nil hne
  have hread : Event.read d c t = .settled (.statement s d) rest := by
    rw [Event.read, if_neg hd.ne_semicolon, ← ht]
    exact Event.scan_carried hd.ne_nil h rest
  have hgiven : unlessBlank s = [s] := by
    rw [unlessBlank, if_neg (by simp [h.not_blank])]
  let state : State := { delimiter := d, position := n }
  have hsingle : Advances options state (c :: t) _ _ _ rest := Advances.single options hread
  rw [ht, ← hgiven]
  exact ⟨_, hsingle⟩

/-- Carried texts with the delimiter behind each of them give just these texts. -/
theorem advances_texts (hd : CustomDelimiter d) {texts : List Text}
    (h : ∀ s ∈ texts, Carried d s) (n : Nat) (rest : Text) :
    ∃ m, Advances options { delimiter := d, position := n } (texts.flatMap (· ++ d) ++ rest)
      texts [] { delimiter := d, position := m } rest := by
  induction texts generalizing n with
  | nil => exact ⟨n, .refl _ rest⟩
  | cons s texts ih =>
      obtain ⟨hs, hothers⟩ := List.forall_mem_cons.mp h
      obtain ⟨m, hfirst⟩ := advances_carried options hd hs n (texts.flatMap (· ++ d) ++ rest)
      obtain ⟨last, hlast⟩ := ih hothers m
      rw [List.flatMap_cons, List.append_assoc]
      exact ⟨last, hfirst.trans hlast⟩

/-- The directive behind a script sets the semicolon again. -/
theorem advances_resetting (hd : CustomDelimiter d) (h : ¬ d <:+: capitals) (n : Nat) (t : Text) :
    ∃ m, Advances options { delimiter := d, position := n } (capitals ++ ' ' :: ';' :: t) []
      [.delimiterChanged d Event.semicolon] (({} : State).moved m) t := by
  let event : Event := .directive [] ⟨capitals, [' ', ';']⟩
  have hread : Event.read d 'D' (capitals.tail ++ ' ' :: ';' :: t) = .settled event t := by
    rw [Event.read, if_neg hd.ne_semicolon]
    exact Event.scan_capitals h t
  let state : State := { delimiter := d, position := n }
  have hsingle : Advances options state _ _ _ _ t := Advances.single options hread
  have hnext : (state.take options event).next = ({} : State).moved (n + event.lexeme.length) := by
    rw [State.moved, Nat.zero_add]
    rfl
  rw [hnext] at hsingle
  exact ⟨_, hsingle⟩

/-- The statements of a script under a custom delimiter are the texts it was
made of. -/
theorem advances_scriptUnder (hd : CustomDelimiter d) {texts : List Text}
    (h : ∀ s ∈ texts, Carried d s) (rest : Text) :
    ∃ n, Advances options {} (scriptUnder d texts ++ rest) texts
      [.delimiterChanged Event.semicolon d] { delimiter := d, position := n } rest := by
  obtain ⟨n, hset⟩ := advances_setting options hd (texts.flatMap (· ++ d) ++ rest)
  obtain ⟨m, htexts⟩ := advances_texts options hd h n rest
  have hscript : scriptUnder d texts ++ rest =
      capitals ++ ' ' :: d ++ '\n' :: (texts.flatMap (· ++ d) ++ rest) :=
    List.append_assoc _ _ rest
  rw [hscript]
  exact ⟨m, hset.trans htexts⟩

end Splitter

/-- A custom delimiter carries any texts.  A directive that sets the semicolon
again hands the rest of the script over to it, as long as the keyword does not
contain the delimiter. -/
theorem split_scriptUnder (options : Options) {d : Text} (hd : CustomDelimiter d)
    {texts : List Text} (h : ∀ s ∈ texts, Carried d s) :
    (split options (scriptUnder d texts) =
          ⟨texts, [.delimiterChanged Event.semicolon d]⟩ ∧
        splitSource options (.ofText (scriptUnder d texts)) =
          ⟨.ok texts, [.delimiterChanged Event.semicolon d]⟩) ∧
      (¬ d <:+: Directive.capitals → ∀ t,
        let script := scriptUnder d texts ++ (Directive.capitals ++ ' ' :: ';' :: t)
        (split options script).statements = texts ++ (split options t).statements ∧
          (splitSource options (.ofText script)).answer =
            .ok (texts ++ (split options t).statements)) := by
  simp only [splitSource_ofText]
  constructor
  · obtain ⟨n, hscript⟩ := Splitter.advances_scriptUnder options hd h []
    rw [List.append_nil] at hscript
    have hsplit : split options (scriptUnder d texts) =
        ⟨texts, [.delimiterChanged Event.semicolon d]⟩ := by
      rw [split, hscript.statements_run, hscript.log_run, Splitter.statements_run_nil,
        Splitter.log_run_nil, List.append_nil]
      exact congrArg (Split.mk · _) (List.append_nil texts)
    rw [hsplit]
    exact ⟨rfl, rfl⟩
  · intro hkeyword t
    obtain ⟨n, hscript⟩ := Splitter.advances_scriptUnder options hd h
      (Directive.capitals ++ ' ' :: ';' :: t)
    obtain ⟨m, hreset⟩ := Splitter.advances_resetting options hd hkeyword n t
    rw [(hscript.trans hreset).split_eq, List.append_nil]
    exact ⟨rfl, rfl⟩

/-- Two texts with a block, a quote, a comment and a dollar tag that are left
open, and a longer word than the keyword; a statement follows them. -/
theorem split_scriptUnder_dollars :
    let texts := ["BEGIN; it's".toList, " DELIMITERS /* $t$ ".toList]
    (CustomDelimiter "$$".toList ∧ (∀ s ∈ texts, Carried "$$".toList s) ∧
        ¬ "$$".toList <:+: Directive.capitals) ∧
      split {} (scriptUnder "$$".toList texts) =
          ⟨texts, [.delimiterChanged ";".toList "$$".toList]⟩ ∧
        (split {} (scriptUnder "$$".toList texts ++
            (Directive.capitals ++ ' ' :: ';' :: "a;".toList))).statements =
          texts ++ ["a;".toList] := by
  intro texts
  have hd : CustomDelimiter "$$".toList := by decide +kernel
  have htexts : ∀ s ∈ texts, Carried "$$".toList s := by decide +kernel
  have hkeyword : ¬ "$$".toList <:+: Directive.capitals := by decide +kernel
  obtain ⟨⟨hsplit, -⟩, hfollowed⟩ := split_scriptUnder {} hd htexts
  obtain ⟨hstatements, -⟩ := hfollowed hkeyword "a;".toList
  refine ⟨⟨hd, htexts, hkeyword⟩, hsplit, ?_⟩
  rw [hstatements]
  decide +kernel

end SqlScript

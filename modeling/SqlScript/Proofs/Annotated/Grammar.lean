/-
The grammar of marker lines.  Every line that spells a marker is one.  Other lines
are taken for markers as well, but only such as resemble one: the first field goes on
behind the dashes, or no plus stands in front of a command on its own.
-/
import SqlScript.Annotated.Builder
import SqlScript.Proofs.Text.Words

namespace SqlScript

namespace Marker

/-- What begins a comment. -/
def dashes : Text :=
  ['-', '-']

/-- The command words of a marker. -/
def commands : Marker → List Text
  | .blockBegin => ["StatementBegin".toList, "statementBegin".toList]
  | .blockEnd => ["StatementEnd".toList, "statementEnd".toList]

/-- The fields of a line that spells a marker.  Behind the dashes stands a command
with a plus, or the name of the tool, which may carry the plus, and a command. -/
def Spelled (tool : Text) (marker : Marker) (fields : List Text) : Prop :=
  ∃ command ∈ marker.commands, fields = [dashes, '+' :: command] ∨
    tool ≠ [] ∧ (fields = [dashes, tool, command] ∨ fields = [dashes, '+' :: tool, command])

instance (tool : Text) (marker : Marker) (fields : List Text) :
    Decidable (Spelled tool marker fields) :=
  List.decidableBEx _ _

/-- Fields that only resemble a marker.  The first one goes on behind the dashes, or
a command on its own has no plus. -/
def Resembles (tool : Text) (marker : Marker) (fields : List Text) : Prop :=
  ∃ first others, fields = first :: others ∧ dashes <+: first ∧
    (first ≠ dashes ∧ Spelled tool marker (dashes :: others) ∨
      ∃ command ∈ marker.commands, others = [command])

variable {tool line field command rest : Text} {marker : Marker}

theorem plus_not_mem_commands : '+' :: rest ∉ marker.commands := by
  cases marker <;> simp [commands]

theorem ofCommand?_eq_some_iff : ofCommand? command = some marker ↔ command ∈ marker.commands := by
  rw [ofCommand?]
  cases marker with
  | blockBegin =>
      split
      · simp_all [commands]
      · split <;> simp_all [commands]
  | blockEnd =>
      split
      · rename_i hbegin
        rcases hbegin with rfl | rfl <;> simp [commands]
      · split <;> simp_all [commands]

/-- A command may drop its plus. -/
theorem ofCommand?_dropLead_iff : ofCommand? (Text.dropLead '+' field) = some marker ↔
    (∃ command ∈ marker.commands, field = '+' :: command) ∨ field ∈ marker.commands := by
  rw [ofCommand?_eq_some_iff, Text.dropLead]
  cases field with
  | nil => simp [Text.stripLead]
  | cons c rest =>
      by_cases hc : c = '+'
      · subst hc
        simp [Text.stripLead, plus_not_mem_commands]
      · simp [Text.stripLead, hc]

theorem names_eq_true_iff : names tool field = true ↔ field = tool ∨ field = '+' :: tool := by
  rw [names, Bool.or_eq_true, beq_iff_eq, beq_iff_eq]
  cases field with
  | nil => simp [Text.stripLead]
  | cons c rest =>
      by_cases hc : c = '+' <;> simp [Text.stripLead, hc]

theorem spelled_short_iff : Spelled tool marker [dashes, field] ↔
    ∃ command ∈ marker.commands, field = '+' :: command := by
  simp [Spelled]

theorem spelled_long_iff : Spelled tool marker [dashes, field, command] ↔
    (tool ≠ [] ∧ (field = tool ∨ field = '+' :: tool)) ∧ command ∈ marker.commands := by
  constructor
  · rintro ⟨other, hother, hshort | ⟨htool, hlong | hlong⟩⟩
    · simp at hshort
    · obtain ⟨hfield, rfl⟩ : field = tool ∧ command = other := by simpa using hlong
      exact ⟨⟨htool, .inl hfield⟩, hother⟩
    · obtain ⟨hfield, rfl⟩ : field = '+' :: tool ∧ command = other := by simpa using hlong
      exact ⟨⟨htool, .inr hfield⟩, hother⟩
  · rintro ⟨⟨htool, rfl | rfl⟩, hcommand⟩
    · exact ⟨command, hcommand, .inr ⟨htool, .inl rfl⟩⟩
    · exact ⟨command, hcommand, .inr ⟨htool, .inr rfl⟩⟩

theorem Spelled.exists_cons {fields : List Text} (h : Spelled tool marker fields) :
    ∃ others, fields = dashes :: others := by
  obtain ⟨command, -, rfl | ⟨-, rfl | rfl⟩⟩ := h
  · exact ⟨_, rfl⟩
  · exact ⟨_, rfl⟩
  · exact ⟨_, rfl⟩

/-- What only resembles a marker does not spell it. -/
theorem Resembles.not_spelled {fields : List Text} (h : Resembles tool marker fields) :
    ¬ Spelled tool marker fields := by
  intro hspelled
  obtain ⟨first, others, rfl, -, ⟨hfirst, -⟩ | ⟨command, hcommand, rfl⟩⟩ := h
  · obtain ⟨_, hfields⟩ := hspelled.exists_cons
    exact hfirst (List.cons.inj hfields).1
  · obtain ⟨_, hfields⟩ := hspelled.exists_cons
    obtain ⟨rfl, -⟩ := List.cons.inj hfields
    obtain ⟨_, -, rfl⟩ := spelled_short_iff.mp hspelled
    exact plus_not_mem_commands hcommand

/-- Whether a line is a comment is told by its first field. -/
theorem isComment_eq_true_iff : isComment line = true ↔
    ∃ first others, Text.words line = first :: others ∧ dashes <+: first := by
  have hdash : Text.isBlank '-' = false := by decide
  have hdashes : ∀ c ∈ dashes, Text.isBlank c = false := by simp [dashes, hdash]
  rw [isComment, List.isPrefixOf_iff_prefix]
  exact Text.isPrefix_trim_iff (List.cons_ne_nil _ _) hdashes

/-- Behind a first field that begins with the dashes, the other fields tell the
marker. -/
theorem ofLine?_of_words {first : Text} {others : List Text}
    (hwords : Text.words line = first :: others) (hbegins : dashes <+: first) :
    ofLine? tool line = some marker ↔
      Spelled tool marker (dashes :: others) ∨ ∃ command ∈ marker.commands, others = [command] := by
  have hcomment := isComment_eq_true_iff.mpr ⟨first, others, hwords, hbegins⟩
  rw [ofLine?, if_pos hcomment, hwords]
  -- How many fields follow decides between the short form, the long one and none.
  match others with
  | [] => simp [Spelled]
  | [command] => simp [spelled_short_iff, ofCommand?_dropLead_iff]
  | [field, command] => simp [spelled_long_iff, ofCommand?_eq_some_iff, names_eq_true_iff]
  | _ :: _ :: _ :: _ => simp [Spelled]

/-- A line is a marker when it spells one, and when it resembles one. -/
theorem ofLine?_eq_some_iff : ofLine? tool line = some marker ↔
    Spelled tool marker (Text.words line) ∨ Resembles tool marker (Text.words line) := by
  constructor
  · intro hline
    have hcomment : isComment line = true := by
      apply Decidable.byContradiction
      intro hother
      simp [ofLine?, hother] at hline
    obtain ⟨first, others, hwords, hbegins⟩ := isComment_eq_true_iff.mp hcomment
    rw [hwords]
    rcases (ofLine?_of_words hwords hbegins).mp hline with hspelled | hbare
    · by_cases hfirst : first = dashes
      · exact .inl (hfirst ▸ hspelled)
      · exact .inr ⟨first, others, rfl, hbegins, .inl ⟨hfirst, hspelled⟩⟩
    · exact .inr ⟨first, others, rfl, hbegins, .inr hbare⟩
  · rintro (hspelled | ⟨first, others, hwords, hbegins, hrest⟩)
    · obtain ⟨others, hwords⟩ := hspelled.exists_cons
      exact (ofLine?_of_words hwords (List.prefix_refl _)).mpr (.inl (hwords ▸ hspelled))
    · exact (ofLine?_of_words hwords hbegins).mpr (hrest.imp_left And.right)

/-- The markers of any line are those that its fields spell or only resemble.  They
are just those that its fields spell if and only if its fields resemble none. -/
theorem ofLine?_iff_spelled_iff (tool line : Text) :
    (∀ marker, ofLine? tool line = some marker ↔
        Spelled tool marker (Text.words line) ∨ Resembles tool marker (Text.words line)) ∧
      ((∀ marker, ofLine? tool line = some marker ↔ Spelled tool marker (Text.words line)) ↔
        ∀ marker, ¬ Resembles tool marker (Text.words line)) := by
  refine ⟨fun marker => ofLine?_eq_some_iff, ?_, ?_⟩
  · intro hspelled marker hresembles
    have hline := ofLine?_eq_some_iff.mpr (.inr hresembles)
    exact hresembles.not_spelled ((hspelled marker).mp hline)
  · intro hresembles marker
    rw [ofLine?_eq_some_iff]
    exact or_iff_left (hresembles marker)

/-- Two comments that spell no marker make an atomic block of what stands between
them. -/
theorem resembling_comments_delimit_block :
    let lines := ["a;".toList, "-- StatementBegin".toList, "b;".toList,
      "--- +StatementEnd".toList, "c;".toList]
    (splitLines [] lines).blocks =
        [⟨"a;".toList, false⟩, ⟨"-- StatementBegin\nb;\n--- +StatementEnd".toList, true⟩,
          ⟨"c;".toList, false⟩] ∧
      (∀ line ∈ lines, ∀ marker ∈ [blockBegin, blockEnd],
        ¬ Spelled [] marker (Text.words line)) ∧
      ¬ ∀ line marker, ofLine? [] line = some marker ↔ Spelled [] marker (Text.words line) := by
  intro lines
  refine ⟨by decide, by decide, ?_⟩
  intro hspelled
  have hline : ofLine? [] "-- StatementBegin".toList = some .blockBegin := by decide
  exact absurd ((hspelled _ _).mp hline) (by decide)

end Marker

end SqlScript

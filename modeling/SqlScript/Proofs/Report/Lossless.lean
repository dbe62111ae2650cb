/-
JSON reports lose nothing.  What is read back from a report is what it tells, so no
two reports of different statements or blocks are the same, and a report holds the
newlines of its layout but no other control.
-/
import SqlScript.Proofs.Json.Layout
import SqlScript.Report.Reader

namespace SqlScript.Report

theorem readBlock?_blockJson (block : Block) : readBlock? (blockJson block) = some block :=
  rfl

/-- Items that are each read back are read back together. -/
theorem mapM_map_eq_some {α β : Type} {write : α → β} {read : β → Option α}
    (h : ∀ a, read (write a) = some a) (as : List α) : (as.map write).mapM read = some as := by
  induction as with
  | nil => rfl
  | cons a as ih => simp [h, ih]

theorem readStatements?_statementsJson (statements : List Text) :
    readStatements? (statementsJson statements) = some statements := by
  have hstring : ∀ t : Text, (Json.string t).string? = some t := fun _ => rfl
  rw [readStatements?, statementsJson, Json.read?_pretty]
  exact mapM_map_eq_some hstring statements

theorem readBlocks?_blocksJson (blocks : List Block) :
    readBlocks? (blocksJson blocks) = some blocks := by
  rw [readBlocks?, blocksJson, Json.read?_pretty]
  exact mapM_map_eq_some readBlock?_blockJson blocks

/-- A statement takes one line, and the closing bracket one more. -/
theorem controls_statementsJson (statements : List Text) :
    Json.controls (statementsJson statements) =
      List.replicate (if statements = [] then 0 else statements.length + 1) '\n' := by
  split
  · subst statements
    rfl
  · rename_i hne
    have hitem : ∀ item ∈ statements.map Json.string,
        Json.controls (item.pretty 1) = List.replicate 0 '\n' := by
      rw [List.forall_mem_map]
      intro t _
      rw [Json.pretty, Json.controls_quote]
      rfl
    rw [statementsJson, Json.controls_array 0 (by simpa using hne) hitem, List.length_map,
      Nat.zero_add, Nat.mul_one]

/-- A block takes four lines, and the closing bracket one more. -/
theorem controls_blocksJson (blocks : List Block) :
    Json.controls (blocksJson blocks) =
      List.replicate (if blocks = [] then 0 else 4 * blocks.length + 1) '\n' := by
  split
  · subst blocks
    rfl
  · rename_i hne
    have hfield : ∀ block : Block, ∀ field ∈ [("text".toList, Json.string block.text),
        ("atomic".toList, .boolean block.atomic)],
          Json.controls (field.2.pretty 2) = List.replicate 0 '\n' := by
      rintro ⟨t, atomic⟩ field hmem
      simp only [List.mem_cons, List.not_mem_nil, or_false] at hmem
      rcases hmem with rfl | rfl
      · exact Json.controls_quote t
      · cases atomic <;> rfl
    have hitem : ∀ item ∈ blocks.map blockJson,
        Json.controls (item.pretty 1) = List.replicate 3 '\n' := by
      rw [List.forall_mem_map]
      intro block _
      exact Json.controls_object 1 (List.cons_ne_nil _ _) (hfield block)
    rw [blocksJson, Json.controls_array 0 (by simpa using hne) hitem, List.length_map,
      Nat.mul_comm]

/-- Reading a report gives back what it tells, so reports are the same only when they
tell the same.  Apart from the newlines of the layout, whose number the number of the
statements or of the blocks tells, a report holds no control. -/
theorem json_lossless (statements others : List Text) (blocks more : List Block) :
    readStatements? (statementsJson statements) = some statements ∧
    readBlocks? (blocksJson blocks) = some blocks ∧
    (statementsJson statements = statementsJson others ↔ statements = others) ∧
    (blocksJson blocks = blocksJson more ↔ blocks = more) ∧
    Json.controls (statementsJson statements) =
      List.replicate (if statements = [] then 0 else statements.length + 1) '\n' ∧
    Json.controls (blocksJson blocks) =
      List.replicate (if blocks = [] then 0 else 4 * blocks.length + 1) '\n' := by
  refine ⟨readStatements?_statementsJson statements, readBlocks?_blocksJson blocks,
    ⟨?_, ?_⟩, ⟨?_, ?_⟩, controls_statementsJson statements, controls_blocksJson blocks⟩
  · intro h
    have hread := readStatements?_statementsJson statements
    rw [h, readStatements?_statementsJson] at hread
    exact (Option.some.inj hread).symm
  · exact congrArg statementsJson
  · intro h
    have hread := readBlocks?_blocksJson blocks
    rw [h, readBlocks?_blocksJson] at hread
    exact (Option.some.inj hread).symm
  · exact congrArg blocksJson

end SqlScript.Report

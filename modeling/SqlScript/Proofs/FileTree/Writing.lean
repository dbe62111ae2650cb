/-
A file that was written is found where it was written.  A path that can be written
at leads to its place through directories, and none of those is the place itself; so
putting a file there changes nothing on the way.
-/
import SqlScript.FileTree

namespace SqlScript.FileTree

/-- Paths begin where they began, whatever is put into a tree. -/
theorem start_put (tree : FileTree) (place : Place) (node : Node) (path : Path) :
    (tree.put place node).start path = tree.start path :=
  rfl

/-- A place holds what is put there, unless it is on the way to the working directory. -/
theorem find?_put_self (tree : FileTree) {place : Place}
    (h : ¬ place <:+ tree.workingDirectory) (node : Node) :
    (tree.put place node).find? place = some node := by
  simp [find?, put, h]

theorem find?_put_of_ne (tree : FileTree) {place other : Place} (h : other ≠ place) (node : Node) :
    (tree.put place node).find? other = tree.find? other := by
  have hne : (other == place) = false := by simpa using h
  simp only [find?, put, List.lookup_cons, hne]

/-- Where a file can be put: nothing is there yet, or a file. -/
inductive Arrival.Writable (place : Place) : Arrival → Prop where
  | vacant : Writable place (.vacant place)
  | file (bytes : Bytes) : Writable place (.found place (.file bytes))

theorem Arrival.Writable.of_vacant {place there : Place}
    (h : (Arrival.vacant there).Writable place) : place = there := by
  cases h
  rfl

theorem Arrival.Writable.of_file {place there : Place} {bytes : Bytes}
    (h : (Arrival.found there (.file bytes)).Writable place) : place = there := by
  cases h
  rfl

variable {tree : FileTree} {here place : Place} {names : List Text} {path : Path}

/-- What can be written at is no directory. -/
theorem find?_ne_directory (h : (tree.follow here names).Writable place) :
    tree.find? place ≠ some .directory := by
  fun_induction follow tree here names with
  | case1 => cases h
  | case2 => cases h
  | case3 here name others there hlength hdirectory ih => exact ih h
  | case4 here name there hlength bytes hfile => simp [h.of_file, hfile]
  | case5 => cases h
  | case6 here name there hlength hnone => simp [h.of_vacant, hnone]
  | case7 => cases h

/-- The way to a file that is put where names lead is the same as before. -/
theorem follow_put (h : (tree.follow here names).Writable place) (bytes : Bytes) :
    (tree.put place (.file bytes)).follow here names = .found place (.file bytes) := by
  have hplace := find?_ne_directory h
  have haside : ¬ place <:+ tree.workingDirectory := fun hway => hplace (if_pos hway)
  fun_induction follow tree here names with
  | case1 => cases h
  | case2 => cases h
  | case3 here name others there hlength hdirectory ih =>
      have hne : there ≠ place := by
        rintro rfl
        exact hplace hdirectory
      have hsame := (find?_put_of_ne tree hne (.file bytes)).trans hdirectory
      rw [follow, if_neg hlength, hsame]
      exact ih h
  | case4 here name there hlength old hfile =>
      rw [h.of_file] at haside ⊢
      rw [follow, if_neg hlength, find?_put_self tree haside]
      rfl
  | case5 => cases h
  | case6 here name there hlength hnone =>
      rw [h.of_vacant] at haside ⊢
      rw [follow, if_neg hlength, find?_put_self tree haside]
      rfl
  | case7 => cases h

theorem arrive_put (h : (tree.arrive path).Writable place) (bytes : Bytes) :
    (tree.put place (.file bytes)).arrive path = .found place (.file bytes) := by
  unfold arrive at h ⊢
  split at h
  · cases h
  · rw [start_put]
    exact follow_put h bytes

/-- Writing puts the file at the place that the path leads to. -/
theorem exists_put_of_writeFile {after : FileTree} {bytes : Bytes}
    (h : tree.writeFile path bytes = .ok after) :
    ∃ place, (tree.arrive path).Writable place ∧ path.endsInSlash = false ∧
      after = tree.put place (.file bytes) := by
  unfold writeFile at h
  split at h
  · cases h
  · cases h
  · rename_i place old harrive
    split at h
    · cases h
    · rename_i hslash
      refine ⟨place, ?_, by simpa using hslash, (Except.ok.inj h).symm⟩
      rw [harrive]
      exact .file old
  · rename_i place harrive
    split at h
    · cases h
    · rename_i hslash
      refine ⟨place, ?_, by simpa using hslash, (Except.ok.inj h).symm⟩
      rw [harrive]
      exact .vacant

/-- A path leads to what was written at it. -/
theorem target_of_writeFile {after : FileTree} {bytes : Bytes}
    (h : tree.writeFile path bytes = .ok after) : after.target path = .file bytes := by
  obtain ⟨place, hwritable, hslash, rfl⟩ := exists_put_of_writeFile h
  rw [target, arrive_put hwritable]
  simp [hslash]

theorem target_of_save {after : FileTree} {bytes : Bytes}
    (h : tree.save path bytes = .ok after) : after.target path = .file bytes := by
  unfold save at h
  cases hmade : tree.ensureTrail (Path.parentTrail path.cut.reverse) with
  | error e =>
      rw [hmade] at h
      cases h
  | ok made =>
      rw [hmade] at h
      exact target_of_writeFile h

end SqlScript.FileTree

import Mathlib.Tactic.SplitIfs
import TemplateBundle.FileTree.Change

/-!
# Lookup in changed file trees

What stands at a location after an insertion or a removal, and where paths lead afterwards. There
are no links, so the location that a path names (`goal?`) depends on the path alone: `resolve` finds
that location or fails. A change that keeps directories keeps every path that leads somewhere
(`resolve_keeps`).
-/

namespace TemplateBundle.FileTree

/-! ## Insertion and removal -/

/-- The working directory and the one above it are there whatever is listed. -/
theorem not_listed_special {tree : FileTree} {location : Location}
    (h : tree.get? location ≠ some .directory) : ¬(location = top ∨ location = working) := by
  intro hspecial
  exact h (by simp [get?, hspecial])

/-- Leaving a location out of the entries leaves the others. -/
theorem lookup_filter_other (entries : List (Location × FileEntry)) {location other : Location}
    (h : other ≠ location) :
    (entries.filter fun listed => listed.1 != location).lookup other = entries.lookup other := by
  induction entries with
  | nil => rfl
  | cons listed entries ih =>
      rcases listed with ⟨place, entry⟩
      -- an entry is left out only where it would not be found either
      by_cases hplace : place = location
      · subst hplace
        have hother : (other == place) = false := by simpa using h
        simpa [List.lookup_cons, hother] using ih
      · simp only [List.filter_cons, bne_iff_ne, ne_eq, hplace, not_false_eq_true, if_true,
          List.lookup_cons, ih]

/-- A location that is left out of the entries is not found in them. -/
theorem lookup_filter_same (entries : List (Location × FileEntry)) (location : Location) :
    (entries.filter fun listed => listed.1 != location).lookup location = none := by
  rw [List.lookup_eq_none_iff]
  intro listed hlisted
  have hne : listed.1 ≠ location := by simpa using (List.mem_filter.mp hlisted).2
  simpa using hne.symm

/-- What was put at a location stands there. -/
theorem insert_get_same {tree : FileTree} {location : Location}
    (h : tree.get? location ≠ some .directory) (entry : FileEntry) :
    (tree.insert location entry).get? location = some entry := by
  simp [get?, not_listed_special h, insert, List.lookup_append, lookup_filter_same]

/-- Putting something at a location changes no other one. -/
theorem insert_get_other (tree : FileTree) {location other : Location} (h : other ≠ location)
    (entry : FileEntry) : (tree.insert location entry).get? other = tree.get? other := by
  have hother : (other == location) = false := by simpa using h
  simp [get?, insert, List.lookup_append, lookup_filter_other _ h, List.lookup_cons, hother]

/-- Nothing stands where a file was taken away. -/
theorem erase_get_same {tree : FileTree} {location : Location}
    (h : tree.get? location ≠ some .directory) : (tree.erase location).get? location = none := by
  simp [get?, not_listed_special h, erase, lookup_filter_same]

/-- Taking away what stands at a location changes no other one. -/
theorem erase_get_other (tree : FileTree) {location other : Location} (h : other ≠ location) :
    (tree.erase location).get? other = tree.get? other := by
  simp [get?, erase, lookup_filter_other _ h]

/-! ## Where paths lead -/

/-- One piece of a path further from a location, whatever stands there. -/
def enter (location : Location) (piece : String) : Location :=
  if piece = "" ∨ piece = "." then location
  else if piece = ".." then location.dropLast
  else location ++ [piece]

/-- The location that a path names, whether or not anything is there. -/
def goal? (path : Path) : Option Location :=
  if path.text = "" ∨ path.isAbsolute then none
  else some ((piecesOf path).foldl enter working)

/-- A step goes on from a directory, to the location that the piece names. -/
theorem step_ok_iff {tree : FileTree} {location next : Location} {piece : String} :
    tree.step location piece = .ok next ↔
      tree.get? location = some .directory ∧ enter location piece = next := by
  unfold step enter
  cases tree.get? location with
  | none => simp
  | some entry =>
      cases entry with
      | file content => simp
      | directory =>
          show (if piece = "" ∨ piece = "." then Except.ok location
            else if piece = ".." then .ok location.dropLast
            else .ok (location ++ [piece]) : Except FileFault Location) = .ok next ↔ _
          split_ifs <;> simp

/-- The steps of a path lead to the location that its pieces name. -/
theorem fold_step_enter {tree : FileTree} {pieces : List String} {start finish : Location}
    (h : pieces.foldlM tree.step start = .ok finish) : pieces.foldl enter start = finish := by
  induction pieces generalizing start with
  | nil => exact Except.ok.inj h
  | cons piece pieces ih =>
      rw [List.foldlM_cons] at h
      cases hstep : tree.step start piece with
      | error fault => simp [hstep, bind, Except.bind] at h
      | ok middle =>
          rw [hstep] at h
          rw [List.foldl_cons, (step_ok_iff.mp hstep).2]
          exact ih h

/-- A path that leads anywhere leads to the location that it names. -/
theorem resolve_goal {tree : FileTree} {path : Path} {location : Location}
    (h : tree.resolve path = .ok location) : goal? path = some location := by
  unfold resolve at h
  unfold goal?
  split_ifs at h ⊢ with hnowhere
  rw [fold_step_enter h]

/-! ## Changes that keep directories -/

/-- Every directory is still one. -/
def KeepsDirectories (before after : FileTree) : Prop :=
  ∀ location, before.get? location = some .directory → after.get? location = some .directory

/-- Steps that were possible are possible after a change that keeps directories. -/
theorem fold_step_keeps {before after : FileTree} (hkeeps : KeepsDirectories before after)
    {pieces : List String} {start finish : Location}
    (h : pieces.foldlM before.step start = .ok finish) :
    pieces.foldlM after.step start = .ok finish := by
  induction pieces generalizing start with
  | nil => exact h
  | cons piece pieces ih =>
      rw [List.foldlM_cons] at h ⊢
      cases hstep : before.step start piece with
      | error fault => simp [hstep, bind, Except.bind] at h
      | ok middle =>
          obtain ⟨hdirectory, henter⟩ := step_ok_iff.mp hstep
          rw [step_ok_iff.mpr ⟨hkeeps start hdirectory, henter⟩]
          rw [hstep] at h
          exact ih h

/-- A path that leads somewhere still leads there after a change that keeps directories. -/
theorem resolve_keeps {before after : FileTree} (hkeeps : KeepsDirectories before after)
    {path : Path} {location : Location} (h : before.resolve path = .ok location) :
    after.resolve path = .ok location := by
  unfold resolve at h ⊢
  split_ifs at h ⊢ with hnowhere
  exact fold_step_keeps hkeeps h

/-- What a path leads to is what stands at its location. -/
theorem find_ok_iff {tree : FileTree} {path : Path} {entry : FileEntry} :
    tree.find path = .ok entry ↔
      ∃ location, tree.resolve path = .ok location ∧ tree.get? location = some entry := by
  unfold find
  cases tree.resolve path with
  | error fault => simp [bind, Except.bind]
  | ok location =>
      cases hget : tree.get? location <;>
        simp [hget, bind, Except.bind, pure, Except.pure, throw, throwThe, MonadExceptOf.throw]

/-- A file is read where its path leads. -/
theorem read_ok_iff {tree : FileTree} {path : Path} {content : ByteArray} :
    tree.read path = .ok content ↔
      ∃ location, tree.resolve path = .ok location ∧
        tree.get? location = some (.file content) := by
  rw [← find_ok_iff]
  unfold read
  cases tree.find path with
  | error fault => simp [bind, Except.bind]
  | ok entry => cases entry <;>
      simp [bind, Except.bind, pure, Except.pure, throw, throwThe, MonadExceptOf.throw]

theorem is_directory_iff {tree : FileTree} {path : Path} :
    tree.isDirectory path = true ↔ tree.find path = .ok .directory := by
  unfold isDirectory
  constructor
  · intro h
    split at h
    · assumption
    · cases h
  · intro hfind
    rw [hfind]

/-- A path leads to a file if it can be read. -/
theorem is_file_iff {tree : FileTree} {path : Path} :
    tree.isFile path = true ↔ ∃ content, tree.read path = .ok content := by
  simp only [read_ok_iff, ← find_ok_iff]
  unfold isFile
  constructor
  · intro h
    split at h
    · rename_i content hfind
      exact ⟨content, hfind⟩
    · cases h
  · rintro ⟨content, hfind⟩
    rw [hfind]

theorem not_directory_of_file {tree : FileTree} {path : Path} (h : tree.isFile path = true) :
    tree.isDirectory path = false := by
  obtain ⟨content, hread⟩ := is_file_iff.mp h
  have hfile := find_ok_iff.mpr (read_ok_iff.mp hread)
  rw [Bool.eq_false_iff, ne_eq, is_directory_iff, hfile]
  nofun

end TemplateBundle.FileTree

import TemplateBundle.Proofs.Except
import TemplateBundle.Proofs.FileTree.Directories
import TemplateBundle.Proofs.Workspace.Running

/-!
# Replacing files

`Working.replace` writes a file beside the one that it replaces. It either ends with the new
content in place and nothing beside it (`Replaced`), or leaves every other file as it was
(`Abandoned`). Both are stated against a tree from before the directories on the way were made.
-/

namespace TemplateBundle.FileTree

/-! ## Writing, renaming, removing -/

/-- Putting something in place of what is no directory keeps directories. -/
theorem insert_keeps_directories {tree : FileTree} {location : Location}
    (h : tree.get? location ≠ some .directory) (entry : FileEntry) :
    KeepsDirectories tree (tree.insert location entry) := by
  intro other hdirectory
  have hother : other ≠ location := fun heq => h (heq ▸ hdirectory)
  rw [insert_get_other tree hother]
  exact hdirectory

/-- Taking away what is no directory keeps directories. -/
theorem erase_keeps_directories {tree : FileTree} {location : Location}
    (h : tree.get? location ≠ some .directory) :
    KeepsDirectories tree (tree.erase location) := by
  intro other hdirectory
  have hother : other ≠ location := fun heq => h (heq ▸ hdirectory)
  rw [erase_get_other tree hother]
  exact hdirectory

/-- A file is written where its path leads, if no directory stands there. -/
theorem write_inv {tree after : FileTree} {path : Path} {content : ByteArray}
    (h : tree.write path content = .ok after) :
    ∃ location, tree.resolve path = .ok location ∧ tree.get? location ≠ some .directory ∧
      after = tree.insert location (.file content) := by
  unfold write at h
  obtain ⟨location, hresolve, h⟩ := except_bind_ok_iff.mp h
  cases hopen : endsOpen path with
  | true => simp [hopen, bind, Except.bind, throw, throwThe, MonadExceptOf.throw] at h
  | false =>
      rw [without_open_end_closed hopen] at hresolve
      simp only [hopen, Bool.false_eq_true, if_false] at h
      split at h
      · exact absurd h except_throw_ne_ok
      · rename_i hdirectory
        exact ⟨location, hresolve, hdirectory, (Except.ok.inj h).symm⟩

/-- A file is renamed by taking it from where its path leads to where the other path leads, if no
directory stands there. -/
theorem rename_inv {tree after : FileTree} {source target : Path}
    (h : tree.rename source target = .ok after) :
    ∃ content old new, tree.resolve source = .ok old ∧ tree.get? old = some (.file content) ∧
      tree.resolve target = .ok new ∧ tree.get? new ≠ some .directory ∧
      after = (tree.erase old).insert new (.file content) := by
  unfold rename at h
  obtain ⟨content, hread, h⟩ := except_bind_ok_iff.mp h
  obtain ⟨old, hold, h⟩ := except_bind_ok_iff.mp h
  obtain ⟨new, hnew, h⟩ := except_bind_ok_iff.mp h
  obtain ⟨location, hlocation, hget⟩ := read_ok_iff.mp hread
  obtain rfl := Except.ok.inj (hlocation.symm.trans hold)
  cases hopen : endsOpen target with
  | true => simp [hopen, bind, Except.bind, throw, throwThe, MonadExceptOf.throw] at h
  | false =>
      rw [without_open_end_closed hopen] at hnew
      simp only [hopen, Bool.false_eq_true, if_false] at h
      split at h
      · exact absurd h except_throw_ne_ok
      · rename_i hdirectory
        exact ⟨content, location, new, hold, hget, hnew, hdirectory, (Except.ok.inj h).symm⟩

/-- A file that a path leads to can be removed. -/
theorem remove_file_eq {tree : FileTree} {path : Path} {location : Location}
    {content : ByteArray} (hresolve : tree.resolve path = .ok location)
    (hget : tree.get? location = some (.file content)) :
    tree.removeFile path = .ok (tree.erase location) := by
  have hfind : tree.find path = .ok (.file content) := find_ok_iff.mpr ⟨location, hresolve, hget⟩
  simp [removeFile, hfind, hresolve, bind, Except.bind, pure, Except.pure]

/-! ## What a replacement leaves -/

/-- The file at the path holds the content, and nothing is beside it any more. Everything else is
as before, up to directories that were made. -/
structure Replaced (made : Location → Prop) (path beside : Path) (content : ByteArray)
    (before after : FileTree) : Prop where
  read : after.read path = .ok content
  beside_gone : after.contains beside = false
  directories : KeepsDirectories before after
  elsewhere : ∀ location, goal? path ≠ some location → goal? beside ≠ some location →
    SameOrMade made before after location

/-- Everything is as before, up to directories that were made and to a file beside the path, which
may be gone. -/
def Abandoned (made : Location → Prop) (beside : Path) (before after : FileTree) : Prop :=
  ∀ location, SameOrMade made before after location ∨
    goal? beside = some location ∧ (∃ content, before.get? location = some (.file content)) ∧
      after.get? location = none

/-- How a replacement ends: with the content in place, or abandoned. -/
def ReplacedOrAbandoned {ε : Type} (made : Location → Prop) (path beside : Path)
    (content : ByteArray) (before : FileTree) : Except ε Unit × Workspace → Prop
  | (.ok (), final) => Replaced made path beside content before final.files
  | (.error _, final) => Abandoned made beside before final.files

variable {made : Location → Prop} {before middle after : FileTree}

/-- Making directories alone abandons a replacement. -/
theorem Grown.abandoned (h : Grown made before after) (beside : Path) :
    Abandoned made beside before after :=
  fun location => Or.inl (h location)

/-- A location that is no directory in a grown tree was none before. -/
theorem Grown.not_directory (h : Grown made before middle) {location : Location}
    (hget : middle.get? location ≠ some .directory) :
    middle.get? location = before.get? location := by
  rcases h location with hsame | ⟨-, hdirectory, -⟩
  · exact hsame
  · exact absurd hdirectory hget

/-- A file that was written and is put in its place replaces what was there. -/
theorem replaced_of_rename (hgrown : Grown made before middle) {path beside : Path}
    {content : ByteArray} {written : FileTree}
    (hapart : ∀ location, goal? path = some location → goal? beside ≠ some location)
    (hwrite : middle.write beside content = .ok written)
    (hrename : written.rename beside path = .ok after) :
    Replaced made path beside content before after := by
  obtain ⟨asideLocation, haside, hasideFree, rfl⟩ := write_inv hwrite
  obtain ⟨moved, old, new, hold, hmoved, hnew, hnewFree, rfl⟩ := rename_inv hrename
  have hwriteKeeps := insert_keeps_directories hasideFree (.file content)
  -- what is renamed is the file just written: its path leads to the same place as before
  obtain rfl := Except.ok.inj ((resolve_keeps hwriteKeeps haside).symm.trans hold)
  have hwritten := insert_get_same hasideFree (.file content)
  obtain rfl : content = moved := by simpa using hwritten.symm.trans hmoved
  have hasideGoal := resolve_goal haside
  have hnewGoal := resolve_goal hnew
  -- the two places are apart, so no change at the one touches the other
  have hne : asideLocation ≠ new := fun heq => hapart new hnewGoal (heq ▸ hasideGoal)
  have hfile : (middle.insert asideLocation (.file content)).get? asideLocation ≠
      some .directory := by
    rw [hwritten]
    exact nofun
  have herase := erase_keeps_directories hfile
  have hnewFree' : ((middle.insert asideLocation (.file content)).erase asideLocation).get? new ≠
      some .directory := by
    rwa [erase_get_other _ hne.symm]
  have hplace := insert_keeps_directories hnewFree' (.file content)
  have hmiddleNew : middle.get? new ≠ some .directory := by
    rwa [insert_get_other _ hne.symm] at hnewFree
  refine ⟨?_, ?_, ?_, ?_⟩
  · refine read_ok_iff.mpr ⟨new, resolve_keeps hplace (resolve_keeps herase hnew), ?_⟩
    exact insert_get_same hnewFree' _
  · have hgone : (((middle.insert asideLocation (.file content)).erase asideLocation).insert new
        (.file content)).get? asideLocation = none := by
      rw [insert_get_other _ hne, erase_get_same hfile]
    have hresolve := resolve_keeps hplace (resolve_keeps herase hold)
    simp [contains, find, hresolve, hgone, bind, Except.bind, throw, throwThe,
      MonadExceptOf.throw, Except.toBool]
  · intro location hdirectory
    exact hplace _ (herase _ (hwriteKeeps _ (hgrown.keeps_directories _ hdirectory)))
  · intro location hpath hbeside
    have hnotNew : location ≠ new := fun heq => hpath (heq ▸ hnewGoal)
    have hnotAside : location ≠ asideLocation := fun heq => hbeside (heq ▸ hasideGoal)
    rw [SameOrMade, insert_get_other _ hnotNew, erase_get_other _ hnotAside,
      insert_get_other _ hnotAside]
    exact hgrown location

/-- A file that was written and is taken away again leaves everything else. -/
theorem abandoned_of_remove (hgrown : Grown made before middle) {beside : Path}
    {content : ByteArray} {written : FileTree}
    (hwrite : middle.write beside content = .ok written) :
    Abandoned made beside before ((written.removeFile beside).toOption.getD written) := by
  obtain ⟨asideLocation, haside, hasideFree, rfl⟩ := write_inv hwrite
  have hwritten := insert_get_same hasideFree (.file content)
  have hresolve := resolve_keeps (insert_keeps_directories hasideFree (.file content)) haside
  rw [remove_file_eq hresolve hwritten]
  show Abandoned made beside before
    ((middle.insert asideLocation (.file content)).erase asideLocation)
  intro location
  by_cases hlocation : location = asideLocation
  · subst hlocation
    have hgone : ((middle.insert location (.file content)).erase location).get? location = none :=
      erase_get_same (by simp [hwritten])
    have hsame := hgrown.not_directory hasideFree
    -- where nothing stood before, nothing stands again; an older file is lost
    cases hbefore : before.get? location with
    | none => exact Or.inl (Or.inl (hgone.trans hbefore.symm))
    | some entry =>
        cases entry with
        | directory => exact absurd (hsame.trans hbefore) hasideFree
        | file old => exact Or.inr ⟨resolve_goal haside, ⟨old, rfl⟩, hgone⟩
  · left
    rw [SameOrMade, erase_get_other _ hlocation, insert_get_other _ hlocation]
    exact hgrown location

/-- A replacement is all or nothing: it puts the content in place, or it is abandoned. -/
theorem replace_frame {ε : Type} (fault : Path → FileFault → ε) {path beside : Path}
    (content : ByteArray) {start : Workspace} (hgrown : Grown made before start.files)
    (hapart : ∀ location, goal? path = some location → goal? beside ≠ some location) :
    ReplacedOrAbandoned made path beside content before
      ((Working.replace fault path beside content).run start) := by
  rw [Working.run_replace]
  cases hwrite : start.files.write beside content with
  | error found => exact hgrown.abandoned beside
  | ok written =>
      cases hrename : written.rename beside path with
      | ok renamed =>
          simp only [hrename]
          exact replaced_of_rename hgrown hapart hwrite hrename
      | error found =>
          simp only [hrename]
          exact abandoned_of_remove hgrown hwrite

end TemplateBundle.FileTree

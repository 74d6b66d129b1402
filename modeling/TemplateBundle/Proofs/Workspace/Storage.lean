import TemplateBundle.Bundle.Destination
import TemplateBundle.Project.Storage
import TemplateBundle.Proofs.FileTree.Replacement

/-!
# Storing files

Destinations and project files are stored all or nothing. Either the file holds the new content,
with nothing left beside it and directories made on the way at most, or every file keeps its
content, but for one that stood beside the path (`stored_or_kept`).
-/

namespace TemplateBundle

open FileTree

/-- Storing a file at the path may make a directory at the location: one on the way to the path, or
on the way to the file beside it. -/
def StorageWay (path beside : Path) (location : Location) : Prop :=
  Above path location ∨ Above beside location

/-- Directories on the way to the path itself may be made, and so grown trees stay so. -/
theorem grown_storage_way {path : Path} (beside : Path) {before after : FileTree}
    (h : Grown (Above path) before after) : Grown (StorageWay path beside) before after :=
  h.mono fun _ => Or.inl

/-- Making the directory that a path is in only makes directories on the way to the path. -/
theorem parent_grown {path parent : Path} {isNamed : Path → Bool}
    (hparent : path.parent?.filter isNamed = some parent) (tree : FileTree) :
    Grown (Above path) tree (tree.makeDirectories parent).2 :=
  (make_directories_grown tree parent).mono fun _ h =>
    h.above (Option.filter_eq_some_iff.mp hparent).1

namespace Destination

/-- Making the directory that a path is in only makes directories on the way to the path. -/
theorem make_parent_grown (path : Path) (start : Workspace) :
    Grown (Above path) start.files ((makeParent path).run start).2.files := by
  unfold makeParent
  cases hparent : path.parent?.filter fun parent => parent.text != "" with
  | none => exact Grown.refl _
  | some parent =>
      rw [Working.run_make_directories]
      exact parent_grown hparent start.files

/-- The file beside a destination is another one. -/
theorem goal_beside_ne {path : Path} {location : Location} (h : goal? path = some location) :
    goal? (beside path) ≠ some location :=
  goal_append_ne (by decide) (by decide) h

/-- What writing a destination does, by its outcome. -/
theorem write_outcome (path : Path) (text : String) (isDry : Bool) (start : Workspace) :
    let (outcome, final) := (write path text isDry).run start
    match outcome with
    | .ok .written =>
        isDry = false ∧ Replaced (StorageWay path (beside path)) path (beside path) text.toUTF8
          start.files final.files
    | .ok .unchanged => final.files = start.files
    | .ok .wouldWrite => isDry = true ∧ final.files = start.files
    | .ok .empty => False
    | .error _ =>
        (isDry = true → final.files = start.files) ∧
          Abandoned (StorageWay path (beside path)) (beside path) start.files final.files := by
  unfold write
  simp only [Working.run_bind, Working.run_files, Working.run_of_except]
  cases hexisting : existing? start.files path with
  | error fault =>
      simp only [except_map_error_error]
      exact ⟨fun _ => trivial, (Grown.refl start.files).abandoned _⟩
  | ok existing =>
      simp only [except_map_error_ok]
      split_ifs with hsame hdry
      · simp only [Working.run_bind, Working.run_log, Working.run_pure]
      · simp only [Working.run_bind, Working.run_log, Working.run_pure, hdry, and_self]
      · have hnotDry : isDry = false := by simpa using hdry
        have hapart : ∀ location, goal? path = some location →
            goal? (beside path) ≠ some location := fun _ => goal_beside_ne
        simp only [Working.run_bind, Working.run_log, Working.run_pure]
        -- directories are made for both paths before anything is written; each step may fail
        have hgrown := grown_storage_way (beside path) (make_parent_grown path start)
        rcases hfirst : (makeParent path).run start with ⟨fault | ⟨⟩, first⟩
        · rw [hfirst] at hgrown
          exact ⟨fun h => absurd h hdry, hgrown.abandoned _⟩
        · rw [hfirst] at hgrown
          have hgrown' : Grown (StorageWay path (beside path)) start.files _ :=
            hgrown.trans ((make_parent_grown (beside path) first).mono fun _ => Or.inr)
          rcases hsecond : (makeParent (beside path)).run first with ⟨fault | ⟨⟩, second⟩
          · rw [hsecond] at hgrown'
            simp only [hsecond]
            exact ⟨fun h => absurd h hdry, hgrown'.abandoned _⟩
          · rw [hsecond] at hgrown'
            simp only [hsecond]
            have hreplace := replace_frame BuildFault.file text.toUTF8 hgrown' hapart
            rcases hrun :
                (Working.replace BuildFault.file path (beside path) text.toUTF8).run second
              with ⟨fault | ⟨⟩, final⟩
            · rw [hrun] at hreplace
              simp only
              exact ⟨fun h => absurd h hdry, hreplace⟩
            · rw [hrun] at hreplace
              simp only
              exact ⟨hnotDry, hreplace⟩

end Destination

namespace Project

/-- Saving a project file replaces it or leaves it. -/
theorem save_frame (path : Path) (file : ProjectFile) (start : Workspace) :
    ReplacedOrAbandoned (StorageWay path (path.append ".tmp")) path (path.append ".tmp")
      (Yaml.print file.toData).toUTF8 start.files ((save path file).run start) := by
  have hapart : ∀ location, goal? path = some location →
      goal? (path.append ".tmp") ≠ some location :=
    fun _ => goal_append_ne (by decide) (by decide)
  unfold save
  cases hparent : namedParent? path with
  | none => exact replace_frame ProjectFault.file _ (Grown.refl start.files) hapart
  | some parent =>
      have hgrown := grown_storage_way (path.append ".tmp") (parent_grown hparent start.files)
      simp only [Working.run_bind, Working.run_make_directories]
      cases (start.files.makeDirectories parent).1 with
      | error fault => exact hgrown.abandoned _
      | ok =>
          have hgrown' : Grown _ start.files
              (⟨(start.files.makeDirectories parent).2, start.log⟩ : Workspace).files := hgrown
          exact replace_frame ProjectFault.file _ hgrown' hapart

end Project

/-- Storing is all or nothing, for a destination and for a project file. A destination that is
unchanged, or in a dry run, leaves the files as they are. What was stored is at the path and
nothing is beside it, with every other file as before; what could not be stored leaves every file
but the one beside the path. Either way new directories are on the way to these two paths only. -/
theorem stored_or_kept (path : Path) (start : Workspace) :
    (∀ text isDry,
      let beside := Destination.beside path
      let (outcome, final) := (Destination.write path text isDry).run start
      (isDry = true ∨ outcome = .ok .unchanged → final.files = start.files) ∧
        (outcome = .ok .written →
          Replaced (StorageWay path beside) path beside text.toUTF8 start.files final.files) ∧
        (∀ fault, outcome = .error fault →
          Abandoned (StorageWay path beside) beside start.files final.files)) ∧
      ∀ file,
        let beside := path.append ".tmp"
        let (outcome, final) := (Project.save path file).run start
        (outcome = .ok () →
          Replaced (StorageWay path beside) path beside (Yaml.print file.toData).toUTF8
            start.files final.files) ∧
          (∀ fault, outcome = .error fault →
            Abandoned (StorageWay path beside) beside start.files final.files) := by
  constructor
  · intro text isDry
    have houtcome := Destination.write_outcome path text isDry start
    rcases hrun : (Destination.write path text isDry).run start with ⟨fault | outcome, final⟩
    · rw [hrun] at houtcome
      obtain ⟨hdry, habandoned⟩ := houtcome
      exact ⟨by simpa using hdry, by simp, fun _ _ => habandoned⟩
    · rw [hrun] at houtcome
      cases outcome with
      | written =>
          obtain ⟨hdry, hreplaced⟩ := houtcome
          exact ⟨by simp [hdry], fun _ => hreplaced, by simp⟩
      | unchanged => exact ⟨fun _ => houtcome, by simp, by simp⟩
      | wouldWrite => exact ⟨fun _ => houtcome.2, by simp, by simp⟩
      | empty => exact houtcome.elim
  · intro file
    have houtcome := Project.save_frame path file start
    rcases hrun : (Project.save path file).run start with ⟨fault | ⟨⟩, final⟩
    · rw [hrun] at houtcome
      exact ⟨by simp, fun _ _ => houtcome⟩
    · rw [hrun] at houtcome
      exact ⟨fun _ => houtcome, by simp⟩

end TemplateBundle

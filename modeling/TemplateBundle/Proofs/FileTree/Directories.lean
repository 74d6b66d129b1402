import Mathlib.Logic.Relation
import TemplateBundle.Proofs.Except
import TemplateBundle.Proofs.FileTree.Goal

/-!
# Making directories

What making directories does to a file tree, whether or not it succeeds: nothing that exists
changes, and new directories stand only on the way to the path (`make_directories_grown`). The way
is that of the text: a path through `..` makes the directory that it leaves again.
-/

namespace TemplateBundle.FileTree

/-! ## Grown trees -/

/-- The location is as it was, or a directory was made there, which `made` admits. -/
def SameOrMade (made : Location → Prop) (before after : FileTree) (location : Location) : Prop :=
  after.get? location = before.get? location ∨
    before.get? location = none ∧ after.get? location = some .directory ∧ made location

/-- Nothing changed but that directories were made where `made` admits them. -/
def Grown (made : Location → Prop) (before after : FileTree) : Prop :=
  ∀ location, SameOrMade made before after location

variable {made admitted : Location → Prop} {before middle after : FileTree} {location : Location}

theorem SameOrMade.trans (hfirst : SameOrMade made before middle location)
    (hsecond : SameOrMade made middle after location) :
    SameOrMade made before after location := by
  rcases hfirst with hsame | ⟨hnone, hdirectory, hmade⟩
  · rcases hsecond with hsame' | ⟨hnone', hdirectory', hmade'⟩
    · exact Or.inl (hsame'.trans hsame)
    · exact Or.inr ⟨hsame ▸ hnone', hdirectory', hmade'⟩
  · rcases hsecond with hsame' | ⟨hnone', -, -⟩
    · exact Or.inr ⟨hnone, hsame'.trans hdirectory, hmade⟩
    · rw [hdirectory] at hnone'
      cases hnone'

theorem SameOrMade.mono (hmade : ∀ location, made location → admitted location)
    (h : SameOrMade made before after location) : SameOrMade admitted before after location := by
  rcases h with hsame | ⟨hnone, hdirectory, hlocation⟩
  · exact Or.inl hsame
  · exact Or.inr ⟨hnone, hdirectory, hmade location hlocation⟩

theorem Grown.refl (tree : FileTree) : Grown made tree tree := fun _ => Or.inl rfl

theorem Grown.trans (hfirst : Grown made before middle) (hsecond : Grown made middle after) :
    Grown made before after :=
  fun location => (hfirst location).trans (hsecond location)

theorem Grown.mono (hmade : ∀ location, made location → admitted location)
    (h : Grown made before after) : Grown admitted before after :=
  fun location => (h location).mono hmade

theorem Grown.keeps_directories (h : Grown made before after) : KeepsDirectories before after := by
  intro location hdirectory
  rcases h location with hsame | ⟨hnone, -, -⟩
  · exact hsame.trans hdirectory
  · rw [hdirectory] at hnone
    cases hnone

/-! ## Directories on the way -/

/-- The second path is that of the directory in which the first one lies. -/
def LiesIn (path directory : Path) : Prop :=
  path.parent? = some directory

/-- The location of a path, or of a directory on the way to it. -/
def OnWay (path : Path) (location : Location) : Prop :=
  ∃ ancestor, Relation.ReflTransGen LiesIn path ancestor ∧ goal? ancestor = some location

/-- The location of a directory on the way to a path. -/
def Above (path : Path) (location : Location) : Prop :=
  ∃ ancestor, Relation.TransGen LiesIn path ancestor ∧ goal? ancestor = some location

/-- The way to a path begins with the way to its parent. -/
theorem OnWay.above {path parent : Path} (hparent : path.parent? = some parent)
    (h : OnWay parent location) : Above path location := by
  obtain ⟨ancestor, hway, hgoal⟩ := h
  exact ⟨ancestor, Relation.TransGen.head' hparent hway, hgoal⟩

theorem Above.on_way {path : Path} (h : Above path location) : OnWay path location := by
  obtain ⟨ancestor, hway, hgoal⟩ := h
  exact ⟨ancestor, hway.to_reflTransGen, hgoal⟩

/-! ## The operations -/

/-- A directory is made where its path leads and nothing stands. -/
theorem make_directory_inv {tree after : FileTree} {path : Path}
    (h : tree.makeDirectory path = .ok after) :
    ∃ location, goal? path = some location ∧ tree.get? location = none ∧
      after = tree.insert location .directory := by
  unfold makeDirectory at h
  obtain ⟨location, hresolve, h⟩ := except_bind_ok_iff.mp h
  cases hget : tree.get? location with
  | some entry =>
      simp only [hget] at h
      exact absurd h except_throw_ne_ok
  | none =>
      simp only [hget] at h
      exact ⟨location, goal_without_open_end (resolve_goal hresolve), hget,
        (Except.ok.inj h).symm⟩

/-- Making a directory that may exist changes nothing or makes the directory. -/
theorem ensure_directory_grown {tree after : FileTree} {path : Path}
    (h : tree.ensureDirectory path = .ok after) : Grown (OnWay path) tree after := by
  unfold ensureDirectory at h
  cases hmake : tree.makeDirectory path with
  | ok made =>
      rw [hmake] at h
      cases h
      obtain ⟨location, hgoal, hnone, rfl⟩ := make_directory_inv hmake
      intro other
      by_cases hother : other = location
      · subst hother
        exact Or.inr ⟨hnone, insert_get_same (by simp [hnone]) _, path, .refl, hgoal⟩
      · exact Or.inl (insert_get_other tree hother _)
  | error fault =>
      rw [hmake] at h
      change (if tree.isDirectory path then .ok tree else .error fault :
        Except FileFault FileTree) = .ok after at h
      split_ifs at h
      cases h
      exact Grown.refl _

theorem ensured_grown (tree : FileTree) (path : Path) :
    Grown (OnWay path) tree (makeDirectoriesUpTo.ensured tree path).2 := by
  unfold makeDirectoriesUpTo.ensured
  cases hensure : tree.ensureDirectory path with
  | ok after => exact ensure_directory_grown hensure
  | error fault => exact Grown.refl _

/-- The induction is on the bound, which counts the directories above the path: those that the
parent needs are on the way to it, and so on the way to the path. -/
theorem make_directories_up_to_grown (bound : Nat) (tree : FileTree) (path : Path) :
    Grown (OnWay path) tree (makeDirectoriesUpTo bound tree path).2 := by
  induction bound generalizing path with
  | zero => exact ensured_grown tree path
  | succ bound ih =>
      unfold makeDirectoriesUpTo
      split_ifs with hempty
      · exact Grown.refl _
      · split
        · rename_i made hensure
          exact ensure_directory_grown hensure
        · rename_i parent _ hparent
          -- the parent is made first, and then the path is tried again
          have hgrown := (ih parent).mono fun _ h => (h.above hparent).on_way
          split
          · rename_i above hmade
            rw [hmade] at hgrown
            exact hgrown.trans (ensured_grown above path)
          · rename_i fault above hmade
            rw [hmade] at hgrown
            exact hgrown
        · exact Grown.refl _

/-- Making directories, with or without success, changes nothing that exists, and makes
directories only on the way to the path. -/
theorem make_directories_grown (tree : FileTree) (path : Path) :
    Grown (OnWay path) tree (tree.makeDirectories path).2 :=
  make_directories_up_to_grown _ tree path

end TemplateBundle.FileTree

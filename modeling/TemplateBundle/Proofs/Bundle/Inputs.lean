import TemplateBundle.Proofs.Bundle.Rendering
import TemplateBundle.Proofs.FileTree.Lookup

/-!
# What rendering reads

A bundle is rendered from what its source list stands for and from what the sources hold. A change
of the files that keeps both is not seen by it (`render_eq`): not even the reports differ.
-/

namespace TemplateBundle

namespace FileTree

/-- The path reads the same content in both trees, or no file in either. -/
def HoldsSame (before after : FileTree) (path : Path) : Prop :=
  ∀ content, after.read path = .ok content ↔ before.read path = .ok content

variable {before middle after : FileTree} {path : Path}

theorem HoldsSame.trans (hfirst : HoldsSame before middle path)
    (hsecond : HoldsSame middle after path) : HoldsSame before after path :=
  fun content => (hsecond content).trans (hfirst content)

/-- A path that reads some content in both trees holds the same. -/
theorem holds_same_of_read {content : ByteArray} (hbefore : before.read path = .ok content)
    (hafter : after.read path = .ok content) : HoldsSame before after path := by
  intro other
  rw [hbefore, hafter]

theorem HoldsSame.is_file_eq (h : HoldsSame before after path) :
    after.isFile path = before.isFile path := by
  rw [Bool.eq_iff_iff, is_file_iff, is_file_iff]
  exact exists_congr h

/-- A file that holds the same is read as the same text, or as none. -/
theorem HoldsSame.read_text_eq (h : HoldsSame before after path)
    (hfile : before.isFile path = true) : after.readText path = before.readText path := by
  obtain ⟨content, hread⟩ := is_file_iff.mp hfile
  unfold readText
  rw [hread, (h content).mpr hread]

end FileTree

open FileTree

/-! ## The sources of a job -/

namespace Job

/-- The change does not concern the sources of the job: the source list stands for the same paths,
and each of them holds what it did. -/
structure SourcesKept (job : Job) (before after : FileTree) : Prop where
  paths : Sources.expand after job.directory job.sources =
    Sources.expand before job.directory job.sources
  contents : ∀ paths, Sources.expand before job.directory job.sources = .ok paths →
    ∀ path ∈ paths, HoldsSame before after (job.directory.join path)

variable {job : Job} {before middle after : FileTree}

theorem SourcesKept.refl (job : Job) (tree : FileTree) : job.SourcesKept tree tree :=
  ⟨rfl, fun _ _ _ _ _ => Iff.rfl⟩

theorem SourcesKept.trans (hfirst : job.SourcesKept before middle)
    (hsecond : job.SourcesKept middle after) : job.SourcesKept before after where
  paths := hsecond.paths.trans hfirst.paths
  contents := by
    intro paths hpaths path hpath
    have hmiddle := hsecond.contents paths (hfirst.paths.trans hpaths) path hpath
    exact (hfirst.contents paths hpaths path hpath).trans hmiddle

/-- The induction is on the sources that are left: whether each of them is a file, and which text it
holds, is all that is asked of the files. -/
theorem compile_sources_eq (toolchain : Toolchain) {paths : List Path}
    (h : ∀ path ∈ paths, HoldsSame before after (job.directory.join path)) :
    job.compileSources toolchain after paths = job.compileSources toolchain before paths := by
  induction paths with
  | nil => rfl
  | cons path paths ih =>
      obtain ⟨hpath, hpaths⟩ := List.forall_mem_cons.mp h
      simp only [compileSources, ih hpaths, hpath.is_file_eq]
      by_cases hfile : before.isFile (job.directory.join path) = true
      · rw [if_pos hfile, if_pos hfile, hpath.read_text_eq hfile]
      · rw [if_neg hfile, if_neg hfile]

/-- Where the sources are kept, rendering is the same computation. -/
theorem SourcesKept.render_eq (h : job.SourcesKept before after) (toolchain : Toolchain) :
    job.render toolchain after = job.render toolchain before := by
  unfold render
  rw [h.paths]
  cases hpaths : Sources.expand before job.directory job.sources with
  | error fault => rfl
  | ok paths =>
      have hcompile := compile_sources_eq toolchain (h.contents paths hpaths)
      simp only [except_map_error_ok, Reporting.of_except_ok_bind, hcompile]

end Job

end TemplateBundle

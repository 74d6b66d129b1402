import TemplateBundle.Bundle.Render
import TemplateBundle.Proofs.Glob.Walking
import TemplateBundle.Proofs.Project.Listing
import TemplateBundle.Proofs.Workspace.Reporting

/-!
# Files that patterns find

What a pattern of a source list finds is a file as seen from the directory of the list
(`is_file_of_finds`), so that only paths that are listed as they are can be missing
(`missing_listed`). This holds for directories that a walk gives back as they are written
(`Sources.Findable`).
-/

namespace TemplateBundle

open TemplateBundle.Path (EndInStep stepsOf)
open Reporting (Gives)

namespace FileTree

variable {tree : FileTree} {path directory : Path}

/-- A file that a directory has in it is found from that directory. -/
theorem is_file_join_relative (hfile : tree.isFile path = true) (hne : directory.text ≠ "")
    (hrelative : directory.isAbsolute = false) (hbelow : directory.components <+: path.components)
    (hdirectory : tree.Leads directory.components .directory) :
    tree.isFile (directory.join (path.relativeTo directory)) = true := by
  obtain ⟨hpath, hend, content, hleads⟩ := is_file_iff_leads.mp hfile
  obtain ⟨extra, hextra⟩ := hbelow
  have hextraNe : extra ≠ [] := by
    rintro rfl
    rw [List.append_nil] at hextra
    rw [← hextra] at hleads
    cases hdirectory.unique hleads
  obtain ⟨hseen, hseenEnd, hsteps⟩ :=
    Path.relative_to_below hpath hend (Path.components_ne_nil hne) hextra hextraNe
  refine is_file_iff_leads.mpr ⟨(Path.is_absolute_join hseen hne).trans hrelative,
    (Path.end_in_step_join hrelative hne hseen).mpr hseenEnd, content, ?_⟩
  rwa [Path.components_join hrelative hne hseen, hsteps, hextra]

/-- A path that is not seen in another way from the working directory leads to its file from
there. -/
theorem is_file_join_here (hfile : tree.isFile path = true) (hne : directory.text ≠ "")
    (hrelative : directory.isAbsolute = false) (hhere : directory.components = [.current]) :
    tree.isFile (directory.join path) = true := by
  obtain ⟨hpath, hend, content, hleads⟩ := is_file_iff_leads.mp hfile
  refine is_file_iff_leads.mpr ⟨(Path.is_absolute_join hpath hne).trans hrelative,
    (Path.end_in_step_join hrelative hne hpath).mpr hend, content, ?_⟩
  rw [Path.components_join hrelative hne hpath, hhere]
  exact leads_current_iff.mpr ((leads_components_iff hpath).mp hleads)

end FileTree

namespace Sources

variable {tree : FileTree} {path directory : Path} {paths : List Path} {written : String}

/-- What is found in the directory is found below it as it is written. A special character would be
taken for a pattern, and a leading dot in front of other steps is lost when files are found. -/
structure Findable (directory : Path) : Prop where
  plain : isPattern directory.text = false
  dot : directory.components.head? = some .current → directory.components = [.current]

/-- Nothing is found from the root. -/
theorem relative_of_found {pattern found : Path} {results : List Path} (hne : directory.text ≠ "")
    (h : Glob.glob tree (directory.join pattern).text = .ok results) (hfound : found ∈ results) :
    directory.isAbsolute = false := by
  obtain ⟨hjoin, -⟩ := Glob.glob_ok h hfound
  cases hpattern : pattern.isAbsolute with
  | true =>
      rw [Path.join_of_absolute hpattern, hpattern] at hjoin
      cases hjoin
  | false => exact (Path.is_absolute_join hpattern hne).symm.trans hjoin

/-- A path that a pattern finds, as seen from the directory, leads to a file from there. -/
theorem is_file_of_finds (hdirectory : Findable directory) (hwritten : isPattern written = true)
    (h : Finds tree directory written path) : tree.isFile (directory.join path) = true := by
  obtain ⟨results, hglob, found, hresult, hfile, rfl⟩ := h
  obtain ⟨hfoundPath, hend, -⟩ := FileTree.is_file_iff_leads.mp hfile
  by_cases hne : directory.text = ""
  · obtain rfl : directory = ⟨""⟩ := congrArg Path.mk hne
    rw [Path.relative_to_empty hfoundPath hend, Path.join_empty]
    exact hfile
  · have hrelative := relative_of_found hne hglob hresult
    by_cases hdot : directory.components.head? = some .current
    · -- what is found from the working directory may have lost the dot in front, or kept it
      have hhere := hdirectory.dot hdot
      by_cases hbelow : directory.components <+: found.components
      · refine FileTree.is_file_join_relative hfile hne hrelative hbelow ?_
        rw [hhere, FileTree.leads_current_iff]
        exact ⟨FileTree.working, rfl, rfl⟩
      · rw [Path.relativeTo, Path.stripBase?, if_neg (by rwa [List.isPrefixOf_iff_prefix])]
        exact FileTree.is_file_join_here hfile hne hrelative hhere
    · have hplain : Glob.IsPlain directory.text.toList := by
        simpa [Glob.IsPlain, isPattern, and_assoc] using hdirectory.plain
      have hwrittenNe : written ≠ "" := by
        rintro rfl
        exact absurd hwritten (by decide)
      obtain ⟨hinside, hleads⟩ :=
        Glob.glob_inside hrelative hne hplain hdot hwrittenNe hglob hresult
      have hbelow := (hinside.resolve_left (by simp [hfoundPath])).1
      exact FileTree.is_file_join_relative hfile hne hrelative hbelow hleads

/-- Below a directory that is written with a leading dot, a pattern finds paths without the dot.
They are kept as they are, and lead nowhere from the directory. -/
theorem dotted_directory_loses_files :
    ∃ tree, filesFor tree ⟨"./sub"⟩ "*.html" = .ok [⟨"sub/a.html"⟩] ∧
      tree.isFile ⟨"sub/a.html"⟩ = true ∧
      tree.isFile ((⟨"./sub"⟩ : Path).join ⟨"sub/a.html"⟩) = false :=
  ⟨⟨[(["", "sub"], .directory), (["", "sub", "a.html"], .file "x".toUTF8)]⟩, by decide +kernel⟩

/-- A path is kept as it is listed if its entry is neither a pattern nor takes anything away. -/
def IsListed (entries : List String) (path : Path) : Prop :=
  path.text ∈ entries ∧ path.text.toList.head? ≠ some '!' ∧ isPattern path.text = false

/-- An entry adds itself, files that are found, or nothing. -/
theorem add_entry_cases {listed : List Path} (hdirectory : Findable directory)
    (h : addEntry tree directory listed written = .ok paths) (hpath : path ∈ paths) :
    path ∈ listed ∨ IsListed [written] path ∨ tree.isFile (directory.join path) = true := by
  rcases add_entry_ok h with ⟨-, removed, rfl, -⟩ | ⟨hhead, rfl⟩
  · exact .inl (List.mem_filter.mp hpath).1
  · refine (mem_of_mem_add _ hpath).imp_right fun hmem => ?_
    have hcontributes := (mem_contribution.mp hmem).2
    split_ifs at hcontributes with hpattern
    · exact .inr (is_file_of_finds hdirectory hpattern hcontributes)
    · subst hcontributes
      exact .inl ⟨List.mem_singleton_self written, hhead, by simpa using hpattern⟩

/-- Every path of a source list is listed as it is, or is a file that a pattern found. The induction
is on the entries that are left. -/
theorem expand_cases {entries : List String} (hdirectory : Findable directory)
    (h : expand tree directory entries = .ok paths) (hpath : path ∈ paths) :
    IsListed entries path ∨ tree.isFile (directory.join path) = true := by
  have hfrom (listed : List Path)
      (hfold : entries.foldlM (addEntry tree directory) listed = .ok paths) :
      path ∈ listed ∨ IsListed entries path ∨ tree.isFile (directory.join path) = true := by
    clear h
    induction entries generalizing listed with
    | nil =>
        obtain rfl := Except.ok.inj hfold
        exact .inl hpath
    | cons written entries ih =>
        rw [List.foldlM_cons] at hfold
        obtain ⟨middle, hentry, hrest⟩ := except_bind_ok_iff.mp hfold
        rcases ih middle hrest with hmem | ⟨hentries, hlisted⟩ | hfile
        · refine (add_entry_cases hdirectory hentry hmem).imp_right (Or.imp_left ?_)
          rintro ⟨hwritten, hlisted⟩
          exact ⟨List.mem_singleton.mp hwritten ▸ List.mem_cons_self, hlisted⟩
        · exact .inr (.inl ⟨List.mem_cons_of_mem _ hentries, hlisted⟩)
        · exact .inr (.inr hfile)
  exact (hfrom [] h).resolve_left List.not_mem_nil

end Sources

namespace Job

/-- Sources are missing if their paths lead to no file. The induction is on the sources that are
left. -/
theorem compile_sources_missing (toolchain : Toolchain) (files : FileTree) (job : Job)
    (paths : List Path) :
    Gives (fun compiled => ∀ path ∈ compiled.1,
      path ∈ paths ∧ files.isFile (job.directory.join path) = false)
      (job.compileSources toolchain files paths) := by
  induction paths with
  | nil => exact .pure nofun
  | cons path paths ih =>
      simp only [compileSources]
      split_ifs with hfile
      · refine (Gives.any _).bind fun raw _ => (Gives.any _).bind fun compiled _ => ?_
        refine ih.bind fun others hothers => .pure fun missing hmissing => ?_
        exact (hothers missing hmissing).imp_left (List.mem_cons_of_mem _)
      · refine (Gives.any _).bind fun _ _ => ih.bind fun others hothers => .pure ?_
        refine List.forall_mem_cons.mpr ⟨⟨List.mem_cons_self, by simpa using hfile⟩, ?_⟩
        exact fun missing hmissing => (hothers missing hmissing).imp_left (List.mem_cons_of_mem _)

/-- A source that is missing is listed as it is: no pattern found it. -/
theorem missing_listed (toolchain : Toolchain) (files : FileTree) (job : Job)
    (hdirectory : Sources.Findable job.directory) :
    Gives (fun rendered : Rendered => ∀ path ∈ rendered.missing,
      Sources.IsListed job.sources path) (job.render toolchain files) := by
  unfold render
  refine (Gives.any _).bind fun resolved _ => (Gives.any _).bind fun _ _ => ?_
  refine (Gives.of_except fun paths hpaths => hpaths).bind fun paths hpaths => ?_
  rw [except_map_error_ok_iff] at hpaths
  refine (compile_sources_missing toolchain files job paths).bind fun compiled hcompiled => ?_
  refine (Gives.any _).bind fun text _ => .pure fun path hpath => ?_
  obtain ⟨hlisted, hmissing⟩ := hcompiled path hpath
  refine (Sources.expand_cases hdirectory hpaths hlisted).resolve_right fun hfile => ?_
  exact absurd (hmissing.symm.trans hfile) Bool.false_ne_true

end Job

end TemplateBundle

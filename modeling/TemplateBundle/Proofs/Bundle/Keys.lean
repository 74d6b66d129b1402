import Mathlib.Data.List.Nodup
import TemplateBundle.Proofs.Bundle.Assembling
import TemplateBundle.Proofs.Bundle.Recalling
import TemplateBundle.Proofs.FileTree.Reaching
import TemplateBundle.Proofs.Project.Listing
import TemplateBundle.Proofs.Text.QuotedValue

/-!
# Sources and keys

In a bundle of single templates without rules for names, each listed path that is a file is compiled
once, and its key is the path with `/` for each backslash (`sources_and_keys`). No two of these paths
have the same steps, so as long as they go down by names and hold no backslash they lead to different
files and get different keys. A file that is listed under two spellings is compiled twice, and two
files whose paths differ only by a backslash share a key (`spellings_share`).
-/

namespace TemplateBundle

/-! ## Lists without repetition -/

namespace Sources

variable {tree : FileTree} {directory path : Path} {entries : List String} {listed paths : List Path}

/-- No two of the paths have the same steps. -/
def Distinct (paths : List Path) : Prop :=
  paths.Pairwise fun first second => first.components ≠ second.components

theorem Distinct.add (h : Distinct listed) (path : Path) : Distinct (add listed path) := by
  unfold Sources.add
  split_ifs with hlisted
  · exact h
  · refine List.pairwise_append.mpr ⟨h, List.pairwise_singleton _ _, fun first hfirst other hother => ?_⟩
    rw [List.mem_singleton.mp hother]
    intro hsame
    exact hlisted (List.any_eq_true.mpr ⟨first, hfirst, beq_iff_eq.mpr hsame.symm⟩)

theorem Distinct.foldl_add (h : Distinct listed) (others : List Path) :
    Distinct (others.foldl Sources.add listed) := by
  induction others generalizing listed with
  | nil => exact h
  | cons path others ih => exact ih (h.add path)

theorem Distinct.add_entry {written : String} (h : Distinct listed)
    (hentry : addEntry tree directory listed written = .ok paths) : Distinct paths := by
  rcases add_entry_ok hentry with ⟨-, removed, rfl, -⟩ | ⟨-, rfl⟩
  · exact h.filter _
  · exact h.foldl_add _

/-- The induction is on the entries. -/
theorem Distinct.add_entries (h : Distinct listed)
    (hentries : entries.foldlM (addEntry tree directory) listed = .ok paths) : Distinct paths := by
  induction entries generalizing listed with
  | nil => exact Except.ok.inj hentries ▸ h
  | cons written entries ih =>
      rw [List.foldlM_cons] at hentries
      obtain ⟨middle, hentry, hrest⟩ := except_bind_ok_iff.mp hentries
      exact ih (h.add_entry hentry) hrest

/-- What a source list stands for has no repetition. -/
theorem expand_distinct (h : expand tree directory entries = .ok paths) : Distinct paths :=
  Distinct.add_entries .nil h

end Sources

/-! ## Keys -/

/-- Backslashes aside, the text of a path is what it shows. -/
theorem Path.display_of_no_backslash {path : Path} (h : '\\' ∉ path.text.toList) :
    path.display = path.text := by
  have hsame : path.text.toList.map (fun c => if c = '\\' then '/' else c) = path.text.toList := by
    refine (List.map_congr_left fun c hc => if_neg ?_).trans (List.map_id _)
    rintro rfl
    exact h hc
  unfold Path.display
  rw [hsame, String.ofList_toList]

theorem Text.quote_injective {first second : String} (h : Text.quote first = Text.quote second) :
    first = second := by
  have hfirst := Text.Quoted.value_quote first []
  rw [h, Text.Quoted.value_quote] at hfirst
  exact (Prod.mk.inj (Option.some.inj hfirst)).1.symm

theorem Bundle.slot_injective {resolved : ResolvedNamespace} {first second : String}
    (h : slot resolved first = slot resolved second) : first = second := by
  have htexts := congrArg String.toList h
  simp only [slot, String.toList_append, List.append_assoc, List.append_cancel_left_eq,
    List.append_cancel_right_eq] at htexts
  exact Text.quote_injective (String.toList_inj.mp htexts)

/-! ## Functions -/

/-- The usual compiler makes no blank functions. -/
theorem Compiler.tags_not_blank {settings : TemplateSettings} {template source : String}
    (h : Compiler.tags.source settings template = .ok source) (prettify : Bool) :
    Text.isBlank (Compiler.finish prettify source) = false := by
  have hcompile : Template.compile settings template = .ok source := h
  obtain ⟨tags, dataName, -, -, hsource, -⟩ := Template.source_of_compile hcompile
  have hhead : 'f' ∈ source.toList := by
    rw [hsource]
    unfold Template.functionText
    simp
  have hkept : 'f' ∈ (Compiler.finish prettify source).toList := by
    unfold Compiler.finish
    split_ifs
    · rw [String.toList_ofList]
      exact List.mem_filter.mpr ⟨hhead, rfl⟩
    · exact hhead
  exact Bool.eq_false_iff.mpr fun hblank =>
    absurd (List.all_eq_true.mp hblank _ hkept) (by decide)

namespace Job

variable {toolchain : Toolchain} {tree : FileTree} {job : Job} {paths : List Path}
  {contributed : List CompiledFile}

/-- The listed paths that are files. -/
def found (tree : FileTree) (job : Job) (paths : List Path) : List Path :=
  paths.filter fun path => tree.isFile (job.directory.join path)

/-- The template is that of the file: its key is the name of the path, its function that of what the
file holds. -/
structure IsTemplateOf (toolchain : Toolchain) (tree : FileTree) (job : Job) (path : Path)
    (template : CompiledTemplate) : Prop where
  key : template.id = job.options.nameRules.apply path.display
  function : ∃ raw source, tree.readText (job.directory.join path) = .ok raw ∧
    toolchain.compiler.source job.options.settings (job.options.contentRules.apply raw) =
      .ok source ∧
    template.source = Compiler.finish job.options.prettify source

/-- Each file contributes its template, in order. The induction is on the listed paths. -/
theorem contributions_single (hmode : job.options.mode = .single)
    (h : job.contributions toolchain tree paths = .ok contributed) :
    ∃ templates : List CompiledTemplate, contributed = templates.map .single ∧
      List.Forall₂ (job.IsTemplateOf toolchain tree) (job.found tree paths) templates := by
  induction paths generalizing contributed with
  | nil =>
      obtain rfl := Except.ok.inj h
      exact ⟨[], rfl, .nil⟩
  | cons path paths ih =>
      rw [contributions_cons] at h
      obtain ⟨entry, hentry, h⟩ := except_bind_ok_iff.mp h
      obtain ⟨others, hothers, h⟩ := except_bind_ok_iff.mp h
      obtain rfl := Except.ok.inj h
      obtain ⟨templates, rfl, htemplates⟩ := ih hothers
      unfold sourceResult at hentry
      unfold found at htemplates ⊢
      -- a path that is no file is passed over
      split_ifs at hentry with hfile
      · obtain ⟨raw, hread, hentry⟩ := except_bind_ok_iff.mp hentry
        obtain ⟨compiled, hcompiled, hentry⟩ := except_bind_ok_iff.mp hentry
        obtain rfl := Except.ok.inj hentry
        rw [Toolchain.compile_file_result_single hmode, Toolchain.compile_template_result]
          at hcompiled
        obtain ⟨function, hfunction, hcompiled⟩ := except_bind_ok_iff.mp hcompiled
        obtain rfl := Except.ok.inj hcompiled
        rw [except_map_error_ok_iff] at hread hfunction
        obtain ⟨source, hsource, rfl⟩ := except_map_ok_iff.mp hfunction
        rw [List.filter_cons, if_pos hfile]
        exact ⟨_, rfl, .cons ⟨rfl, raw, source, hread, hsource, rfl⟩ htemplates⟩
      · obtain rfl := Except.ok.inj hentry
        rw [List.filter_cons_of_neg (by simpa using hfile)]
        exact ⟨templates, rfl, htemplates⟩

/-- Without rules for names, keys are what the paths of the files show. -/
theorem keys_of_templates {templates : List CompiledTemplate}
    (hnames : job.options.nameRules.isIdentity = true)
    (h : List.Forall₂ (job.IsTemplateOf toolchain tree) paths templates) :
    templates.map CompiledTemplate.id = paths.map Path.display := by
  have hrules : job.options.nameRules = {} := beq_iff_eq.mp hnames
  induction h with
  | nil => rfl
  | cons hfirst _ ih =>
      have hkey := hfirst.key
      rw [hrules] at hkey
      rw [List.map_cons, List.map_cons, ih, hkey]
      exact congrArg (· :: _) String.ofList_toList

/-- The usual compiler leaves no template out. -/
theorem written_of_tags {templates : List CompiledTemplate} (htags : toolchain.compiler = .tags)
    (h : List.Forall₂ (job.IsTemplateOf toolchain tree) paths templates) :
    writtenTemplates templates = templates := by
  induction h with
  | nil => rfl
  | @cons path template _ _ hfirst _ ih =>
      obtain ⟨raw, source, -, hsource, hfunction⟩ := hfirst.function
      rw [htags] at hsource
      have hblank : template.isBlank = false := by
        rw [CompiledTemplate.isBlank, hfunction]
        exact Compiler.tags_not_blank hsource _
      unfold writtenTemplates at ih ⊢
      rw [List.filter_cons_of_pos (by simp [hblank]), ih]

/-- Keys are different where no path holds a backslash. -/
theorem keys_nodup (hpaths : Sources.Distinct paths)
    (hbackslash : ∀ path ∈ paths, '\\' ∉ path.text.toList) : (paths.map Path.display).Nodup := by
  refine List.pairwise_map.mpr (hpaths.imp_of_mem fun {first second} hfirst hsecond hne hkey => ?_)
  rw [Path.display_of_no_backslash (hbackslash _ hfirst),
    Path.display_of_no_backslash (hbackslash _ hsecond)] at hkey
  exact hne (congrArg Path.components (congrArg Path.mk hkey))

/-- Files whose paths go down by names are the same only under the same names. -/
theorem file_eq_iff {first second : Path}
    (hfirst : tree.isFile (job.directory.join first) = true)
    (hsecond : tree.isFile (job.directory.join second) = true)
    (hdown : first.GoesDown) (hother : second.GoesDown) :
    tree.resolve (job.directory.join first) = tree.resolve (job.directory.join second) ↔
      first.steps = second.steps := by
  have hresolves {path : Path} (hfile : tree.isFile path = true) :
      ∃ location, tree.resolve path = .ok location := by
    obtain ⟨content, hread⟩ := FileTree.is_file_iff.mp hfile
    obtain ⟨location, hresolve, -⟩ := FileTree.read_ok_iff.mp hread
    exact ⟨location, hresolve⟩
  obtain ⟨location, hlocation⟩ := hresolves hfirst
  obtain ⟨other, hotherLocation⟩ := hresolves hsecond
  rw [hlocation, hotherLocation, Except.ok.injEq]
  exact FileTree.resolve_join_eq_iff hlocation hotherLocation hdown hother

/-- Files are different where their paths go down by names, without a dot in front. -/
theorem locations_nodup (hpaths : Sources.Distinct paths)
    (hfiles : ∀ path ∈ paths, tree.isFile (job.directory.join path) = true)
    (hdown : ∀ path ∈ paths, path.GoesDown ∧ .current ∉ path.components) :
    (paths.map fun path => tree.resolve (job.directory.join path)).Nodup := by
  have hsteps {path : Path} (hpath : path ∈ paths) : path.steps = path.components :=
    List.filter_eq_self.mpr fun step hstep => by
      simpa using fun heq : step = .current => (hdown path hpath).2 (heq ▸ hstep)
  refine List.pairwise_map.mpr (hpaths.imp_of_mem fun {first second} hfirst hsecond hne hsame => ?_)
  have hnames := (file_eq_iff (hfiles _ hfirst) (hfiles _ hsecond) (hdown _ hfirst).1
    (hdown _ hsecond).1).mp hsame
  rw [hsteps hfirst, hsteps hsecond] at hnames
  exact hne hnames

/-- A job for sources in the working directory. -/
def listing (sources : List String) : Job where
  name := "t"
  destination := ⟨"t.js"⟩
  directory := ⟨""⟩
  sources := sources
  options := {}

/-- Three files. The paths of two of them differ by a backslash. -/
def spelledTree : FileTree :=
  ⟨[(["", "a.html"], .file "x".toUTF8), (["", "b"], .directory),
    (["", "b", "c.html"], .file "x".toUTF8), (["", "b\\c.html"], .file "x".toUTF8)]⟩

/-- The job is rendered with so many templates. -/
def RendersCount (tree : FileTree) (job : Job) (count : Nat) : Prop :=
  ∃ rendered, ((job.render {} tree).run []).1 = .ok rendered ∧ rendered.templates = count

theorem renders_count_of_letter {count : Nat}
    (h : (((job.render .knowingLetter tree).run []).1.toOption.map Rendered.templates) =
      some count) : job.RendersCount tree count := by
  rw [Toolchain.knowing_letter_eq] at h
  obtain ⟨rendered, hrendered, hcount⟩ := Option.map_eq_some_iff.mp h
  exact ⟨rendered, except_ok_iff_to_option.mpr hrendered, hcount⟩

end Job

end TemplateBundle

import Mathlib.Data.List.ReduceOption
import TemplateBundle.Proofs.Bundle.Inputs

/-!
# Which fault is reported

Faults of a build come in one order: those of the options, of the settings, of the source list, of
the sources one after the other, and last of a module that has too much to give back. `Job.Fails`
says this order without the computation, which reports the fault that comes first
(`render_fails_in_order`). So a fault depends on nothing that comes later.
-/

namespace TemplateBundle

open Reporting (Completes result_bind result_of_except Unswayed)

/-! ## One source -/

namespace Toolchain

variable {toolchain : Toolchain} {options : Options} {path : Path} {fragment : Option String}
  {text raw : String} {fault : BuildFault}

/-- The fragments of a document, behind the rules for its content. -/
def fragmentsOf (toolchain : Toolchain) (options : Options) (raw : String) :
    List Document.Fragment :=
  (toolchain.regions (options.contentRules.apply raw)).filterMap Document.Fragment.ofRegion?

/-- Why the content of a source does not compile: as a whole, or for the first of its fragments that
does not. -/
inductive Refuses (toolchain : Toolchain) (options : Options) (path : Path) (raw : String) :
    BuildFault → Prop where
  | whole {fault : CompileFault} (hmode : options.mode = .single)
      (hsource : toolchain.compiler.source options.settings (options.contentRules.apply raw) =
        .error fault) :
      Refuses toolchain options path raw (.template path none fault)
  | fragment {before after : List Document.Fragment} {fragment : Document.Fragment}
      {fault : CompileFault} (hmode : options.mode = .multiple)
      (hfragments : toolchain.fragmentsOf options raw = before ++ fragment :: after)
      (hbefore : ∀ earlier ∈ before, ∃ source,
        toolchain.compiler.source options.settings earlier.text = .ok source)
      (hsource : toolchain.compiler.source options.settings fragment.text = .error fault) :
      Refuses toolchain options path raw (.template path (some fragment.id) fault)

theorem compile_template_result (toolchain : Toolchain) (options : Options) (path : Path)
    (fragment : Option String) (text : String) :
    (toolchain.compileTemplate options path fragment text).result =
      ((toolchain.compiler.source options.settings text).map
        (Compiler.finish options.prettify)).mapError (.template path fragment) := by
  unfold compileTemplate
  cases toolchain.compiler.source options.settings text with
  | ok source =>
      rw [result_bind _ fun _ => .pure _]
      unfold reportSize
      split_ifs <;> rfl
  | error fault => rfl

theorem compile_template_error_iff :
    (toolchain.compileTemplate options path fragment text).result = .error fault ↔
      ∃ found, toolchain.compiler.source options.settings text = .error found ∧
        fault = .template path fragment found := by
  rw [compile_template_result]
  cases toolchain.compiler.source options.settings text with
  | ok source => simp [Except.map]
  | error found => simp [Except.map, eq_comm]

theorem compile_template_ok_iff :
    (∃ source, (toolchain.compileTemplate options path fragment text).result = .ok source) ↔
      ∃ source, toolchain.compiler.source options.settings text = .ok source := by
  rw [compile_template_result]
  cases toolchain.compiler.source options.settings text with
  | ok source => simp [Except.map]
  | error found => simp [Except.map]

theorem compile_file_result_single (hmode : options.mode = .single) :
    (toolchain.compileFile options path raw).result =
      (toolchain.compileTemplate options path none (options.contentRules.apply raw)).result >>=
        fun source => .ok (.single ⟨options.nameRules.apply path.display, source⟩) := by
  unfold compileFile
  rw [hmode]
  exact result_bind _ fun _ => .pure _

theorem compile_file_result_multiple (hmode : options.mode = .multiple) :
    (toolchain.compileFile options path raw).result =
      ((toolchain.fragmentsOf options raw).mapM fun fragment =>
        (toolchain.compileTemplate options path (some fragment.id) fragment.text).result >>=
          fun source => .ok ⟨fragment.id, source⟩) >>=
        fun templates => .ok (.multiple (options.nameRules.apply path.display) templates) := by
  have hfragment (fragment : Document.Fragment) : Unswayed (do
      let source ← toolchain.compileTemplate options path (some fragment.id) fragment.text
      pure ({ id := fragment.id, source := source } : CompiledTemplate)) :=
    (compile_template_unswayed toolchain options path _ _).bind fun _ => .pure _
  unfold compileFile compileFragments
  rw [hmode]
  refine (result_bind _ fun _ => (Unswayed.log _ _).bind fun _ => .pure _).trans ?_
  rw [Reporting.result_map_m hfragment]
  refine congrArg₂ _ (congrArg (List.mapM · _) (funext fun fragment => ?_)) rfl
  exact result_bind _ fun _ => .pure _

/-- Compiling a source fails just as it is refused. -/
theorem compile_file_error_iff :
    (toolchain.compileFile options path raw).result = .error fault ↔
      Refuses toolchain options path raw fault := by
  cases hmode : options.mode with
  | single =>
      rw [compile_file_result_single hmode, except_bind_value_error_iff,
        compile_template_error_iff]
      constructor
      · rintro ⟨found, hsource, rfl⟩
        exact .whole hmode hsource
      · rintro (⟨-, hsource⟩ | ⟨hother, -⟩)
        · exact ⟨_, hsource, rfl⟩
        · cases hmode.symm.trans hother
  | multiple =>
      rw [compile_file_result_multiple hmode, except_bind_value_error_iff, except_map_m_error_iff]
      simp only [except_bind_value_error_iff, except_bind_value_ok_iff,
        compile_template_error_iff, compile_template_ok_iff]
      constructor
      · rintro ⟨before, fragment, after, hfragments, hbefore, found, hsource, rfl⟩
        exact .fragment hmode hfragments hbefore hsource
      · rintro (⟨hother, -⟩ | ⟨-, hfragments, hbefore, hsource⟩)
        · cases hmode.symm.trans hother
        · exact ⟨_, _, _, hfragments, hbefore, _, hsource, rfl⟩

end Toolchain

/-! ## All sources -/

namespace Job

variable {toolchain : Toolchain} {files other : FileTree} {job : Job} {path : Path}
  {paths before after : List Path} {contributed : List CompiledFile} {fault : BuildFault}

/-- Why a listed path that is a file cannot be used: it holds no text, or its text does not compile.
A path that is no file is only missing. -/
inductive SourceFails (toolchain : Toolchain) (files : FileTree) (job : Job) (path : Path) :
    BuildFault → Prop where
  | notText (hfile : files.isFile (job.directory.join path) = true)
      (hread : files.readText (job.directory.join path) = .error .notText) :
      SourceFails toolchain files job path (.file (job.directory.join path) .notText)
  | refused {raw : String} {fault : BuildFault}
      (hread : files.readText (job.directory.join path) = .ok raw)
      (hrefused : toolchain.Refuses job.options path raw fault) :
      SourceFails toolchain files job path fault

/-- What a listed path contributes, if it is a file, without reports. -/
def sourceResult (toolchain : Toolchain) (files : FileTree) (job : Job) (path : Path) :
    Except BuildFault (Option CompiledFile) :=
  if files.isFile (job.directory.join path) then do
    let raw ← (files.readText (job.directory.join path)).mapError
      (.file (job.directory.join path))
    let compiled ← (toolchain.compileFile job.options path raw).result
    .ok (some compiled)
  else .ok none

/-- What the sources contribute together; nothing where one of them fails. -/
def contributions (toolchain : Toolchain) (files : FileTree) (job : Job) (paths : List Path) :
    Except BuildFault (List CompiledFile) :=
  (paths.mapM (job.sourceResult toolchain files)).map List.reduceOption

/-- A file is read as text unless it holds none. -/
theorem read_text_cases (h : files.isFile path = true) :
    files.readText path = .error .notText ∨ ∃ raw, files.readText path = .ok raw := by
  obtain ⟨content, hread⟩ := FileTree.is_file_iff.mp h
  unfold FileTree.readText
  rw [hread, except_ok_bind]
  cases String.fromUTF8? content with
  | none => exact .inl rfl
  | some raw => exact .inr ⟨raw, rfl⟩

theorem is_file_of_read_text {raw : String} (h : files.readText path = .ok raw) :
    files.isFile path = true := by
  obtain ⟨content, hread, -⟩ := except_bind_ok_iff.mp h
  exact FileTree.is_file_iff.mpr ⟨content, hread⟩

theorem SourceFails.is_file (h : SourceFails toolchain files job path fault) :
    files.isFile (job.directory.join path) = true := by
  cases h with
  | notText hfile hread => exact hfile
  | refused hread hrefused => exact is_file_of_read_text hread

theorem source_result_error_iff :
    job.sourceResult toolchain files path = .error fault ↔
      SourceFails toolchain files job path fault := by
  unfold sourceResult
  by_cases hfile : files.isFile (job.directory.join path) = true
  · rw [if_pos hfile]
    rcases read_text_cases hfile with hread | ⟨raw, hread⟩
    · rw [hread]
      constructor
      · rintro ⟨⟩
        exact .notText hfile hread
      · rintro (_ | ⟨hother, -⟩)
        · rfl
        · cases hread.symm.trans hother
    · have hcompile : ((toolchain.compileFile job.options path raw).result >>= fun compiled =>
          Except.ok (some compiled)) = .error fault ↔
            toolchain.Refuses job.options path raw fault := by
        rw [except_bind_value_error_iff, Toolchain.compile_file_error_iff]
      rw [hread]
      refine hcompile.trans ⟨.refused hread, ?_⟩
      rintro (⟨-, hother⟩ | ⟨hother, hrefused⟩)
      · cases hread.symm.trans hother
      · obtain rfl := Except.ok.inj (hread.symm.trans hother)
        exact hrefused
  · rw [if_neg hfile]
    exact ⟨nofun, fun h => absurd h.is_file hfile⟩

theorem source_result_ok_iff :
    (∃ result, job.sourceResult toolchain files path = .ok result) ↔
      ∀ fault, ¬SourceFails toolchain files job path fault := by
  simp only [← source_result_error_iff]
  cases job.sourceResult toolchain files path <;> simp

/-- The fault of the sources is that of the first one that fails. -/
theorem contributions_error_iff :
    job.contributions toolchain files paths = .error fault ↔
      ∃ before path after, paths = before ++ path :: after ∧
        (∀ earlier ∈ before, ∀ fault, ¬SourceFails toolchain files job earlier fault) ∧
        SourceFails toolchain files job path fault := by
  have hmap {found : Except BuildFault (List (Option CompiledFile))} :
      found.map List.reduceOption = .error fault ↔ found = .error fault := by
    cases found <;> simp [Except.map]
  unfold contributions
  rw [hmap, except_map_m_error_iff]
  simp only [source_result_ok_iff, source_result_error_iff]

theorem contributions_cons :
    job.contributions toolchain files (path :: paths) = (do
      let entry ← job.sourceResult toolchain files path
      let others ← job.contributions toolchain files paths
      .ok (entry.toList ++ others)) := by
  unfold contributions
  rw [List.mapM_cons]
  rcases job.sourceResult toolchain files path with fault | _ | compiled
  · rfl
  · cases paths.mapM (job.sourceResult toolchain files) <;> rfl
  · cases paths.mapM (job.sourceResult toolchain files) <;> rfl

/-- A source that fails leaves nothing of the list. The induction is on the sources before it. -/
theorem contributions_fail (hpath : path ∈ paths)
    (h : SourceFails toolchain files job path fault) :
    ∃ reported, job.contributions toolchain files paths = .error reported := by
  induction paths with
  | nil => cases hpath
  | cons first others ih =>
      rw [contributions_cons]
      cases hfirst : job.sourceResult toolchain files first with
      | error found => exact ⟨found, rfl⟩
      | ok entry =>
          rcases List.mem_cons.mp hpath with rfl | hpath
          · cases hfirst.symm.trans (source_result_error_iff.mpr h)
          · obtain ⟨reported, hreported⟩ := ih hpath
            rw [hreported]
            exact ⟨reported, rfl⟩

/-- What comes behind a source that fails does not matter. -/
theorem contributions_append_error (h : job.contributions toolchain files paths = .error fault)
    (others : List Path) :
    job.contributions toolchain files (paths ++ others) = .error fault := by
  obtain ⟨before, path, after, rfl, hbefore, hpath⟩ := contributions_error_iff.mp h
  refine contributions_error_iff.mpr ⟨before, path, after ++ others, ?_, hbefore, hpath⟩
  rw [List.append_assoc, List.cons_append]

/-- The induction is on the sources that are left. -/
theorem compile_sources_result (toolchain : Toolchain) (files : FileTree) (job : Job)
    (paths : List Path) :
    (job.compileSources toolchain files paths).result.map Prod.snd =
      job.contributions toolchain files paths := by
  induction paths with
  | nil => rfl
  | cons path paths ih =>
      have hrest := job.compile_sources_unswayed toolchain files paths
      rw [contributions_cons, ← ih]
      simp only [compileSources, sourceResult]
      split_ifs with hfile
      · rw [result_bind _ fun raw => (toolchain.compile_file_unswayed job.options path raw).bind
          fun _ => hrest.bind fun _ => .pure _, result_of_except]
        rcases (files.readText (job.directory.join path)).mapError
          (BuildFault.file (job.directory.join path)) with fault | raw
        · rfl
        rw [except_ok_bind, except_ok_bind, result_bind _ fun _ => hrest.bind fun _ => .pure _]
        rcases (toolchain.compileFile job.options path raw).result with fault | compiled
        · rfl
        rw [except_ok_bind, except_ok_bind, result_bind _ fun _ => .pure _]
        cases (job.compileSources toolchain files paths).result <;> rfl
      · rw [Reporting.result_log_bind _ _ (hrest.bind fun _ => .pure _),
          result_bind _ fun _ => .pure _]
        cases (job.compileSources toolchain files paths).result <;> rfl

/-- Sources that hold the same contribute the same. -/
theorem contributions_eq (toolchain : Toolchain)
    (h : ∀ path ∈ paths, FileTree.HoldsSame files other (job.directory.join path)) :
    job.contributions toolchain other paths = job.contributions toolchain files paths := by
  rw [← compile_sources_result, ← compile_sources_result, compile_sources_eq toolchain h]

end Job

/-! ## The module -/

namespace Bundle

variable {contributed : List CompiledFile} {resolved : Option ResolvedNamespace}
  {options : Options} {fault : BuildFault}

/-- Which templates are kept does not depend on what is reported of the others. -/
theorem keep_written_result (templates : List CompiledTemplate) :
    (keepWritten templates).result = .ok (templates.filter fun template => !template.isBlank) := by
  refine Reporting.result_filter (fun template start => ?_) templates
  cases template.isBlank <;> rfl

theorem keep_written_completes (templates : List CompiledTemplate) :
    Completes (keepWritten templates) :=
  fun start => ⟨_, ((keep_written_unswayed templates).run_result start).trans
    (keep_written_result templates)⟩

theorem entries_completes (resolved : ResolvedNamespace) (files : List CompiledFile) :
    Completes (entries resolved files) := by
  refine .filter_map (fun file => ?_) files
  cases file with
  | single template => exact (keep_written_completes _).bind fun _ => .pure _
  | multiple name templates =>
      refine (keep_written_completes _).bind fun kept => ?_
      cases kept with
      | nil => exact (Completes.log _ _).bind fun _ => .pure _
      | cons template kept => exact .pure _

theorem bare_entries_error_iff :
    (bareEntries contributed).result = .error fault ↔
      2 ≤ Job.countWritten contributed ∧ fault = .ambiguous (Job.countWritten contributed) := by
  unfold bareEntries Job.countWritten
  rw [result_bind _ fun kept => by
      rcases kept with _ | ⟨_, _ | _⟩
      exacts [.pure _, .pure _, .throw _], keep_written_result, except_ok_bind]
  generalize List.filter _ (contributed.flatMap CompiledFile.templates) = kept
  rcases kept with _ | ⟨first, _ | ⟨second, others⟩⟩
  · exact ⟨nofun, fun h => absurd h.1 (Nat.not_succ_le_zero _)⟩
  · exact ⟨nofun, fun h => absurd h.1 (Nat.lt_irrefl _)⟩
  · constructor
    · rintro ⟨⟩
      exact ⟨Nat.le_add_left 2 _, rfl⟩
    · rintro ⟨-, rfl⟩
      rfl

/-- Only a module does without a namespace. -/
theorem amd_of_resolve_none (h : options.resolveNamespace = .ok none) : options.amd = true := by
  unfold Options.resolveNamespace at h
  split at h
  · rename_i name hname
    cases hresolve : Namespace.resolve name with
    | error fault =>
        rw [hresolve] at h
        cases h
    | ok resolved =>
        rw [hresolve] at h
        cases h
  · by_contra hamd
    rw [if_neg hamd] at h
    cases h

/-- Only a module without a namespace can have too much in it. -/
theorem assemble_error_iff (hresolved : options.resolveNamespace = .ok resolved) :
    (assemble contributed resolved options).result = .error fault ↔
      resolved = none ∧ 2 ≤ Job.countWritten contributed ∧
        fault = .ambiguous (Job.countWritten contributed) := by
  cases resolved with
  | some resolved =>
      have hcompletes : Completes (assemble contributed (some resolved) options) := by
        refine (entries_completes resolved contributed).bind fun written => ?_
        simp only
        split_ifs <;> exact .pure _
      obtain ⟨text, htext⟩ := hcompletes []
      exact ⟨fun h => absurd (htext.symm.trans h) nofun, fun h => absurd h.1 nofun⟩
  | none =>
      unfold assemble
      rw [amd_of_resolve_none hresolved]
      refine (Completes.bind_error_iff fun written => ?_).trans
        (bare_entries_error_iff.trans (and_iff_right rfl).symm)
      simp only
      split_ifs <;> exact .pure _

end Bundle

/-! ## Settings -/

/-- Settings that the compiler of tags accepts do not fail for a template: only the script that the
template makes can be wrong. -/
theorem Compiler.tags_source_error {settings : TemplateSettings} {text : String}
    {fault : CompileFault} (hvalid : tags.validate settings = .ok ())
    (h : tags.source settings text = .error fault) : ∃ line, fault = .invalidScript line := by
  obtain ⟨pattern, hpattern, hvariable⟩ := except_bind_ok_iff.mp hvalid
  obtain ⟨name, hname, -⟩ := except_bind_ok_iff.mp hvariable
  have hsource : tags.source settings text = Template.compile settings text := rfl
  rw [hsource, Template.compile, hpattern, except_ok_bind, hname, except_ok_bind] at h
  dsimp only at h
  split at h
  · cases h
  · rename_i line _
    exact ⟨line, (Except.error.inj h).symm⟩

/-! ## The order of faults -/

namespace Job

variable {toolchain : Toolchain} {files : FileTree} {job : Job} {fault : BuildFault}

/-- Why the options of a job cannot be used, whatever its sources are: the namespace comes first,
then the settings. -/
inductive OptionsFail (toolchain : Toolchain) (job : Job) : BuildFault → Prop where
  | home {fault : NamespaceFault} (hnamespace : job.options.resolveNamespace = .error fault) :
      OptionsFail toolchain job (.project (.namespace fault))
  | settings {resolved : Option ResolvedNamespace} {fault : CompileFault}
      (hnamespace : job.options.resolveNamespace = .ok resolved)
      (hsettings : toolchain.compiler.validate job.options.settings = .error fault) :
      OptionsFail toolchain job (.settings job.name fault)

/-- The options of a job can be used, and this is its namespace. -/
structure OptionsHold (toolchain : Toolchain) (job : Job) (resolved : Option ResolvedNamespace) :
    Prop where
  home : job.options.resolveNamespace = .ok resolved
  settings : toolchain.compiler.validate job.options.settings = .ok ()

/-- Why a job is not rendered, one case for each kind of fault. What a case asks for excludes the
cases before it, and nothing is asked about what comes behind the fault. -/
inductive Fails (toolchain : Toolchain) (files : FileTree) (job : Job) : BuildFault → Prop where
  | options {fault : BuildFault} (hoptions : OptionsFail toolchain job fault) :
      Fails toolchain files job fault
  | sourceList {resolved : Option ResolvedNamespace} {fault : ProjectFault}
      (hoptions : OptionsHold toolchain job resolved)
      (hlist : Sources.expand files job.directory job.sources = .error fault) :
      Fails toolchain files job (.project fault)
  | source {resolved : Option ResolvedNamespace} {before after : List Path} {path : Path}
      {fault : BuildFault} (hoptions : OptionsHold toolchain job resolved)
      (hlist : Sources.expand files job.directory job.sources = .ok (before ++ path :: after))
      (hbefore : ∀ earlier ∈ before, ∀ fault, ¬SourceFails toolchain files job earlier fault)
      (hsource : SourceFails toolchain files job path fault) :
      Fails toolchain files job fault
  | ambiguous {paths : List Path} {contributed : List CompiledFile}
      (hoptions : OptionsHold toolchain job none)
      (hlist : Sources.expand files job.directory job.sources = .ok paths)
      (hsources : job.contributions toolchain files paths = .ok contributed)
      (hmany : 2 ≤ countWritten contributed) :
      Fails toolchain files job (.ambiguous (countWritten contributed))

theorem options_cases (toolchain : Toolchain) (job : Job) :
    (∃ fault, OptionsFail toolchain job fault) ∨
      ∃ resolved, OptionsHold toolchain job resolved := by
  cases hnamespace : job.options.resolveNamespace with
  | error fault => exact .inl ⟨_, .home hnamespace⟩
  | ok resolved =>
      cases hsettings : toolchain.compiler.validate job.options.settings with
      | error fault => exact .inl ⟨_, .settings hnamespace hsettings⟩
      | ok => exact .inr ⟨resolved, hnamespace, hsettings⟩

/-- Options that fail are looked at before anything else. -/
theorem OptionsFail.render_result (h : OptionsFail toolchain job fault) (files : FileTree) :
    (job.render toolchain files).result = .error fault := by
  unfold render
  cases h with
  | home hnamespace => rw [hnamespace]; rfl
  | settings hnamespace hsettings => rw [hnamespace, hsettings]; rfl

/-- Behind options that hold there are the source list, the sources and the module. -/
theorem OptionsHold.render_error_iff {resolved : Option ResolvedNamespace}
    (h : OptionsHold toolchain job resolved) :
    (job.render toolchain files).result = .error fault ↔
      ((Sources.expand files job.directory job.sources).mapError BuildFault.project >>= fun paths =>
        job.contributions toolchain files paths >>= fun contributed =>
          (Bundle.assemble contributed resolved job.options).result) = .error fault := by
  unfold render
  rw [h.home, h.settings]
  cases Sources.expand files job.directory job.sources with
  | error found => exact except_error_iff
  | ok paths =>
      simp only [except_map_error_ok, Reporting.of_except_ok_bind, except_ok_bind]
      rw [result_bind _ fun _ => (Bundle.assemble_unswayed _ _ _).bind fun _ => .pure _,
        ← compile_sources_result]
      rcases (job.compileSources toolchain files paths).result with found | ⟨missing, contributed⟩
      · exact except_error_iff
      · exact Completes.bind_error_iff fun text => .pure _

/-- Rendering fails just as the order of faults says. -/
theorem render_error_iff :
    (job.render toolchain files).result = .error fault ↔ Fails toolchain files job fault := by
  constructor
  · intro h
    rcases options_cases toolchain job with ⟨found, hoptions⟩ | ⟨resolved, hoptions⟩
    · obtain rfl := Except.error.inj ((hoptions.render_result files).symm.trans h)
      exact .options hoptions
    · rw [hoptions.render_error_iff] at h
      -- the options hold, so the first stage that fails decides
      cases hlist : Sources.expand files job.directory job.sources with
      | error found =>
          rw [hlist] at h
          cases h
          exact .sourceList hoptions hlist
      | ok paths =>
          rw [hlist, except_map_error_ok, except_ok_bind] at h
          cases hsources : job.contributions toolchain files paths with
          | error found =>
              rw [hsources] at h
              cases h
              obtain ⟨before, path, after, rfl, hbefore, hsource⟩ :=
                contributions_error_iff.mp hsources
              exact .source hoptions hlist hbefore hsource
          | ok contributed =>
              rw [hsources, except_ok_bind, Bundle.assemble_error_iff hoptions.home] at h
              obtain ⟨rfl, hmany, rfl⟩ := h
              exact .ambiguous hoptions hlist hsources hmany
  · rintro (hoptions | ⟨hoptions, hlist⟩ | ⟨hoptions, hlist, hbefore, hsource⟩ |
      ⟨hoptions, hlist, hsources, hmany⟩)
    · exact hoptions.render_result files
    · rw [hoptions.render_error_iff, hlist]
      rfl
    · rw [hoptions.render_error_iff, hlist, except_map_error_ok, except_ok_bind,
        contributions_error_iff.mpr ⟨_, _, _, rfl, hbefore, hsource⟩]
      rfl
    · rw [hoptions.render_error_iff, hlist, except_map_error_ok, except_ok_bind, hsources,
        except_ok_bind, Bundle.assemble_error_iff hoptions.home]
      exact ⟨rfl, hmany, rfl⟩

/-- A list that begins with sources one of which fails has that fault. -/
theorem OptionsHold.render_sources_error {resolved : Option ResolvedNamespace}
    {listed others : List Path} (h : OptionsHold toolchain job resolved)
    (hlist : Sources.expand files job.directory job.sources = .ok (listed ++ others))
    (hfault : job.contributions toolchain files listed = .error fault) :
    (job.render toolchain files).result = .error fault := by
  rw [h.render_error_iff, hlist, except_map_error_ok, except_ok_bind,
    contributions_append_error hfault others]
  rfl

/-- A template that is refused with settings that hold has a script that is wrong. -/
theorem Fails.script_of_template {path : Path} {fragment : Option String} {found : CompileFault}
    (h : Fails toolchain files job (.template path fragment found))
    (htags : toolchain.compiler = Compiler.tags) : ∃ line, found = .invalidScript line := by
  cases h with
  | options hoptions => cases hoptions
  | source hoptions hlist hbefore hsource =>
      have hvalid := hoptions.settings
      cases hsource with
      | refused hread hrefused =>
          rw [htags] at hvalid
          cases hrefused with
          | whole hmode hsource =>
              rw [htags] at hsource
              exact Compiler.tags_source_error hvalid hsource
          | fragment hmode hfragments hbefore hsource =>
              rw [htags] at hsource
              exact Compiler.tags_source_error hvalid hsource

/-- Faults come in one order, and nothing behind the fault has a part in it. Options that fail give
the same fault for any files and any source list. Two trees that list the same paths up to one that
fails, and hold the same there, give the same fault whatever comes behind. With the compiler of
tags, a template is only refused for its script. -/
theorem render_fails_in_order (toolchain : Toolchain) (files : FileTree) (job : Job) :
    (∀ log fault, ((job.render toolchain files).run log).1 = .error fault ↔
      Fails toolchain files job fault) ∧
    (∀ fault, OptionsFail toolchain job fault → ∀ (other : FileTree) (sources : List String) log,
      ((({ job with sources := sources } : Job).render toolchain other).run log).1 =
        .error fault) ∧
    (∀ (other : FileTree) before path after others fault,
      Sources.expand files job.directory job.sources = .ok (before ++ path :: after) →
      Sources.expand other job.directory job.sources = .ok (before ++ path :: others) →
      (∀ source ∈ before ++ [path],
        FileTree.HoldsSame files other (job.directory.join source)) →
      SourceFails toolchain files job path fault →
      ∃ reported, ∀ log, ((job.render toolchain files).run log).1 = .error reported ∧
        ((job.render toolchain other).run log).1 = .error reported) ∧
    (toolchain.compiler = Compiler.tags → ∀ log path fragment fault,
      ((job.render toolchain files).run log).1 = .error (.template path fragment fault) →
      ∃ line, fault = .invalidScript line) := by
  have hrun (tree : FileTree) (log : Log) :=
    (job.render_unswayed toolchain tree).run_result log
  refine ⟨fun log fault => ?_, fun fault hoptions other sources log => ?_,
    fun other before path after others fault hlist hother hsame hsource => ?_,
    fun htags log path fragment fault hrender => ?_⟩
  · rw [hrun files log]
    exact render_error_iff
  · rw [(render_unswayed toolchain other _).run_result log]
    -- the options are checked before the source list is looked at
    have hothers : OptionsFail toolchain { job with sources := sources } fault := by
      cases hoptions with
      | home hnamespace => exact .home hnamespace
      | settings hnamespace hsettings => exact .settings hnamespace hsettings
    exact hothers.render_result other
  · rcases options_cases toolchain job with ⟨found, hoptions⟩ | ⟨resolved, hoptions⟩
    · refine ⟨found, fun log => ?_⟩
      rw [hrun files log, hrun other log]
      exact ⟨hoptions.render_result files, hoptions.render_result other⟩
    · -- the sources are compiled in turn, so the fault comes before those that differ are reached
      have hlisted (rest : List Path) : before ++ path :: rest = (before ++ [path]) ++ rest :=
        List.append_cons before path rest
      obtain ⟨reported, hreported⟩ := contributions_fail
        (List.mem_append_right before List.mem_cons_self) hsource
      have hreportedOther := (contributions_eq toolchain hsame).trans hreported
      refine ⟨reported, fun log => ?_⟩
      rw [hrun files log, hrun other log]
      exact ⟨hoptions.render_sources_error (hlist.trans (congrArg _ (hlisted after))) hreported,
        hoptions.render_sources_error (hother.trans (congrArg _ (hlisted others))) hreportedOther⟩
  · rw [hrun files log] at hrender
    exact (render_error_iff.mp hrender).script_of_template htags

/-- Of two sources that cannot be used the first one is reported; the other one is no text. -/
theorem first_broken_source_reported :
    Fails { compiler := .tags }
      ⟨[(["", "a"], .file "<% ) %>".toUTF8), (["", "b"], .file ⟨#[255]⟩)]⟩
      { name := "t", destination := ⟨"o"⟩, directory := ⟨""⟩, sources := ["a", "b"], options := {} }
      (.template ⟨"a"⟩ none (.invalidScript 7)) :=
  ((render_fails_in_order _ _ _).1 [] _).mp (by decide +kernel)

end Job

end TemplateBundle

import TemplateBundle.Proofs.Bundle.Faults

/-!
# What goes into a bundle

Assembling drops blank templates and documents that are left without any, and puts all others into
the text in their order (`Puts`). Without a module around it the text of a bundle is a function of
the files (`scriptText`) that takes files side by side to texts side by side
(`script_text_append`). `assembly_keeps_all` says this together with what a module adds, when a
module has too much to return, and that the count of a rendered bundle is that of the templates in
its text.
-/

namespace TemplateBundle

open Reporting (result_bind result_of_except Unswayed)

/-! ## Files without blank templates -/

/-- The templates that are not blank. -/
def writtenTemplates (templates : List CompiledTemplate) : List CompiledTemplate :=
  templates.filter fun template => !template.isBlank

/-- A file without its blank templates, if that leaves any. -/
def CompiledFile.withoutBlank? : CompiledFile → Option CompiledFile
  | .single template => if template.isBlank then none else some (.single template)
  | .multiple name templates =>
      if writtenTemplates templates = [] then none
      else some (.multiple name (writtenTemplates templates))

/-- Files without their blank templates, and without the files that this leaves empty. -/
def withoutBlank (files : List CompiledFile) : List CompiledFile :=
  files.filterMap CompiledFile.withoutBlank?

/-- Some blank templates, and some files that have no templates, are taken out of a list of
files. -/
inductive Thins : List CompiledFile → List CompiledFile → Prop where
  | nil : Thins [] []
  | keep (file : CompiledFile) {files fewer : List CompiledFile} (hfiles : Thins files fewer) :
      Thins (file :: files) (file :: fewer)
  | single {template : CompiledTemplate} {files fewer : List CompiledFile}
      (hblank : template.isBlank = true) (hfiles : Thins files fewer) :
      Thins (.single template :: files) fewer
  | empty (name : String) {files fewer : List CompiledFile} (hfiles : Thins files fewer) :
      Thins (.multiple name [] :: files) fewer
  | inside {name : String} {before after : List CompiledTemplate} {template : CompiledTemplate}
      {files fewer : List CompiledFile} (hblank : template.isBlank = true)
      (hfiles : Thins (.multiple name (before ++ after) :: files) fewer) :
      Thins (.multiple name (before ++ template :: after) :: files) fewer

variable {file fewerFile : CompiledFile} {files fewer first second : List CompiledFile}
  {template : CompiledTemplate} {before after : List CompiledTemplate} {name : String}

theorem written_templates_blank (hblank : template.isBlank = true) :
    writtenTemplates (before ++ template :: after) = writtenTemplates (before ++ after) := by
  unfold writtenTemplates
  rw [List.filter_append, List.filter_append, List.filter_cons_of_neg (by simp [hblank])]

theorem CompiledFile.without_blank_single (hblank : template.isBlank = true) :
    (CompiledFile.single template).withoutBlank? = none :=
  if_pos hblank

theorem CompiledFile.without_blank_inside (hblank : template.isBlank = true) :
    (CompiledFile.multiple name (before ++ template :: after)).withoutBlank? =
      (CompiledFile.multiple name (before ++ after)).withoutBlank? := by
  simp only [withoutBlank?, written_templates_blank hblank]

theorem Thins.without_blank_eq (h : Thins files fewer) :
    withoutBlank fewer = withoutBlank files := by
  induction h with
  | nil => rfl
  | keep file hfiles ih =>
      unfold withoutBlank at ih ⊢
      rw [List.filterMap_cons, List.filterMap_cons, ih]
  | single hblank hfiles ih =>
      rw [ih]
      exact (List.filterMap_cons_none (CompiledFile.without_blank_single hblank)).symm
  | empty name hfiles ih => exact ih
  | inside hblank hfiles ih =>
      rw [ih]
      unfold withoutBlank
      rw [List.filterMap_cons, List.filterMap_cons, CompiledFile.without_blank_inside hblank]

/-- The templates of a file that is left are those that are not blank, and there are some. -/
theorem CompiledFile.templates_without_blank (h : file.withoutBlank? = some fewerFile) :
    fewerFile.templates = writtenTemplates file.templates ∧ fewerFile.templates ≠ [] := by
  cases file with
  | single template =>
      obtain ⟨hblank, heq⟩ := Option.ite_none_left_eq_some.mp h
      cases heq
      simp [CompiledFile.templates, writtenTemplates, hblank]
  | multiple name templates =>
      obtain ⟨hkept, heq⟩ := Option.ite_none_left_eq_some.mp h
      cases heq
      exact ⟨rfl, hkept⟩

/-- A file is left out if all its templates are blank. -/
theorem CompiledFile.without_blank_eq_none_iff :
    file.withoutBlank? = none ↔ writtenTemplates file.templates = [] := by
  cases file with
  | single template => simp [withoutBlank?, writtenTemplates, CompiledFile.templates]
  | multiple name templates => simp [withoutBlank?, CompiledFile.templates]

/-- The templates that are left are those that are not blank, in their order. -/
theorem templates_without_blank (files : List CompiledFile) :
    (withoutBlank files).flatMap CompiledFile.templates =
      writtenTemplates (files.flatMap CompiledFile.templates) := by
  induction files with
  | nil => rfl
  | cons file files ih =>
      have hsplit : writtenTemplates ((file :: files).flatMap CompiledFile.templates) =
          writtenTemplates file.templates ++
            writtenTemplates (files.flatMap CompiledFile.templates) := by
        rw [List.flatMap_cons]
        exact List.filter_append _ _
      rw [hsplit, ← ih]
      unfold withoutBlank
      cases hfile : file.withoutBlank? with
      | none =>
          rw [List.filterMap_cons_none hfile,
            CompiledFile.without_blank_eq_none_iff.mp hfile, List.nil_append]
      | some fewerFile =>
          rw [List.filterMap_cons_some hfile, List.flatMap_cons,
            (CompiledFile.templates_without_blank hfile).1]

theorem templates_ne_nil_of_mem (h : file ∈ withoutBlank files) : file.templates ≠ [] := by
  obtain ⟨whole, -, hwhole⟩ := List.mem_filterMap.mp h
  exact (CompiledFile.templates_without_blank hwhole).2

theorem without_blank_eq_nil_iff :
    withoutBlank files = [] ↔
      ∀ template ∈ files.flatMap CompiledFile.templates, template.isBlank = true := by
  have hwritten : withoutBlank files = [] ↔
      writtenTemplates (files.flatMap CompiledFile.templates) = [] := by
    rw [← templates_without_blank]
    refine ⟨fun h => by rw [h]; rfl, fun h => ?_⟩
    refine List.eq_nil_iff_forall_not_mem.mpr fun file hfile => templates_ne_nil_of_mem hfile ?_
    exact List.flatMap_eq_nil_iff.mp h file hfile
  rw [hwritten]
  simp [writtenTemplates]

/-! ## Entries -/

namespace Bundle

variable {resolved : ResolvedNamespace} {options : Options}

/-- The entry of a file. -/
def entry (resolved : ResolvedNamespace) : CompiledFile → String
  | .single template => singleEntry resolved template
  | .multiple name templates => documentEntry resolved name templates

theorem assignments_result (resolved : ResolvedNamespace) (file : CompiledFile) :
    (assignments? resolved file).result = .ok (file.withoutBlank?.map (entry resolved)) := by
  cases file with
  | single template =>
      refine (result_bind _ fun kept => .pure _).trans ?_
      rw [keep_written_result, except_ok_bind]
      cases hblank : template.isBlank <;>
        simp [CompiledFile.withoutBlank?, hblank, entry, Reporting.result]
  | multiple name templates =>
      refine (result_bind _ fun kept => ?_).trans ?_
      · cases kept with
        | nil => exact (Unswayed.log _ _).bind fun _ => .pure _
        | cons template kept => exact .pure _
      · rw [keep_written_result, except_ok_bind, CompiledFile.withoutBlank?]
        unfold writtenTemplates
        cases templates.filter fun template => !template.isBlank <;> rfl

theorem entries_result (resolved : ResolvedNamespace) (files : List CompiledFile) :
    (entries resolved files).result = .ok ((withoutBlank files).map (entry resolved)) := by
  unfold withoutBlank
  rw [List.map_filterMap]
  exact Reporting.result_filter_map (assignments_unswayed resolved) (assignments_result resolved)
    files

/-! ## The text without a module -/

/-- What stands in front of the first assignment: the declaration of the namespace, if there is
one. -/
def opening (resolved : ResolvedNamespace) (options : Options) : String :=
  if resolved.declaration = "" then "" else resolved.declaration ++ joint options

/-- The text of a bundle that is no module. -/
def scriptText (resolved : ResolvedNamespace) (options : Options) (files : List CompiledFile) :
    Option String :=
  if withoutBlank files = [] then none
  else some (opening resolved options ++
    (joint options).intercalate ((withoutBlank files).map (entry resolved)))

/-- The entries of a bundle with the declaration of its namespace. -/
def declaredEntries (resolved : ResolvedNamespace) (files : List CompiledFile) : List String :=
  if resolved.declaration = "" then files.map (entry resolved)
  else resolved.declaration :: files.map (entry resolved)

/-- The parts of a bundle, in which a module stands around the entries. -/
def bundleParts (resolved : ResolvedNamespace) (options : Options) (files : List CompiledFile) :
    List String :=
  if options.amd then wrapModule options.prettify (some resolved) (declaredEntries resolved files)
  else declaredEntries resolved files

theorem assemble_result (resolved : ResolvedNamespace) (options : Options)
    (files : List CompiledFile) :
    (assemble files (some resolved) options).result =
      .ok (if withoutBlank files = [] then none
        else some ((joint options).intercalate
          (bundleParts resolved options (withoutBlank files)))) := by
  unfold assemble
  refine (result_bind _ fun written => ?_).trans ?_
  · simp only
    split_ifs <;> exact .pure _
  · rw [entries_result, except_ok_bind]
    cases withoutBlank files with
    | nil => rfl
    | cons file files => rfl

theorem intercalate_declared (resolved : ResolvedNamespace) (options : Options)
    (hfiles : files ≠ []) :
    (joint options).intercalate (declaredEntries resolved files) =
      opening resolved options ++ (joint options).intercalate (files.map (entry resolved)) := by
  unfold declaredEntries opening
  split_ifs
  · rw [String.empty_append]
  · rw [String.intercalate_cons_of_ne_nil (by simpa using hfiles)]

theorem assemble_script (resolved : ResolvedNamespace) (options : Options)
    (files : List CompiledFile) :
    (assemble files (some resolved) { options with amd := false }).result =
      .ok (scriptText resolved options files) := by
  rw [assemble_result]
  unfold scriptText
  split_ifs with hfiles
  · rfl
  · exact congrArg (Except.ok ∘ some) (intercalate_declared resolved options hfiles)

/-- A module stands around the text that the bundle would have without one, and returns the
namespace. -/
theorem assemble_module (resolved : ResolvedNamespace) (options : Options)
    (files : List CompiledFile) :
    (assemble files (some resolved) { options with amd := true, prettify := false }).result =
      .ok ((scriptText resolved options files).map fun text =>
        moduleOpening ++ joint options ++ text ++ joint options ++
          ("  return " ++ resolved.expression ++ ";") ++ joint options ++ moduleClosing) := by
  rw [assemble_result]
  unfold scriptText
  split_ifs with hfiles
  · rfl
  · refine congrArg (Except.ok ∘ some) ?_
    have hentries : declaredEntries resolved (withoutBlank files) ≠ [] := by
      unfold declaredEntries
      split_ifs
      · simpa using hfiles
      · exact List.cons_ne_nil _ _
    rw [← intercalate_declared resolved options hfiles]
    show (joint options).intercalate ([moduleOpening] ++ declaredEntries resolved _ ++
      ["  return " ++ resolved.expression ++ ";"] ++ [moduleClosing]) = _
    rw [String.intercalate_append_of_ne_nil (by simp) (by simp),
      String.intercalate_append_of_ne_nil (by simp) (by simp),
      String.intercalate_append_of_ne_nil (by simp) hentries]
    simp only [String.intercalate_singleton]

/-- The texts of two lists of files side by side, of which the second one is not opened again. -/
theorem script_text_append (resolved : ResolvedNamespace) (options : Options)
    (first second : List CompiledFile) :
    match scriptText resolved options first, scriptText resolved options second with
    | some before, some behind => ∃ rest, behind = opening resolved options ++ rest ∧
        scriptText resolved options (first ++ second) = some (before ++ joint options ++ rest)
    | some before, none => scriptText resolved options (first ++ second) = some before
    | none, other => scriptText resolved options (first ++ second) = other := by
  have happend : withoutBlank (first ++ second) = withoutBlank first ++ withoutBlank second :=
    List.filterMap_append
  unfold scriptText
  rw [happend]
  by_cases hfirst : withoutBlank first = []
  · rw [hfirst, if_pos rfl, List.nil_append]
  · rw [if_neg hfirst, if_neg (List.append_ne_nil_of_left_ne_nil hfirst _)]
    by_cases hsecond : withoutBlank second = []
    · rw [hsecond, if_pos rfl, List.append_nil]
    · rw [if_neg hsecond]
      refine ⟨_, rfl, ?_⟩
      rw [List.map_append, String.intercalate_append_of_ne_nil (by simpa using hfirst)
        (by simpa using hsecond)]
      simp only [String.append_assoc]

theorem script_text_eq_none_iff (resolved : ResolvedNamespace) (options : Options)
    (files : List CompiledFile) :
    scriptText resolved options files = none ↔
      ∀ template ∈ files.flatMap CompiledFile.templates, template.isBlank = true := by
  rw [← without_blank_eq_nil_iff]
  unfold scriptText
  split_ifs with hfiles
  · exact iff_of_true rfl hfiles
  · exact iff_of_false nofun hfiles

theorem script_text_thinned (h : Thins files fewer) (resolved : ResolvedNamespace)
    (options : Options) :
    scriptText resolved options fewer = scriptText resolved options files := by
  unfold scriptText
  rw [h.without_blank_eq]

/-! ## The templates in a text -/

/-- The text holds the templates, each once and in this order: as assignments, file by file, or as
what a module returns. -/
inductive Puts (options : Options) :
    Option ResolvedNamespace → List CompiledTemplate → String → Prop where
  | assigned {resolved : ResolvedNamespace} {files : List CompiledFile} (hfiles : files ≠ [])
      (htemplates : ∀ file ∈ files, file.templates ≠ []) :
      Puts options (some resolved) (files.flatMap CompiledFile.templates)
        ((joint options).intercalate (bundleParts resolved options files))
  | returned (template : CompiledTemplate) :
      Puts options none [template]
        ((joint options).intercalate
          (wrapModule options.prettify none ["return " ++ template.source ++ ";"]))

/-- A text holds at least one template. -/
theorem Puts.ne_nil {resolved : Option ResolvedNamespace} {templates : List CompiledTemplate}
    {text : String} (h : Puts options resolved templates text) : templates ≠ [] := by
  cases h with
  | assigned hfiles htemplates =>
      obtain ⟨file, files, rfl⟩ := List.exists_cons_of_ne_nil hfiles
      rw [List.flatMap_cons]
      exact List.append_ne_nil_of_left_ne_nil (htemplates file List.mem_cons_self) _
  | returned template => exact List.cons_ne_nil _ _

/-- What a bundle without a namespace returns is its only template. -/
theorem assemble_bare_result (hamd : options.amd = true) (files : List CompiledFile) :
    (assemble files none options).result =
      match writtenTemplates (files.flatMap CompiledFile.templates) with
      | [] => .ok none
      | [template] => .ok (some ((joint options).intercalate
          (wrapModule options.prettify none ["return " ++ template.source ++ ";"])))
      | kept => .error (.ambiguous kept.length) := by
  unfold assemble
  simp only [hamd, if_true]
  refine (result_bind _ fun written => ?_).trans ?_
  · split_ifs <;> exact .pure _
  · unfold bareEntries
    rw [result_bind _ fun kept => by
        rcases kept with _ | ⟨_, _ | _⟩
        exacts [.pure _, .pure _, .throw _], keep_written_result, except_ok_bind]
    unfold writtenTemplates
    generalize List.filter _ (files.flatMap CompiledFile.templates) = kept
    rcases kept with _ | ⟨first, _ | ⟨second, others⟩⟩ <;> rfl

/-- Without a namespace, more than one template is too much for a module. -/
theorem assemble_bare_error_iff {fault : BuildFault} (hamd : options.amd = true) :
    (assemble files none options).result = .error fault ↔
      2 ≤ (writtenTemplates (files.flatMap CompiledFile.templates)).length ∧
        fault = .ambiguous (writtenTemplates (files.flatMap CompiledFile.templates)).length := by
  rw [assemble_bare_result hamd]
  rcases writtenTemplates (files.flatMap CompiledFile.templates) with
    _ | ⟨first, _ | ⟨second, others⟩⟩
  · exact iff_of_false nofun fun h => absurd h.1 (by decide)
  · exact iff_of_false nofun fun h => absurd h.1 (Nat.lt_irrefl 1)
  · exact ⟨fun h => ⟨Nat.le_add_left 2 _, (Except.error.inj h).symm⟩, fun h => by rw [h.2]⟩

/-- Assembling puts the templates that are not blank into a text, if there are any. -/
theorem assemble_puts {resolved : Option ResolvedNamespace} {text : String}
    (hamd : resolved = none → options.amd = true)
    (h : (assemble files resolved options).result = .ok (some text)) :
    Puts options resolved (writtenTemplates (files.flatMap CompiledFile.templates)) text := by
  cases resolved with
  | some resolved =>
      rw [assemble_result] at h
      split_ifs at h with hfiles
      · cases h
      · cases h
        rw [← templates_without_blank]
        exact .assigned hfiles fun file hfile => templates_ne_nil_of_mem hfile
  | none =>
      rw [assemble_bare_result (hamd rfl)] at h
      split at h
      · cases h
      · rename_i template hkept
        cases h
        rw [hkept]
        exact .returned template
      · cases h

end Bundle

/-! ## Rendered bundles -/

namespace Job

variable {toolchain : Toolchain} {tree : FileTree} {job : Job} {rendered : Rendered}

/-- What went into a rendered bundle. -/
structure Renders (toolchain : Toolchain) (tree : FileTree) (job : Job) (rendered : Rendered)
    (resolved : Option ResolvedNamespace) (contributed : List CompiledFile) : Prop where
  home : job.options.resolveNamespace = .ok resolved
  sources : ∃ paths, Sources.expand tree job.directory job.sources = .ok paths ∧
    job.contributions toolchain tree paths = .ok contributed
  text : (Bundle.assemble contributed resolved job.options).result = .ok rendered.text
  templates : rendered.templates = if rendered.text.isSome then countWritten contributed else 0

theorem renders_of_render (h : (job.render toolchain tree).result = .ok rendered) :
    ∃ resolved contributed, Renders toolchain tree job rendered resolved contributed := by
  rcases options_cases toolchain job with ⟨fault, hoptions⟩ | ⟨resolved, hoptions⟩
  · cases (hoptions.render_result tree).symm.trans h
  unfold render at h
  rw [hoptions.home, hoptions.settings] at h
  cases hlist : Sources.expand tree job.directory job.sources with
  | error found =>
      rw [hlist] at h
      cases h
  | ok paths =>
      simp only [hlist, except_map_error_ok, Reporting.of_except_ok_bind] at h
      rw [result_bind _ fun _ => (Bundle.assemble_unswayed _ _ _).bind fun _ => .pure _] at h
      obtain ⟨⟨missing, contributed⟩, hsources, h⟩ := except_bind_ok_iff.mp h
      rw [result_bind _ fun _ => .pure _] at h
      obtain ⟨text, htext, h⟩ := except_bind_ok_iff.mp h
      cases h
      refine ⟨resolved, contributed, hoptions.home, ⟨paths, hlist, ?_⟩, htext, rfl⟩
      rw [← compile_sources_result, hsources]
      rfl

/-- The count of a rendered bundle is that of the templates in its text. -/
theorem Renders.counts {resolved : Option ResolvedNamespace} {contributed : List CompiledFile}
    (h : Renders toolchain tree job rendered resolved contributed) :
    (rendered.templates = 0 ↔ rendered.text = none) ∧
      ∀ text, rendered.text = some text → ∃ put, Bundle.Puts job.options resolved put text ∧
        put = writtenTemplates (contributed.flatMap CompiledFile.templates) ∧
        rendered.templates = put.length := by
  have hamd : resolved = none → job.options.amd = true :=
    fun hnone => Bundle.amd_of_resolve_none (hnone ▸ h.home)
  have htemplates := h.templates
  cases htext : rendered.text with
  | none =>
      rw [htext] at htemplates
      exact ⟨iff_of_true htemplates rfl, nofun⟩
  | some text =>
      have hputs := Bundle.assemble_puts hamd (h.text.trans (congrArg _ htext))
      rw [htext] at htemplates
      refine ⟨iff_of_false (fun hzero => ?_) nofun, ?_⟩
      · exact hputs.ne_nil (List.length_eq_zero_iff.mp (htemplates.symm.trans hzero))
      · rintro _ ⟨⟩
        exact ⟨_, hputs, rfl, htemplates⟩

end Job

namespace Bundle

/-- Assembling loses, repeats and reorders nothing. The text of files without a module is always
there unless all their templates are blank, does not change when blank templates and empty files
are taken out, and is put together from the texts of its parts. A module stands around it and
returns the namespace; without a namespace there has to be a single template. The count of a
rendered bundle is that of the templates which its text holds, and these are the ones that are not
blank, in the order of the files. -/
theorem assembly_keeps_all (resolved : ResolvedNamespace) (options : Options) :
    (∀ files log, ((assemble files (some resolved) { options with amd := false }).run log).1 =
      .ok (scriptText resolved options files)) ∧
    (∀ files, scriptText resolved options files = none ↔
      ∀ template ∈ files.flatMap CompiledFile.templates, template.isBlank = true) ∧
    (∀ files fewer, Thins files fewer →
      scriptText resolved options fewer = scriptText resolved options files) ∧
    (∀ first second,
      match scriptText resolved options first, scriptText resolved options second with
      | some before, some behind => ∃ rest, behind = opening resolved options ++ rest ∧
          scriptText resolved options (first ++ second) = some (before ++ joint options ++ rest)
      | some before, none => scriptText resolved options (first ++ second) = some before
      | none, other => scriptText resolved options (first ++ second) = other) ∧
    (∀ files log, ((assemble files (some resolved)
        { options with amd := true, prettify := false }).run log).1 =
      .ok ((scriptText resolved options files).map fun text =>
        moduleOpening ++ joint options ++ text ++ joint options ++
          ("  return " ++ resolved.expression ++ ";") ++ joint options ++ moduleClosing)) ∧
    (∀ files log fault, ((assemble files none { options with amd := true }).run log).1 =
        .error fault ↔
      2 ≤ (writtenTemplates (files.flatMap CompiledFile.templates)).length ∧
        fault = .ambiguous (writtenTemplates (files.flatMap CompiledFile.templates)).length) ∧
    (∀ toolchain tree job log rendered,
      ((Job.render toolchain tree job).run log).1 = .ok rendered →
      ∃ home contributed, Job.Renders toolchain tree job rendered home contributed ∧
        (rendered.templates = 0 ↔ rendered.text = none) ∧
        ∀ text, rendered.text = some text → ∃ put, Puts job.options home put text ∧
          put = writtenTemplates (contributed.flatMap CompiledFile.templates) ∧
          rendered.templates = put.length) := by
  refine ⟨fun files log => ?_, script_text_eq_none_iff resolved options,
    fun files fewer h => script_text_thinned h resolved options,
    script_text_append resolved options, fun files log => ?_, fun files log fault => ?_,
    fun toolchain tree job log rendered h => ?_⟩
  · rw [(assemble_unswayed _ _ _).run_result log]
    exact assemble_script resolved options files
  · rw [(assemble_unswayed _ _ _).run_result log]
    exact assemble_module resolved options files
  · rw [(assemble_unswayed _ _ _).run_result log]
    exact assemble_bare_error_iff rfl
  · rw [(job.render_unswayed toolchain tree).run_result log] at h
    obtain ⟨home, contributed, hrenders⟩ := Job.renders_of_render h
    exact ⟨home, contributed, hrenders, hrenders.counts⟩

/-- A document with a blank template, and a blank file. -/
theorem assembly_keeps_one_of_three :
    let files : List CompiledFile :=
      [.multiple "d" [⟨"a", "f"⟩, ⟨"b", " "⟩], .single ⟨"c", "\n"⟩]
    let job : Job :=
      { name := "t", destination := ⟨"o"⟩, directory := ⟨""⟩, sources := ["a", "b"], options := {} }
    let tree : FileTree := ⟨[(["", "a"], .file "f".toUTF8), (["", "b"], .file " ".toUTF8)]⟩
    let rendered : Rendered :=
      ⟨[], 1, some "this[\"JST\"] = this[\"JST\"] || \x7b\x7d;\n\nthis[\"JST\"][\"a\"] = f;"⟩
    Thins files [.multiple "d" [⟨"a", "f"⟩]] ∧
      scriptText ⟨"", "this"⟩ {} [.multiple "d" [⟨"a", "f"⟩]] = scriptText ⟨"", "this"⟩ {} files ∧
      ((job.render { compiler := .verbatim } tree).run []).1 = .ok rendered ∧
      ∃ home contributed,
        Job.Renders { compiler := .verbatim } tree job rendered home contributed ∧
        (rendered.templates = 0 ↔ rendered.text = none) ∧
        ∀ text, rendered.text = some text → ∃ put, Puts job.options home put text ∧
          put = writtenTemplates (contributed.flatMap CompiledFile.templates) ∧
          rendered.templates = put.length := by
  intro files job tree rendered
  have hkept : Thins [.multiple "d" ([⟨"a", "f"⟩] ++ []), .single ⟨"c", "\n"⟩]
      [.multiple "d" [⟨"a", "f"⟩]] :=
    .keep _ (.single (by decide) .nil)
  have hblank : (⟨"b", " "⟩ : CompiledTemplate).isBlank = true := by decide
  have hthins : Thins files [.multiple "d" [⟨"a", "f"⟩]] := Thins.inside hblank hkept
  have hrender : ((job.render { compiler := .verbatim } tree).run []).1 = .ok rendered := by
    decide +kernel
  obtain ⟨-, -, hthinned, -, -, -, hcounts⟩ := assembly_keeps_all ⟨"", "this"⟩ {}
  exact ⟨hthins, hthinned _ _ hthins, hrender, hcounts _ _ _ _ _ hrender⟩

end Bundle

end TemplateBundle

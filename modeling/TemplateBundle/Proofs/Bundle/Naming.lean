import TemplateBundle.Proofs.Bundle.Recalling
import TemplateBundle.Proofs.Bundle.Rendering
import TemplateBundle.Proofs.Bundle.Sequence
import TemplateBundle.Proofs.Workspace.Comparing

/-!
# What the name of a job is for

Jobs that ask for the same bundle do the same to the files and end alike, whatever they are called
(`Asks.build_tallies`). The name of a job is only reported, and told by faults of its settings.
-/

namespace TemplateBundle

open Working (Tallies)

/-- The options ask for the same bundle. The standard separator may be written down or not. -/
structure Options.Alike (first second : Options) : Prop where
  separator : first.separatorText = second.separatorText
  others : { first with separator := none } = { second with separator := none }

/-- Options that are alike differ in nothing but how the separator is given. -/
theorem Options.Alike.eq {first second : Options} (h : first.Alike second) :
    ∃ separator, separator.getD standardSeparator = first.separatorText ∧
      second = { first with separator := separator } := by
  refine ⟨second.separator, h.separator.symm, ?_⟩
  have hsame : ({ second with separator := none } : Options) = { first with separator := none } :=
    h.others.symm
  cases first
  cases second
  simp_all

/-- The jobs ask for the same bundle at the same place. -/
structure Job.Asks (first second : Job) : Prop where
  destination : first.destination = second.destination
  directory : first.directory = second.directory
  sources : first.sources = second.sources
  options : first.options.Alike second.options

namespace Destination

theorem make_parent_tallies (path : Path) : Tallies Eq (makeParent path) (makeParent path) := by
  unfold makeParent
  split
  · exact .make_directories _ _
  · exact .pure rfl

theorem write_tallies (path : Path) (text : String) (isDry : Bool) :
    Tallies Eq (write path text isDry) (write path text isDry) := by
  unfold write
  refine Tallies.files.bind ?_
  rintro files _ rfl
  refine (Tallies.of_except _).bind ?_
  rintro existing _ rfl
  split_ifs
  · exact (Tallies.log _ _ _).bind fun _ _ _ => .pure rfl
  · exact (Tallies.log _ _ _).bind fun _ _ _ => .pure rfl
  · refine (make_parent_tallies _).bind fun _ _ _ => (make_parent_tallies _).bind fun _ _ _ => ?_
    exact (Tallies.replace _ _ _ _).bind fun _ _ _ => (Tallies.log _ _ _).bind fun _ _ _ => .pure rfl

end Destination

namespace Job

variable {toolchain : Toolchain} {files : FileTree} {first second : Job}

/-- Sources are compiled without a look at the separator. The induction is on the sources that are
left. -/
theorem Asks.compile_sources_eq (h : first.Asks second) (paths : List Path) :
    first.compileSources toolchain files paths = second.compileSources toolchain files paths := by
  obtain ⟨separator, -, hoptions⟩ := h.options.eq
  induction paths with
  | nil => rfl
  | cons path paths ih =>
      have hcompile (raw : String) : toolchain.compileFile first.options path raw =
          toolchain.compileFile second.options path raw := by
        rw [hoptions]
        rfl
      simp only [compileSources, h.directory, ih, hcompile]

theorem Asks.assemble_eq (h : first.Asks second) (contributed : List CompiledFile)
    (resolved : Option ResolvedNamespace) :
    Bundle.assemble contributed resolved first.options =
      Bundle.assemble contributed resolved second.options := by
  obtain ⟨separator, -, hoptions⟩ := h.options.eq
  have hjoint : Bundle.joint first.options = Bundle.joint second.options := by
    unfold Bundle.joint
    rw [h.options.separator]
  unfold Bundle.assemble
  rw [hjoint, hoptions]

/-- With settings that are right, the name of a job does not matter for what is rendered. -/
theorem Asks.render_eq (h : first.Asks second)
    (hvalid : toolchain.compiler.validate first.options.settings = .ok ()) :
    first.render toolchain files = second.render toolchain files := by
  obtain ⟨separator, -, hoptions⟩ := h.options.eq
  have hhome : first.options.resolveNamespace = second.options.resolveNamespace := by
    rw [hoptions]
    rfl
  have hsettings : first.options.settings = second.options.settings := by
    rw [hoptions]
  have hvalidSecond : toolchain.compiler.validate second.options.settings = .ok () :=
    hsettings ▸ hvalid
  unfold render
  simp only [hvalid, hvalidSecond, hhome, h.directory, h.sources, h.compile_sources_eq,
    h.assemble_eq, except_map_error_ok]

/-- Jobs that ask for the same bundle leave the same files, and both fail alike or report the same,
each under its name. -/
theorem Asks.build_tallies (h : first.Asks second)
    (hvalid : toolchain.compiler.validate first.options.settings = .ok ()) (isDry : Bool) :
    Tallies (fun report report' => report.name = first.name ∧
        report' = { report with name := second.name })
      (first.build toolchain isDry) (second.build toolchain isDry) := by
  have hwrite (rendered : Rendered) : Tallies Eq (first.writeRendered rendered isDry)
      (second.writeRendered rendered isDry) := by
    unfold writeRendered
    rw [h.destination]
    cases rendered.text with
    | some text => exact Destination.write_tallies _ _ _
    | none => exact (Tallies.log _ _ _).bind fun _ _ _ => .pure rfl
  unfold build
  refine (Tallies.log _ _ _).bind fun _ _ _ => Tallies.files.bind ?_
  rintro files _ rfl
  rw [h.render_eq hvalid]
  refine (Tallies.of_reporting (second.render_unswayed toolchain files)).bind ?_
  rintro rendered _ rfl
  refine (hwrite rendered).bind ?_
  rintro outcome _ rfl
  refine .pure ⟨rfl, ?_⟩
  rw [h.destination]

/-- The standard settings are right. -/
theorem standard_settings_valid {job : Job} (h : job.options.settings = {}) :
    ({} : Toolchain).compiler.validate job.options.settings = .ok () := by
  obtain ⟨tags, htags, -⟩ := except_bind_ok_iff.mp Template.compile_letter
  rw [h]
  exact except_bind_ok_iff.mpr ⟨tags, htags, rfl⟩

end Job

end TemplateBundle

import TemplateBundle.Proofs.Project.Loading
import TemplateBundle.Proofs.Project.Records
import TemplateBundle.Proofs.Workspace.Storage

/-!
# Loading saved projects

A project file that was saved is loaded as what it was, whatever its texts are, if its targets have
names of their own: `load_saved`. The parts of a project file are recovered one by one, from the
rules to the file itself.
-/

namespace TemplateBundle

namespace Project

open Yaml (nodeOf Value)
open Yaml.Printer (styleOf)
open Yaml.Scanner (readStyle)

/-! ## The parts of a project file -/

theorem recovers_name_rules (rules : NameRules) :
    Recovers nameRulesShape.read rules.toData rules := by
  refine recovers_record ?_ (by simp) (by decide) nofun
  rw [List.append_assoc, ← List.append_nil (Data.optionalText "prefix" rules.inFront)]
  refine .optional_text (by decide) rfl ?_
  refine .field (by decide) (recovers_truth _) ?_
  refine .optional_text (by decide) rfl ?_
  exact .nil _

theorem recovers_content_rules (rules : ContentRules) :
    Recovers contentRulesShape.read rules.toData rules := by
  refine recovers_record ?_ (List.cons_ne_nil _ _) (by decide) nofun
  refine .field (by decide) (recovers_truth _) ?_
  refine .field (by decide) (recovers_truth _) ?_
  exact .nil _

/-- A text field that is left out is not set. -/
theorem optional_text_eq_nil_iff {name : String} {value : Option String} :
    Data.optionalText name value = [] ↔ value = none := by
  cases value <;> simp [Data.optionalText, Data.optional]

/-- Settings are written only if something is set, and then they have a field. -/
theorem recovers_settings {settings : TemplateSettings} (h : ¬settings.isStandard = true) :
    Recovers settingsShape.read settings.toData settings := by
  refine recovers_record ?_ ?_ (by decide) nofun
  · rw [List.append_assoc, List.append_assoc,
      ← List.append_nil (Data.optionalText "variable" settings.dataName)]
    refine .optional_text (by decide) rfl ?_
    refine .optional_text (by decide) rfl ?_
    refine .optional_text (by decide) rfl ?_
    refine .optional_text (by decide) rfl ?_
    exact .nil _
  · intro hnone
    simp only [List.append_eq_nil_iff, optional_text_eq_nil_iff] at hnone
    obtain ⟨⟨⟨hescape, hevaluate⟩, hinterpolate⟩, hname⟩ := hnone
    refine h (beq_iff_eq.mpr ?_)
    cases settings
    subst hescape hevaluate hinterpolate hname
    rfl

/-- A name stays a name: one that would stand for something else when it is plain is quoted. -/
theorem recovers_namespace (home : Namespace) :
    Recovers namespaceNode home.toData home := by
  cases home with
  | disabled => exact ⟨trivial, fun _ => rfl⟩
  | named name =>
      refine ⟨trivial, fun place => ?_⟩
      have hvalue : Value.ofScalar name (readStyle (styleOf name)) none = .ok (.text name) := by
        cases hstyle : readStyle (styleOf name) with
        | plain =>
            show Except.ok (Value.ofPlain name) = .ok (.text name)
            rw [of_plain_text (no_quotes_of_plain hstyle)]
        | quoted => rfl
        | literal => rfl
        | folded => rfl
      rw [Namespace.toData, nodeOf, namespaceNode]
      simp [hvalue]

theorem recovers_options (options : Options) :
    Recovers optionsShape.read options.toData options := by
  refine recovers_record ?_ (List.cons_ne_nil _ _) (by decide) nofun
  simp only [List.append_assoc, List.cons_append, List.nil_append]
  refine .field (by decide) (recovers_namespace _) ?_
  refine .unless options.settings (by decide) recovers_settings ?_ ?_
  · intro hstandard
    rw [beq_iff_eq.mp hstandard]
    rfl
  refine .unless options.nameRules (by decide) (fun _ => recovers_name_rules _) ?_ ?_
  · intro hidentity
    rw [beq_iff_eq.mp hidentity]
    rfl
  refine .unless options.contentRules (by decide) (fun _ => recovers_content_rules _) ?_ ?_
  · intro hidentity
    rw [beq_iff_eq.mp hidentity]
    rfl
  refine .optional_text (by decide) rfl ?_
  refine .field (by decide) (recovers_truth _) ?_
  refine .field (by decide) (recovers_truth _) ?_
  refine .field (by decide) (recovers_truth _) ?_
  exact .nil _

/-- The data of a target are a record. -/
theorem target_data_ne_list (target : Target) (items : List Data) :
    target.toData ≠ .list items := by
  rw [Target.toData]
  exact Data.noConfusion

theorem recovers_target (target : Target) :
    Recovers targetShape.read target.toData target := by
  refine recovers_record ?_ (List.cons_ne_nil _ _) (by decide) (by simp [targetShape])
  refine .field (by decide) (recovers_text _ _) ?_
  refine .field (by decide) (recovers_text _ _) ?_
  refine .field (by decide) (recovers_list (recovers_text _) nofun _) ?_
  refine .field (by decide) (recovers_options _) ?_
  exact .nil _

theorem recovers_file (file : ProjectFile) :
    Recovers fileShape.read file.toData file := by
  refine recovers_record ?_ (List.cons_ne_nil _ _) (by decide) nofun
  refine .field (by decide) (recovers_list recovers_target target_data_ne_list _) ?_
  exact .nil _

/-- The text of a project file is read as the project file. -/
theorem of_text_print (file : ProjectFile) :
    ProjectFile.ofText (Yaml.print file.toData) = .ok file := by
  obtain ⟨⟨-, hfields⟩, hread⟩ := recovers_file file
  have hdocument : Yaml.Document.ofText (Yaml.print file.toData) =
      { root := some (nodeOf file.toData), endsThere := true } := Yaml.document_written hfields
  unfold ProjectFile.ofText readText
  simp only [hdocument, Option.getD_some, hread]
  rfl

/-! ## Saving and loading -/

/-- Loading undoes saving: where a project file was saved, it is loaded with all that it says, if
its targets have names of their own. Its directory is the one that the path is in. -/
theorem load_saved (path : Path) (file : ProjectFile) (start : Workspace)
    (hnames : (file.targets.map Target.name).Nodup)
    (hsaved : ((save path file).run start).1 = .ok ()) :
    load ((save path file).run start).2.files path =
      .ok { path, directory := path.parent?.getD ⟨""⟩, targets := file.targets } := by
  have hframe := save_frame path file start
  rcases hrun : (save path file).run start with ⟨outcome, final⟩
  rw [hrun] at hframe hsaved
  obtain rfl : outcome = .ok () := hsaved
  exact load_ok_iff.mpr ⟨_, file, hframe.read, of_text_print file,
    repeated_name_go_of_nodup hnames fun _ _ => List.not_mem_nil, rfl⟩

/-- A project file with texts that are written in each of the styles. -/
def oddFile : ProjectFile where
  targets := [
    { name := "false", destination := ⟨" out.js"⟩, sources := ["a\nb\n", "~", "!x", "\x07"]
      options := {
        home := .named "1", settings := { evaluate := some "" }, separator := some "\n"
        nameRules := { leading := some "null", inFront := some "été: " } } },
    { name := "plain", destination := ⟨"out.js"⟩, options := { home := .disabled, amd := true } }]

/-- It is loaded as what it was, from a directory that is made for it. -/
theorem load_saved_odd_file :
    (oddFile.targets.map Target.name).Nodup ∧
      ((save ⟨"made/jst.yaml"⟩ oddFile).run { files := .empty }).1 = .ok () ∧
      load ((save ⟨"made/jst.yaml"⟩ oddFile).run { files := .empty }).2.files ⟨"made/jst.yaml"⟩ =
        .ok { path := ⟨"made/jst.yaml"⟩, directory := ⟨"made"⟩, targets := oddFile.targets } := by
  have hnames : (oddFile.targets.map Target.name).Nodup := by decide
  have hsaved : ((save ⟨"made/jst.yaml"⟩ oddFile).run { files := .empty }).1 = .ok () := by
    decide +kernel
  exact ⟨hnames, hsaved, load_saved _ _ _ hnames hsaved⟩

end Project

end TemplateBundle

import Mathlib.Data.List.Forall2
import TemplateBundle.Proofs.Bundle.Rendering
import TemplateBundle.Proofs.Bundle.Sequence
import TemplateBundle.Proofs.Diff.Unified

/-!
# Previews and dry runs

A preview shows a change for exactly the targets that a dry run would write
(`dry_build_agrees_with_preview`). One of them compares the bytes of a destination and the other
one its text, so the two are only the same where destinations hold text.
-/

namespace TemplateBundle

/-- Both computations give values that agree, or fail in the same way. -/
def AgreeOn {ε α β : Type} (agree : α → β → Prop) : Except ε α → Except ε β → Prop
  | .ok first, .ok second => agree first second
  | .error first, .error second => first = second
  | _, _ => False

/-- What the path reads, if it reads anything, is text. -/
def HoldsText (files : FileTree) (path : Path) : Prop :=
  ∀ content, files.read path = .ok content → ∃ text : String, content = text.toUTF8

/-- The preview of a target shows a change if the target would be written, and none if it would
not. -/
def BuildReport.Agrees (built : BuildReport) (shown : PreviewReport) : Prop :=
  built.name = shown.name ∧
    match built.outcome with
    | .wouldWrite => ∃ text, text ≠ "" ∧ shown.change = some (built.destination, text)
    | .unchanged => shown.change = none
    | .empty => shown.change = none
    | .written => False

/-! ## One destination -/

/-- The two ways to read a destination that holds text. -/
theorem destination_read_cases {files : FileTree} {path : Path} (htext : HoldsText files path) :
    (∃ text : String, Destination.existing? files path = .ok (some text.toUTF8) ∧
        Job.destinationText files path = .ok text) ∨
      (Destination.existing? files path = .ok none ∧ Job.destinationText files path = .ok "") ∨
      ∃ fault, Destination.existing? files path = .error fault ∧
        Job.destinationText files path = .error fault := by
  cases hread : files.read path with
  | ok content =>
      left
      obtain ⟨text, rfl⟩ := htext content hread
      refine ⟨text, ?_, ?_⟩
      · simp only [Destination.existing?, hread]
      · simp only [Job.destinationText, FileTree.read_text_ok_iff.mpr hread]
  | error fault =>
      right
      have hreadText : files.readText path = .error fault := by
        unfold FileTree.readText
        rw [hread]
        rfl
      cases fault with
      | missing =>
          left
          simp only [Destination.existing?, Job.destinationText, hread, hreadText, and_self]
      | isDirectory | notDirectory | notText | «exists» =>
          right
          simp only [Destination.existing?, Job.destinationText, hread, hreadText]
          exact ⟨_, rfl, rfl⟩

/-- Texts have the same bytes only if they are the same. -/
theorem to_utf8_data_inj {first second : String} :
    first.toUTF8.data = second.toUTF8.data ↔ first = second := by
  constructor
  · exact fun h => String.toByteArray_inj.mp (ByteArray.ext h)
  · rintro rfl
    rfl

namespace Destination

/-- A dry run would write a text that is not there already. -/
theorem dry_write_run (path : Path) (text : String) (start : Workspace) :
    ((write path text true).run start).1 =
      match existing? start.files path with
      | .error fault => .error (.file path fault)
      | .ok existing =>
          if existing.map ByteArray.data = some text.toUTF8.data then .ok .unchanged
          else .ok .wouldWrite := by
  unfold write
  simp only [Working.run_bind, Working.run_files, Working.run_of_except]
  cases existing? start.files path with
  | error fault => rfl
  | ok existing =>
      simp only [except_map_error_ok]
      split_ifs <;> rfl

end Destination

/-! ## One bundle -/

namespace Job

/-- The preview of a bundle, behind what it renders. -/
def previewOf (files : FileTree) (job : Job) (rendered : Rendered) :
    Except BuildFault PreviewReport :=
  match rendered.text with
  | none => .ok { name := job.name, change := none }
  | some text =>
      match destinationText files job.destination with
      | .error fault => .error (.file job.destination fault)
      | .ok existing =>
          .ok {
            name := job.name
            change :=
              if existing = text then none
              else some (job.destination, job.difference existing text) }

theorem preview_run (toolchain : Toolchain) (files : FileTree) (job : Job) (start : Log) :
    ((job.preview toolchain files).run start).1 =
      match ((job.render toolchain files).run start).1 with
      | .error fault => .error fault
      | .ok rendered => job.previewOf files rendered := by
  unfold preview previewOf
  rw [Reporting.run_bind]
  rcases (job.render toolchain files).run start with ⟨fault | rendered, middle⟩
  · rfl
  · cases htext : rendered.text with
    | none => simp only [htext, Reporting.run_pure]
    | some text =>
        simp only [htext, Reporting.run_bind, Reporting.run_of_except]
        cases destinationText files job.destination <;> rfl

/-- A dry build changes no file. -/
theorem dry_build_keeps_files (toolchain : Toolchain) (job : Job) (start : Workspace) :
    ((job.build toolchain true).run start).2.files = start.files := by
  rcases build_writes toolchain job true start with hsame | ⟨text, log, hfinal, -⟩
  · exact hsame
  · rw [hfinal]
    have houtcome := Destination.write_outcome job.destination text true ⟨start.files, log⟩
    rcases hrun : (Destination.write job.destination text true).run ⟨start.files, log⟩
      with ⟨fault | outcome, final⟩
    · rw [hrun] at houtcome
      exact houtcome.1 rfl
    · rw [hrun] at houtcome
      cases outcome with
      | written => cases houtcome.1
      | unchanged => exact houtcome
      | wouldWrite => exact houtcome.2
      | empty => exact houtcome.elim

/-- Writing a text in a dry run agrees with comparing it to the text of the destination. -/
theorem dry_write_agrees {job : Job} {files : FileTree} (log : Log) {text : String}
    (htext : HoldsText files job.destination) (hne : text ≠ "") (rendered : Rendered)
    (hrendered : rendered.text = some text) :
    AgreeOn BuildReport.Agrees
      (((Destination.write job.destination text true).run ⟨files, log⟩).1.map fun outcome =>
        { name := job.name
          destination := job.destination
          missing := rendered.missing
          templates := rendered.templates
          outcome := outcome })
      (job.previewOf files rendered) := by
  rw [Destination.dry_write_run]
  unfold previewOf
  rw [hrendered]
  rcases destination_read_cases htext with ⟨old, hbytes, hold⟩ | ⟨hbytes, hold⟩ |
    ⟨fault, hbytes, hold⟩
  · simp only [hbytes, hold, Option.map_some, Option.some.injEq, to_utf8_data_inj]
    by_cases hsame : old = text
    · rw [if_pos hsame, if_pos hsame]
      exact ⟨rfl, rfl⟩
    · rw [if_neg hsame, if_neg hsame]
      exact ⟨rfl, _, Diff.unified_ne_empty _ _ hsame, rfl⟩
  · simp only [hbytes, hold, Option.map_none, reduceCtorEq, if_false]
    rw [if_neg fun hempty => hne hempty.symm]
    exact ⟨rfl, _, Diff.unified_ne_empty _ _ fun hempty => hne hempty.symm, rfl⟩
  · simp only [hbytes, hold]
    rfl

/-- A dry build and a preview of the same files agree, whatever was reported before. -/
theorem dry_build_agrees (toolchain : Toolchain) {job : Job} {start : Workspace}
    (htext : HoldsText start.files job.destination) (log : Log) :
    AgreeOn BuildReport.Agrees ((job.build toolchain true).run start).1
      ((job.preview toolchain start.files).run log).1 := by
  rw [preview_run]
  unfold build
  simp only [Working.run_bind, Working.run_log, Working.run_files, Working.run_of_reporting]
  -- both render the same, from logs that differ
  rcases hrun : (job.render toolchain start.files).run _ with ⟨fault | rendered, middle⟩
  · rw [(render_unswayed toolchain start.files job).result_eq hrun log]
    rfl
  · have hne := render_text_ne_empty toolchain start.files job _ rendered middle hrun
    rw [(render_unswayed toolchain start.files job).result_eq hrun log]
    simp only
    unfold writeRendered
    cases hrendered : rendered.text with
    | none =>
        simp only [previewOf, hrendered, Working.run_bind, Working.run_log, Working.run_pure]
        exact ⟨rfl, rfl⟩
    | some text =>
        have hwrite := dry_write_agrees middle htext
          (fun hempty => hne (hempty ▸ hrendered)) rendered hrendered
        simp only
        rcases hwritten : (Destination.write job.destination text true).run ⟨start.files, middle⟩
          with ⟨fault | outcome, final⟩
        · rw [hwritten] at hwrite
          exact hwrite
        · rw [hwritten] at hwrite
          exact hwrite

end Job

/-! ## Projects -/

namespace Project

variable {path : Path} {start : Workspace}

/-- Every destination in the scope that exists holds text. -/
def DestinationsHoldText (files : FileTree) (path : Path) (scope : Scope) : Prop :=
  ∀ jobs, jobsAt files path scope = .ok jobs → ∀ job ∈ jobs, HoldsText files job.destination

/-- Show what building jobs would change, one after the other. -/
def previewJobs (files : FileTree) (jobs : List Job) :
    Reporting BuildFault (List PreviewReport) :=
  jobs.mapM fun job => job.preview {} files

/-- The induction is on the jobs. A dry build leaves the files for the next one as they are, so all
previews can be of the same files. -/
theorem dry_jobs_agree {jobs : List Job}
    (htext : ∀ job ∈ jobs, HoldsText start.files job.destination) (log : Log) :
    ((buildJobs true jobs).run start).2.files = start.files ∧
      AgreeOn (List.Forall₂ BuildReport.Agrees) ((buildJobs true jobs).run start).1
        ((previewJobs start.files jobs).run log).1 := by
  induction jobs generalizing start log with
  | nil => exact ⟨rfl, .nil⟩
  | cons job jobs ih =>
      have hkeeps := Job.dry_build_keeps_files {} job start
      have hjob := Job.dry_build_agrees {} (htext job List.mem_cons_self) log
      have hbuild : buildJobs true (job :: jobs) =
          job.build {} true >>= fun report => buildJobs true jobs >>= fun reports =>
            pure (report :: reports) := List.mapM_cons
      have hpreview : previewJobs start.files (job :: jobs) =
          job.preview {} start.files >>= fun shown => previewJobs start.files jobs >>= fun others =>
            pure (shown :: others) := List.mapM_cons
      rw [hbuild, hpreview, Working.run_bind, Reporting.run_bind]
      rcases hbuilt : (job.build {} true).run start with ⟨fault | report, middle⟩ <;>
        rcases hshown : (job.preview {} start.files).run log with ⟨fault' | shown, middleLog⟩ <;>
        rw [hbuilt, hshown] at hjob <;> rw [hbuilt] at hkeeps
      · exact ⟨hkeeps, hjob⟩
      · exact hjob.elim
      · exact hjob.elim
      · have hmiddle : middle.files = start.files := hkeeps
        have htextRest : ∀ other ∈ jobs, HoldsText middle.files other.destination :=
          fun other hother => hmiddle ▸ htext other (List.mem_cons_of_mem _ hother)
        have hrest := ih htextRest middleLog
        rw [hmiddle] at hrest
        obtain ⟨hfiles, hagree⟩ := hrest
        simp only [Working.run_bind, Reporting.run_bind]
        rcases hbuiltRest : (buildJobs true jobs).run middle with ⟨fault | reports, final⟩ <;>
          rcases hshownRest : (previewJobs start.files jobs).run middleLog with
            ⟨fault' | others, finalLog⟩ <;>
          rw [hbuiltRest, hshownRest] at hagree <;> rw [hbuiltRest] at hfiles
        · exact ⟨hfiles, hagree⟩
        · exact hagree.elim
        · exact hagree.elim
        · exact ⟨hfiles, .cons hjob hagree⟩

/-- A dry run and a preview of the same targets agree: they fail with the same fault, or they cover
the same targets in the same order, and a target has a change with a text to show if it would be
written, and none if it would not. Neither changes any file. -/
theorem dry_build_agrees_with_preview {scope : Scope}
    (htext : DestinationsHoldText start.files path scope) :
    let built := (build path scope true).run start
    let shown := (Working.ofReporting (preview start.files path scope)).run start
    AgreeOn (List.Forall₂ BuildReport.Agrees) built.1 shown.1 ∧
      built.2.files = start.files ∧ shown.2.files = start.files := by
  simp only [Working.run_of_reporting, and_true]
  unfold preview
  rw [Reporting.run_bind, Reporting.run_of_except]
  cases hjobs : jobsAt start.files path scope with
  | error fault =>
      unfold build
      simp only [Working.run_bind, Working.run_files, Working.run_of_except, hjobs]
      exact ⟨rfl, trivial⟩
  | ok jobs =>
      rw [run_build_of_jobs hjobs]
      obtain ⟨hfiles, hagree⟩ := dry_jobs_agree (htext jobs hjobs) start.log
      exact ⟨hagree, hfiles⟩

/-- A workspace with a project file with one target, its source and an old destination. -/
def oneTarget : Workspace :=
  { files := ⟨[(["", "jst.yaml"],
      .file "targets: [{name: a, dest: a.js, src: [a.html]}]".toUTF8),
      (["", "a.html"], .file "x".toUTF8), (["", "a.js"], .file "old".toUTF8)]⟩ }

/-- The dry run and the preview of the target agree. -/
theorem preview_one_target :
    let built := (build ⟨"jst.yaml"⟩ .all true).run oneTarget
    let shown := (Working.ofReporting (preview oneTarget.files ⟨"jst.yaml"⟩ .all)).run oneTarget
    AgreeOn (List.Forall₂ BuildReport.Agrees) built.1 shown.1 ∧
      built.2.files = oneTarget.files ∧ shown.2.files = oneTarget.files := by
  let target : Target := { name := "a", destination := ⟨"a.js"⟩, sources := ["a.html"] }
  have htext : ProjectFile.ofText "targets: [{name: a, dest: a.js, src: [a.html]}]" =
      .ok { targets := [target] } :=
    except_ok_iff_to_option.mpr (by decide +kernel)
  have hload : load oneTarget.files ⟨"jst.yaml"⟩ = .ok ⟨⟨"jst.yaml"⟩, ⟨""⟩, [target]⟩ := by
    refine load_ok_iff.mpr ⟨_, _, rfl, htext, by decide, ?_⟩
    simp only [Project.mk.injEq, and_true, true_and]
    decide +kernel
  refine dry_build_agrees_with_preview fun jobs hjobs job hjob => ?_
  have hall : jobsAt oneTarget.files ⟨"jst.yaml"⟩ .all =
      .ok [jobFor ⟨⟨"jst.yaml"⟩, ⟨""⟩, [target]⟩ target] := by
    rw [jobsAt, hload]
    rfl
  rw [hall] at hjobs
  cases hjobs
  rw [List.mem_singleton.mp hjob]
  intro content hread
  have hdestination : Path.join ⟨""⟩ ⟨"a.js"⟩ = ⟨"a.js"⟩ := by decide +kernel
  have hold : oneTarget.files.read (Path.join ⟨""⟩ ⟨"a.js"⟩) = .ok "old".toUTF8 := by
    rw [hdestination]
    rfl
  have hsame : "old".toUTF8 = content := Except.ok.inj (hold.symm.trans hread)
  exact ⟨"old", hsame.symm⟩

end Project

end TemplateBundle

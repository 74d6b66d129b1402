import TemplateBundle.Proofs.Bundle.Inputs
import TemplateBundle.Proofs.Bundle.Outputs
import TemplateBundle.Proofs.Bundle.Preview

/-!
# Building again

A build whose own writes do not concern its sources is complete: building again renders the same,
finds the destination as it should be and changes nothing, and a preview has nothing to show
(`build_again`).
-/

namespace TemplateBundle

open FileTree

namespace Destination

variable {path : Path} {text : String} {start final : Workspace}

/-- A destination that holds the text already is left alone. -/
theorem write_of_read (isDry : Bool) (hread : start.files.read path = .ok text.toUTF8) :
    (write path text isDry).run start =
      (.ok .unchanged,
        { start with log := start.log ++ [⟨.debug, "unchanged: " ++ path.text⟩] }) := by
  unfold write
  simp only [Working.run_bind, Working.run_files, Working.run_of_except,
    existing_eq_some_iff.mpr hread, except_map_error_ok, Option.map_some, if_true,
    Working.run_log, Working.run_pure]

/-- Behind a write that succeeds the destination holds the text. -/
theorem read_of_write {outcome : WriteOutcome}
    (h : (write path text false).run start = (.ok outcome, final)) :
    final.files.read path = .ok text.toUTF8 := by
  have houtcome := write_outcome path text false start
  rw [h] at houtcome
  refine write_holds h ?_
  cases outcome with
  | written => exact .inl rfl
  | unchanged => exact .inr rfl
  | wouldWrite => cases houtcome.1
  | empty => exact houtcome.elim

end Destination

namespace Job

variable {toolchain : Toolchain} {job : Job} {start final : Workspace} {rendered : Rendered}

/-- What becomes of a destination that is built again. -/
def outcomeAgain (rendered : Rendered) : WriteOutcome :=
  if rendered.text.isSome then .unchanged else .empty

/-- What was written once is not written again: no file changes. -/
theorem write_rendered_again {outcome : WriteOutcome}
    (h : (job.writeRendered rendered false).run start = (.ok outcome, final))
    (again : Workspace) (hfiles : again.files = final.files) :
    ∃ log, (job.writeRendered rendered false).run again =
      (.ok (outcomeAgain rendered), ⟨final.files, log⟩) := by
  unfold writeRendered at h ⊢
  unfold outcomeAgain
  cases htext : rendered.text with
  | none =>
      rw [← hfiles]
      exact ⟨_, rfl⟩
  | some text =>
      simp only [htext] at h
      have hread := Destination.read_of_write h
      rw [← hfiles] at hread ⊢
      exact ⟨_, Destination.write_of_read false hread⟩

/-- What was written once shows no change in a preview. -/
theorem preview_of_again {outcome : WriteOutcome}
    (h : (job.writeRendered rendered false).run start = (.ok outcome, final)) :
    job.previewOf final.files rendered = .ok { name := job.name, change := none } := by
  unfold writeRendered at h
  unfold previewOf
  cases htext : rendered.text with
  | none => rfl
  | some text =>
      simp only [htext] at h
      have hread := read_text_ok_iff.mpr (Destination.read_of_write h)
      simp only [destinationText, hread, if_true]

/-- Building is idempotent. A second build of a job whose sources the first one left as they were
succeeds with the same report, except that the destination is unchanged, or still not written where
nothing was rendered. It changes no file, and a preview shows no change. -/
theorem build_again {report : BuildReport}
    (hbuild : (job.build toolchain false).run start = (.ok report, final))
    (hkept : job.SourcesKept start.files final.files) :
    ∃ rendered, ((job.render toolchain start.files).run start.log).1 = .ok rendered ∧
      ∀ again : Workspace, again.files = final.files →
        (∃ log, (job.build toolchain false).run again =
          (.ok { report with outcome := outcomeAgain rendered }, ⟨final.files, log⟩)) ∧
        ((job.preview toolchain again.files).run again.log).1 =
          .ok { name := job.name, change := none } := by
  obtain ⟨rendered, log, outcome, hrender, hwrite, rfl⟩ := build_ok_iff.mp hbuild
  have hunswayed := render_unswayed toolchain start.files job
  refine ⟨rendered, hunswayed.result_eq hrender _, fun again hfiles => ?_⟩
  -- the second time, the same is rendered from other reports
  have hsame : job.render toolchain again.files = job.render toolchain start.files := by
    rw [hfiles]
    exact hkept.render_eq toolchain
  constructor
  · rcases hrenderAgain : (job.render toolchain again.files).run
        (again.log ++ [⟨.debug, "building target '" ++ job.name ++ "'"⟩]) with ⟨result, logAgain⟩
    obtain rfl : result = .ok rendered := by
      rw [hsame] at hrenderAgain
      rw [← hunswayed.result_eq hrenderAgain start.log, hunswayed.result_eq hrender]
    obtain ⟨last, hlast⟩ := write_rendered_again hwrite ⟨again.files, logAgain⟩ hfiles
    exact ⟨last, build_ok_iff.mpr ⟨rendered, logAgain, _, hrenderAgain, hlast, rfl⟩⟩
  · rw [preview_run, hsame, hunswayed.result_eq hrender]
    simp only [hfiles]
    exact preview_of_again hwrite

/-- A workspace that holds one source. -/
def oneSource : Workspace :=
  { files := ⟨[(["", "a.html"], .file "x".toUTF8)]⟩ }

/-- The job of making a bundle of that source. -/
def bundleOne : Job where
  name := "a"
  destination := ⟨"a.js"⟩
  directory := ⟨""⟩
  sources := ["a.html"]
  options := {}

/-- The bundle is written once and not again. -/
theorem build_one_again : ∃ report final,
    (bundleOne.build {} false).run oneSource = (.ok report, final) ∧ report.outcome = .written ∧
      ∀ again : Workspace, again.files = final.files →
        (∃ log, (bundleOne.build {} false).run again =
          (.ok { report with outcome := .unchanged }, ⟨final.files, log⟩)) ∧
        ((bundleOne.preview {} again.files).run again.log).1 =
          .ok { name := "a", change := none } := by
  have hwritten : ((bundleOne.build .knowingLetter false).run oneSource).1.toOption.map
      BuildReport.outcome = some .written := by
    decide +kernel
  rw [Toolchain.knowing_letter_eq] at hwritten
  obtain ⟨report, hreport, houtcome⟩ := Option.map_eq_some_iff.mp hwritten
  rcases hbuild : (bundleOne.build {} false).run oneSource with ⟨result, final⟩
  rw [hbuild] at hreport
  obtain rfl : result = .ok report := except_ok_iff_to_option.mpr hreport
  have hpaths (tree : FileTree) : Sources.expand tree ⟨""⟩ ["a.html"] = .ok [⟨"a.html"⟩] := by
    simp [Sources.expand, Sources.addEntry, Sources.isPattern, Sources.add]
  have hjoin : Path.join ⟨""⟩ ⟨"a.html"⟩ = ⟨"a.html"⟩ := by decide +kernel
  have hread : oneSource.files.read ⟨"a.html"⟩ = .ok "x".toUTF8 := by rfl
  have hafter : final.files.read ⟨"a.html"⟩ = .ok "x".toUTF8 :=
    build_ok_keeps_read hbuild hread fun _ => ⟨by decide +kernel, by decide +kernel⟩
  -- the build wrote its destination only, so the source is read as before
  have hkept : bundleOne.SourcesKept oneSource.files final.files := by
    refine ⟨(hpaths _).trans (hpaths _).symm, fun paths hexpand path hpath => ?_⟩
    obtain rfl := Except.ok.inj ((hpaths _).symm.trans hexpand)
    rw [List.mem_singleton.mp hpath, show bundleOne.directory = ⟨""⟩ from rfl, hjoin]
    exact holds_same_of_read hread hafter
  obtain ⟨rendered, hrender, hagain⟩ := build_again hbuild hkept
  have hunchanged : outcomeAgain rendered = .unchanged := by
    obtain ⟨found, log, hfound, hwrite⟩ := build_ok_inv hbuild
    obtain rfl := Except.ok.inj (hfound.symm.trans hrender)
    obtain ⟨text, htext, -⟩ := write_rendered_holds hwrite (.inl houtcome)
    rw [outcomeAgain, htext]
    rfl
  rw [hunchanged] at hagain
  exact ⟨report, final, rfl, houtcome, hagain⟩

end Job

end TemplateBundle

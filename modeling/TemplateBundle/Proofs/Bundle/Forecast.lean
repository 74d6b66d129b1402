import TemplateBundle.Proofs.Bundle.Inputs
import TemplateBundle.Proofs.Bundle.Outputs
import TemplateBundle.Proofs.Bundle.Preview

/-!
# Dry runs as forecasts

A dry run tells what the real run would do, if no target is written to where another one reads from
or writes to (`dry_run_forecasts`). The real run sees files that the targets before changed and the
dry run sees the first ones; what a target looks at is the same in both.
-/

namespace TemplateBundle

open FileTree

/-- What a dry run says instead of what was done. -/
def WriteOutcome.forecast : WriteOutcome → WriteOutcome
  | .written => .wouldWrite
  | outcome => outcome

/-- The report of a dry run for what was done. -/
def BuildReport.forecast (report : BuildReport) : BuildReport :=
  { report with outcome := report.outcome.forecast }

/-! ## One destination -/

namespace Destination

variable {path : Path} {text : String} {start final dry : Workspace} {outcome : WriteOutcome}

/-- A destination that can be read is written unless it holds the text already. -/
theorem write_ok_inv (h : (write path text false).run start = (.ok outcome, final)) :
    ∃ existing, existing? start.files path = .ok existing ∧
      outcome = if existing.map ByteArray.data = some text.toUTF8.data then .unchanged
        else .written := by
  unfold write at h
  obtain ⟨files, middle, hfiles, h⟩ := Working.run_bind_ok_iff.mp h
  cases hfiles
  obtain ⟨existing, middle, hexisting, h⟩ := Working.run_bind_ok_iff.mp h
  rw [Working.run_of_except, Prod.mk.injEq, except_map_error_ok_iff] at hexisting
  obtain ⟨hexisting, rfl⟩ := hexisting
  refine ⟨existing, hexisting, ?_⟩
  by_cases hsame : existing.map ByteArray.data = some text.toUTF8.data
  · rw [if_pos hsame] at h ⊢
    obtain ⟨-, middle, -, h⟩ := Working.run_bind_ok_iff.mp h
    cases h
    rfl
  · rw [if_neg hsame] at h ⊢
    -- directories are made for both paths before the file is replaced
    obtain ⟨-, middle, -, h⟩ := Working.run_bind_ok_iff.mp h
    obtain ⟨-, middle, -, h⟩ := Working.run_bind_ok_iff.mp h
    obtain ⟨-, middle, -, h⟩ := Working.run_bind_ok_iff.mp h
    obtain ⟨-, middle, -, h⟩ := Working.run_bind_ok_iff.mp h
    cases h
    rfl

/-- Where a destination reads the same, a dry write says what the real one does. -/
theorem dry_write_forecast (h : (write path text false).run start = (.ok outcome, final))
    (hread : start.files.read path = dry.files.read path) :
    ((write path text true).run dry).1 = .ok outcome.forecast := by
  obtain ⟨existing, hexisting, rfl⟩ := write_ok_inv h
  unfold existing? at hexisting
  rw [hread] at hexisting
  rw [dry_write_run, existing?, hexisting]
  by_cases hsame : existing.map ByteArray.data = some text.toUTF8.data
  · simp only [if_pos hsame]
    rfl
  · simp only [if_neg hsame]
    rfl

end Destination

/-! ## One job -/

namespace Job

/-- The change does not concern the job: neither its sources nor what its destination reads. -/
structure Unaffected (job : Job) (before after : FileTree) : Prop
    extends SourcesKept job before after where
  destination : after.read job.destination = before.read job.destination

variable {toolchain : Toolchain} {job : Job} {before middle after : FileTree}

theorem Unaffected.refl (job : Job) (tree : FileTree) : job.Unaffected tree tree :=
  ⟨.refl job tree, rfl⟩

theorem Unaffected.trans (hfirst : job.Unaffected before middle)
    (hsecond : job.Unaffected middle after) : job.Unaffected before after :=
  ⟨hfirst.toSourcesKept.trans hsecond.toSourcesKept, hsecond.destination.trans hfirst.destination⟩

/-- What was done with a text is what a dry run says, where the destination reads the same. -/
theorem dry_write_rendered_forecast {start final : Workspace} {rendered : Rendered}
    {outcome : WriteOutcome}
    (h : (job.writeRendered rendered false).run start = (.ok outcome, final)) (dry : Workspace)
    (hread : start.files.read job.destination = dry.files.read job.destination) :
    ((job.writeRendered rendered true).run dry).1 = .ok outcome.forecast := by
  unfold writeRendered at h ⊢
  cases htext : rendered.text with
  | none =>
      simp only [htext, Working.run_bind, Working.run_log, Working.run_pure] at h ⊢
      cases h
      rfl
  | some text =>
      simp only [htext] at h
      exact Destination.dry_write_forecast h hread

/-- A dry build of files that are no different for the job says what the real build does. -/
theorem dry_build_forecast {start final dry : Workspace} {report : BuildReport}
    (hbuild : (job.build toolchain false).run start = (.ok report, final))
    (hsame : job.Unaffected dry.files start.files) :
    ((job.build toolchain true).run dry).1 = .ok report.forecast := by
  obtain ⟨rendered, log, outcome, hrender, hwrite, rfl⟩ := build_ok_iff.mp hbuild
  rcases hrenderDry : (job.render toolchain dry.files).run
      (dry.log ++ [⟨.debug, "building target '" ++ job.name ++ "'"⟩]) with ⟨result, logDry⟩
  obtain rfl : result = .ok rendered := by
    have hunswayed := render_unswayed toolchain start.files job
    rw [← hsame.render_eq toolchain] at hrenderDry
    rw [← hunswayed.result_eq hrenderDry start.log, hunswayed.result_eq hrender]
  have hdry := dry_write_rendered_forecast hwrite ⟨dry.files, logDry⟩ hsame.destination
  rcases hwriteDry : (job.writeRendered rendered true).run ⟨dry.files, logDry⟩ with ⟨result, last⟩
  obtain rfl : result = .ok outcome.forecast := by
    rw [← hdry, hwriteDry]
  rw [build_ok_iff.mpr ⟨rendered, logDry, _, hrenderDry, hwriteDry, rfl⟩]
  rfl

end Job

/-! ## Runs -/

namespace Project

/-- No write of a real run concerns a job that is built later. The jobs are built one after the
other, each from the files as the one before left them. -/
def SparesLater (start : Workspace) : List Job → Prop
  | [] => True
  | job :: others =>
      let built := ((job.build {} false).run start).2
      (∀ other ∈ others, other.Unaffected start.files built.files) ∧ SparesLater built others

/-- The induction is on the jobs, from real files and from those of the dry run. What is no
different between the two for the jobs that are left stays so behind each write, and a dry build
leaves its files as they are. -/
theorem dry_jobs_forecast {jobs : List Job} {start final dry : Workspace}
    {reports : List BuildReport} (hrun : (buildJobs false jobs).run start = (.ok reports, final))
    (hsame : ∀ job ∈ jobs, job.Unaffected dry.files start.files)
    (hspares : SparesLater start jobs) :
    ((buildJobs true jobs).run dry).1 = .ok (reports.map BuildReport.forecast) := by
  induction jobs generalizing start dry reports with
  | nil =>
      cases hrun
      rfl
  | cons job jobs ih =>
      have hcons (isDry : Bool) : buildJobs isDry (job :: jobs) =
          job.build {} isDry >>= fun report => buildJobs isDry jobs >>= fun reports =>
            pure (report :: reports) := List.mapM_cons
      rw [hcons] at hrun ⊢
      obtain ⟨report, middle, hbuild, hrun⟩ := Working.run_bind_ok_iff.mp hrun
      obtain ⟨others, last, hothers, hrun⟩ := Working.run_bind_ok_iff.mp hrun
      cases hrun
      obtain ⟨hjob, hjobs⟩ := List.forall_mem_cons.mp hsame
      obtain ⟨hspared, hlater⟩ := hspares
      rw [hbuild] at hspared hlater
      have hreport := Job.dry_build_forecast hbuild hjob
      have hkeeps := Job.dry_build_keeps_files {} job dry
      rcases hdry : (job.build {} true).run dry with ⟨result, dryMiddle⟩
      rw [hdry] at hreport hkeeps
      obtain rfl : result = .ok report.forecast := hreport
      have hfiles : dryMiddle.files = dry.files := hkeeps
      -- behind the write, the later jobs still see what the dry run sees
      have hsameLater : ∀ other ∈ jobs, other.Unaffected dryMiddle.files middle.files := by
        intro other hother
        rw [hfiles]
        exact (hjobs other hother).trans (hspared other hother)
      have hrest := ih hothers hsameLater hlater
      rcases hdryRest : (buildJobs true jobs).run dryMiddle with ⟨result, dryLast⟩
      rw [hdryRest] at hrest
      obtain rfl : result = .ok (others.map BuildReport.forecast) := hrest
      simp only [Working.run_bind, hdry, hdryRest]
      rfl

/-- A dry run forecasts the real run. If all targets are built, and no write on the way concerns a
target that comes later (what its source list stands for, what one of its sources holds, or what its
destination reads), then a dry run of the same files succeeds with the same reports in the same
order, except that it says which targets would be written instead of that they were. -/
theorem dry_run_forecasts {path : Path} {start final : Workspace} {project : Project}
    {reports : List BuildReport} (hload : load start.files path = .ok project)
    (hspares : SparesLater start (project.targets.map project.jobFor))
    (hrun : (build path .all false).run start = (.ok reports, final)) :
    ((build path .all true).run start).1 = .ok (reports.map BuildReport.forecast) := by
  rw [run_build_all hload] at hrun ⊢
  exact dry_jobs_forecast hrun (fun job _ => .refl job start.files) hspares

/-- A project with a target that has a source and one that has none. -/
def halfEmptyProject : Project where
  path := ⟨"jst.yaml"⟩
  directory := ⟨""⟩
  targets :=
    [{ name := "a", destination := ⟨"a.js"⟩, sources := ["x"] },
      { name := "b", destination := ⟨"b.js"⟩ }]

/-- A workspace with that project, its source and an old file at the second destination. -/
def halfEmpty : Workspace :=
  { files := ⟨[(["", "jst.yaml"],
      .file "targets: [{name: a, dest: a.js, src: [x]}, {name: b, dest: b.js}]".toUTF8),
      (["", "x"], .file "x".toUTF8), (["", "b.js"], .file "old".toUTF8)]⟩ }

theorem load_half_empty : load halfEmpty.files ⟨"jst.yaml"⟩ = .ok halfEmptyProject := by
  have htext : ProjectFile.ofText
      "targets: [{name: a, dest: a.js, src: [x]}, {name: b, dest: b.js}]" =
      .ok { targets := halfEmptyProject.targets } :=
    except_ok_iff_to_option.mpr (by decide +kernel)
  refine load_ok_iff.mpr ⟨_, _, rfl, htext, by decide, ?_⟩
  unfold halfEmptyProject
  simp only [Project.mk.injEq, and_true, true_and]
  decide +kernel

/-- The second target is concerned by a change only if its destination is. -/
theorem half_empty_unaffected {after : FileTree}
    (hread : after.read ⟨"b.js"⟩ = .ok "old".toUTF8) :
    (halfEmptyProject.jobFor { name := "b", destination := ⟨"b.js"⟩ }).Unaffected
      halfEmpty.files after := by
  have hdestination :
      (halfEmptyProject.jobFor { name := "b", destination := ⟨"b.js"⟩ }).destination =
        ⟨"b.js"⟩ := by
    decide +kernel
  have hpaths (tree : FileTree) : Sources.expand tree ⟨""⟩ [] = .ok [] := rfl
  refine ⟨⟨(hpaths after).trans (hpaths halfEmpty.files).symm, ?_⟩, ?_⟩
  · intro paths hexpand path hpath
    obtain rfl := Except.ok.inj ((hpaths _).symm.trans hexpand)
    exact absurd hpath List.not_mem_nil
  · rw [hdestination, hread]
    rfl

/-- The first target would be written, and for the second one there is nothing to write. -/
theorem forecast_half_empty : ∃ reports final,
    (build ⟨"jst.yaml"⟩ .all false).run halfEmpty = (.ok reports, final) ∧
      reports.map BuildReport.outcome = [.written, .empty] ∧
      ((build ⟨"jst.yaml"⟩ .all true).run halfEmpty).1 =
        .ok (reports.map BuildReport.forecast) := by
  have houtcomes : ((buildLetters (halfEmptyProject.targets.map halfEmptyProject.jobFor)).run
      halfEmpty).1.toOption.map (·.map BuildReport.outcome) = some [.written, .empty] := by
    decide +kernel
  rw [build_letters_eq, ← run_build_all load_half_empty] at houtcomes
  obtain ⟨reports, hreports, houtcomes⟩ := Option.map_eq_some_iff.mp houtcomes
  rcases hrun : (build ⟨"jst.yaml"⟩ .all false).run halfEmpty with ⟨result, final⟩
  rw [hrun] at hreports
  obtain rfl : result = .ok reports := except_ok_iff_to_option.mpr hreports
  have hold : halfEmpty.files.read ⟨"b.js"⟩ = .ok "old".toUTF8 := by rfl
  have hspares : SparesLater halfEmpty (halfEmptyProject.targets.map halfEmptyProject.jobFor) := by
    refine ⟨fun other hother => ?_, fun other hother => absurd hother List.not_mem_nil, trivial⟩
    rw [List.mem_singleton.mp hother]
    exact half_empty_unaffected
      (Job.build_keeps_read hold (by decide +kernel) (by decide +kernel))
  exact ⟨reports, final, rfl, houtcomes, dry_run_forecasts load_half_empty hspares hrun⟩

end Project

end TemplateBundle

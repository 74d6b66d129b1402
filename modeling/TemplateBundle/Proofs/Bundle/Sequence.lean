import TemplateBundle.Proofs.Bundle.Frame
import TemplateBundle.Proofs.Project.Loading

/-!
# Building targets in turn

Building all targets of a project is building each of them by its name, in the order of the project
file, although the project is then loaded anew each time (`build_all_in_turn`). The invariant is
that the project file is still the same: no build writes to it, if no destination and no file beside
one is the project file.
-/

namespace TemplateBundle.Project

open FileTree

/-- Build the targets with these names one after the other, each in a run of its own. -/
def buildEach (path : Path) (isDry : Bool) : List String → Working BuildFault (List BuildReport)
  | [] => pure []
  | name :: names => do
      let reports ← build path (.target name) isDry
      return reports ++ (← buildEach path isDry names)

/-- Build jobs one after the other in one run. -/
def buildJobs (isDry : Bool) (jobs : List Job) : Working BuildFault (List BuildReport) :=
  jobs.mapM fun job => job.build {} isDry

/-- No target is built over the project file: neither its destination nor the file beside that. -/
def SparesFile (project : Project) (path : Path) : Prop :=
  ∀ target ∈ project.targets,
    goal? (project.destinationOf target) ≠ goal? path ∧
      goal? (Destination.beside (project.destinationOf target)) ≠ goal? path

/-! ## One run -/

variable {path : Path} {isDry : Bool} {start final : Workspace} {project : Project}

/-- A run builds the jobs of its scope. -/
theorem run_build_of_jobs {scope : Scope} {jobs : List Job}
    (hjobs : jobsAt start.files path scope = .ok jobs) :
    (build path scope isDry).run start = (buildJobs isDry jobs).run start := by
  unfold build
  simp only [Working.run_bind, Working.run_files, Working.run_of_except, hjobs]
  rfl

/-- Building all targets builds their jobs. -/
theorem run_build_all (hload : load start.files path = .ok project) :
    (build path .all isDry).run start =
      (buildJobs isDry (project.targets.map project.jobFor)).run start := by
  apply run_build_of_jobs
  rw [jobsAt, hload]
  rfl

/-- Building a target builds its job. -/
theorem run_build_target (hload : load start.files path = .ok project) {target : Target}
    (hmem : target ∈ project.targets) :
    (build path (.target target.name) isDry).run start =
      (buildJobs isDry [project.jobFor target]).run start := by
  have hfound : project.target target.name = .ok target := by
    obtain ⟨text, file, -, -, hrepeated, rfl⟩ := load_ok_iff.mp hload
    exact target_eq_of_mem hrepeated hmem
  apply run_build_of_jobs
  rw [jobsAt, hload]
  show ((project.target target.name).map fun target => [project.jobFor target]).mapError _ = _
  rw [hfound]
  rfl

/-- The project stays the same while its targets are built. -/
theorem load_after_build (isDry : Bool) (hload : load start.files path = .ok project)
    (hspares : project.SparesFile path) {target : Target} (hmem : target ∈ project.targets) :
    load (((project.jobFor target).build {} isDry).run start).2.files path = .ok project := by
  obtain ⟨text, file, hread, hrest⟩ := load_ok_iff.mp hload
  obtain ⟨hdestination, hbeside⟩ := hspares target hmem
  exact load_ok_iff.mpr ⟨text, file, Job.build_keeps_read hread hdestination hbeside, hrest⟩

/-! ## All runs -/

/-- The induction is on the targets that are left. The project is loaded as before from what the
first build leaves, so the next ones are found in it too. -/
theorem run_build_rest (hspares : project.SparesFile path) {targets : List Target}
    (hmem : ∀ target ∈ targets, target ∈ project.targets)
    (hload : load start.files path = .ok project) :
    (buildJobs isDry (targets.map project.jobFor)).run start =
      (buildEach path isDry (targets.map Target.name)).run start := by
  induction targets generalizing start with
  | nil => rfl
  | cons target targets ih =>
      have htarget := hmem target List.mem_cons_self
      -- the next run loads the project from the files that this build leaves
      have hafter := load_after_build isDry hload hspares htarget
      have hrest := ih (fun other hother => hmem other (List.mem_cons_of_mem _ hother)) hafter
      simp only [List.map_cons, buildJobs, List.mapM_cons, buildEach, Working.run_bind,
        run_build_target hload htarget, List.mapM_nil, Working.run_pure]
      rcases hrun : ((project.jobFor target).build {} isDry).run start with ⟨fault | report, middle⟩
      · rfl
      · rw [hrun] at hrest
        simp only
        rw [← hrest]
        rfl

/-- Where building one by one fails, it does so at one of the targets, and those before were
built. -/
theorem build_each_split {names : List String} {fault : BuildFault}
    (h : (buildEach path isDry names).run start = (.error fault, final)) :
    ∃ before name after reports middle, names = before ++ name :: after ∧
      (buildEach path isDry before).run start = (.ok reports, middle) ∧
      (build path (.target name) isDry).run middle = (.error fault, final) := by
  induction names generalizing start with
  | nil => cases h
  | cons name names ih =>
      simp only [buildEach, Working.run_bind, Working.run_pure] at h
      rcases hrun : (build path (.target name) isDry).run start with ⟨found | reports, middle⟩
      · simp only [hrun] at h
        cases h
        exact ⟨[], name, names, [], start, rfl, rfl, hrun⟩
      · simp only [hrun] at h
        rcases hrest : (buildEach path isDry names).run middle with ⟨found | others, last⟩
        · simp only [hrest] at h
          cases h
          obtain ⟨before, failed, after, done, reached, hnames, hdone, hfailed⟩ := ih hrest
          refine ⟨name :: before, failed, after, reports ++ done, reached, ?_, ?_, hfailed⟩
          · rw [hnames, List.cons_append]
          · simp only [buildEach, Working.run_bind, Working.run_pure, hrun, hdone]
        · simp only [hrest] at h
          cases h

/-- A run for one target that fails for any other reason than a file has changed no file. -/
theorem build_target_fault_keeps {name : String} {fault : BuildFault}
    (hrun : (build path (.target name) isDry).run start = (.error fault, final))
    (hfault : ¬ fault.IsFile) : final.files = start.files := by
  cases hjobs : jobsAt start.files path (.target name) with
  | error found =>
      simp only [build, Working.run_bind, Working.run_files, Working.run_of_except, hjobs] at hrun
      cases hrun
      rfl
  | ok jobs =>
      -- the scope of one target has one job, so there is no earlier one that wrote anything
      obtain ⟨job, rfl⟩ : ∃ job, jobs = [job] := by
        obtain ⟨project, -, hscope⟩ := except_bind_ok_iff.mp (except_map_error_ok_iff.mp hjobs)
        cases htarget : project.target name with
        | error found => simp [Project.jobs, htarget, Except.map] at hscope
        | ok target =>
            refine ⟨project.jobFor target, ?_⟩
            simpa [Project.jobs, htarget, Except.map] using hscope.symm
      rw [run_build_of_jobs hjobs] at hrun
      simp only [buildJobs, List.mapM_cons, List.mapM_nil, Working.run_bind, Working.run_pure]
        at hrun
      rcases hjob : (job.build {} isDry).run start with ⟨found | report, middle⟩
      · simp only [hjob] at hrun
        cases hrun
        exact Job.build_fault_keeps hjob hfault
      · simp only [hjob] at hrun
        cases hrun

/-- Building all targets is building them in turn by their names: with the same reports, the same
fault and the same files in the end. A target that fails for any other reason than a file leaves
the files as the targets before it did. -/
theorem build_all_in_turn (hload : load start.files path = .ok project)
    (hspares : project.SparesFile path) :
    (build path .all isDry).run start =
        (buildEach path isDry (project.targets.map Target.name)).run start ∧
      ∀ fault final, (build path .all isDry).run start = (.error fault, final) →
        ¬ fault.IsFile →
        ∃ before name after reports middle,
          project.targets.map Target.name = before ++ name :: after ∧
          (buildEach path isDry before).run start = (.ok reports, middle) ∧
          (build path (.target name) isDry).run middle = (.error fault, final) ∧
          final.files = middle.files := by
  have hall : (build path .all isDry).run start =
      (buildEach path isDry (project.targets.map Target.name)).run start := by
    rw [run_build_all hload]
    exact run_build_rest hspares (fun _ h => h) hload
  refine ⟨hall, fun fault final hrun hfault => ?_⟩
  rw [hall] at hrun
  obtain ⟨before, name, after, reports, middle, hnames, hbefore, hfailed⟩ := build_each_split hrun
  exact ⟨before, name, after, reports, middle, hnames, hbefore, hfailed,
    build_target_fault_keeps hfailed hfault⟩

/-- A workspace that holds nothing but a project file with two targets, both without sources. -/
def twoTargets : Workspace :=
  { files := ⟨[(["", "jst.yaml"],
      .file "targets: [{name: a, dest: a.js}, {name: b, dest: b.js}]".toUTF8)]⟩ }

/-- The two targets are built in turn. -/
theorem build_two_in_turn :
    (build ⟨"jst.yaml"⟩ .all false).run twoTargets =
      (buildEach ⟨"jst.yaml"⟩ false ["a", "b"]).run twoTargets := by
  let targets : List Target :=
    [{ name := "a", destination := ⟨"a.js"⟩ }, { name := "b", destination := ⟨"b.js"⟩ }]
  have htext : ProjectFile.ofText "targets: [{name: a, dest: a.js}, {name: b, dest: b.js}]" =
      .ok { targets := targets } :=
    except_ok_iff_to_option.mpr (by decide +kernel)
  have hload : load twoTargets.files ⟨"jst.yaml"⟩ = .ok ⟨⟨"jst.yaml"⟩, ⟨""⟩, targets⟩ := by
    refine load_ok_iff.mpr ⟨_, _, rfl, htext, by decide, ?_⟩
    simp only [Project.mk.injEq, and_true, true_and]
    decide +kernel
  have hspares : (⟨⟨"jst.yaml"⟩, ⟨""⟩, targets⟩ : Project).SparesFile ⟨"jst.yaml"⟩ := by
    unfold SparesFile
    decide +kernel
  exact (build_all_in_turn hload hspares).1

end TemplateBundle.Project

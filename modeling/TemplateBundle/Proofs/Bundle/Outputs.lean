import TemplateBundle.Proofs.Bundle.Recalling
import TemplateBundle.Proofs.Bundle.Rendering
import TemplateBundle.Proofs.Bundle.Sequence

/-!
# What a run leaves at the destinations

After a run that succeeds, a destination holds what was rendered for it, unless a target that was
written later took its place (`outputs_held`). Nothing keeps two targets from the same destination,
or one from being written through the other: then the earlier output is lost (`outputs_lost`).
-/

namespace TemplateBundle

open FileTree

/-! ## Writing a destination -/

namespace Destination

variable {path : Path} {text : String} {isDry : Bool} {start final : Workspace}

/-- The bytes of a destination are what is read from it. -/
theorem existing_eq_some_iff {files : FileTree} {content : ByteArray} :
    existing? files path = .ok (some content) ↔ files.read path = .ok content := by
  unfold existing?
  cases files.read path with
  | ok found => simp
  | error fault => cases fault <;> simp

/-- A destination is left alone only if it holds the text. -/
theorem write_unchanged_read
    (h : (write path text isDry).run start = (.ok .unchanged, final)) :
    start.files.read path = .ok text.toUTF8 := by
  unfold write at h
  obtain ⟨files, middle, hfiles, h⟩ := Working.run_bind_ok_iff.mp h
  cases hfiles
  obtain ⟨existing, middle, hexisting, h⟩ := Working.run_bind_ok_iff.mp h
  rw [Working.run_of_except, Prod.mk.injEq, except_map_error_ok_iff] at hexisting
  obtain ⟨hexisting, rfl⟩ := hexisting
  split_ifs at h with hsame hdry
  · obtain ⟨content, rfl, hdata⟩ := Option.map_eq_some_iff.mp hsame
    rw [← ByteArray.ext hdata]
    exact existing_eq_some_iff.mp hexisting
  · obtain ⟨-, middle, -, h⟩ := Working.run_bind_ok_iff.mp h
    cases h
  · obtain ⟨-, middle, -, h⟩ := Working.run_bind_ok_iff.mp h
    obtain ⟨-, middle, -, h⟩ := Working.run_bind_ok_iff.mp h
    obtain ⟨-, middle, -, h⟩ := Working.run_bind_ok_iff.mp h
    obtain ⟨-, middle, -, h⟩ := Working.run_bind_ok_iff.mp h
    cases h

/-- A destination that was written or left alone holds the text. -/
theorem write_holds {outcome : WriteOutcome}
    (h : (write path text isDry).run start = (.ok outcome, final))
    (houtcome : outcome = .written ∨ outcome = .unchanged) :
    final.files.read path = .ok text.toUTF8 := by
  have hframe := write_outcome path text isDry start
  rw [h] at hframe
  rcases houtcome with rfl | rfl
  · exact hframe.2.read
  · rw [show final.files = start.files from hframe]
    exact write_unchanged_read h

end Destination

/-! ## One build -/

namespace Job

variable {toolchain : Toolchain} {job : Job} {isDry : Bool} {start final : Workspace}
  {report : BuildReport}

/-- The report of a build that rendered this and ended so. -/
def reportOf (job : Job) (rendered : Rendered) (outcome : WriteOutcome) : BuildReport where
  name := job.name
  destination := job.destination
  missing := rendered.missing
  templates := rendered.templates
  outcome := outcome

/-- A build succeeds if rendering does and then what is to be done with the text. -/
theorem build_ok_iff : (job.build toolchain isDry).run start = (.ok report, final) ↔
    ∃ rendered log outcome,
      (job.render toolchain start.files).run
          (start.log ++ [⟨.debug, "building target '" ++ job.name ++ "'"⟩]) = (.ok rendered, log) ∧
        (job.writeRendered rendered isDry).run ⟨start.files, log⟩ = (.ok outcome, final) ∧
        report = job.reportOf rendered outcome := by
  unfold build
  simp only [Working.run_bind, Working.run_log, Working.run_files, Working.run_of_reporting]
  constructor
  · intro h
    rcases hrender : (job.render toolchain start.files).run
        (start.log ++ [⟨.debug, "building target '" ++ job.name ++ "'"⟩])
      with ⟨fault | rendered, log⟩
    · rw [hrender] at h
      cases h
    rw [hrender] at h
    rcases hwrite : (job.writeRendered rendered isDry).run ⟨start.files, log⟩
      with ⟨fault | outcome, last⟩
    · simp only [hwrite] at h
      cases h
    · simp only [hwrite] at h
      cases h
      exact ⟨rendered, log, outcome, hrender, hwrite, rfl⟩
  · rintro ⟨rendered, log, outcome, hrender, hwrite, rfl⟩
    simp only [hrender, hwrite]
    rfl

/-- A build that succeeds has rendered something and done what was to be done with it. -/
theorem build_ok_inv (h : (job.build toolchain isDry).run start = (.ok report, final)) :
    ∃ rendered log, ((job.render toolchain start.files).run start.log).1 = .ok rendered ∧
      (job.writeRendered rendered isDry).run ⟨start.files, log⟩ = (.ok report.outcome, final) := by
  obtain ⟨rendered, log, outcome, hrender, hwrite, rfl⟩ := build_ok_iff.mp h
  exact ⟨rendered, log, (render_unswayed toolchain start.files job).result_eq hrender _, hwrite⟩

/-- A bundle that was written or left alone has a text, and its destination holds it. -/
theorem write_rendered_holds {rendered : Rendered} {outcome : WriteOutcome}
    (h : (job.writeRendered rendered isDry).run start = (.ok outcome, final))
    (houtcome : outcome = .written ∨ outcome = .unchanged) :
    ∃ text, rendered.text = some text ∧ final.files.read job.destination = .ok text.toUTF8 := by
  unfold writeRendered at h
  cases htext : rendered.text with
  | none =>
      simp only [htext] at h
      obtain ⟨⟨⟩, middle, -, h⟩ := Working.run_bind_ok_iff.mp h
      cases h
      simp at houtcome
  | some text =>
      simp only [htext] at h
      exact ⟨text, rfl, Destination.write_holds h houtcome⟩

/-- A build that succeeds keeps what is read elsewhere, and everything if it writes nothing. -/
theorem build_ok_keeps_read {other : Path} {content : ByteArray}
    (h : (job.build toolchain isDry).run start = (.ok report, final))
    (hread : start.files.read other = .ok content)
    (hwritten : report.outcome = .written → goal? job.destination ≠ goal? other ∧
      goal? (Destination.beside job.destination) ≠ goal? other) :
    final.files.read other = .ok content := by
  obtain ⟨rendered, log, -, hwrite⟩ := build_ok_inv h
  unfold writeRendered at hwrite
  cases htext : rendered.text with
  | none =>
      simp only [htext] at hwrite
      obtain ⟨⟨⟩, middle, hlog, hwrite⟩ := Working.run_bind_ok_iff.mp hwrite
      cases hlog
      rw [Working.run_pure, Prod.mk.injEq] at hwrite
      rw [← hwrite.2]
      exact hread
  | some text =>
      simp only [htext] at hwrite
      -- rendering reads only, so what is left is the write
      have hframe := Destination.write_outcome job.destination text isDry ⟨start.files, log⟩
      rw [hwrite] at hframe
      cases houtcome : report.outcome with
      | written =>
          obtain ⟨hdestination, hbeside⟩ := hwritten houtcome
          rw [houtcome] at hframe
          exact hframe.2.keeps_read hread hdestination hbeside
      | unchanged =>
          rw [houtcome] at hframe
          exact (congrArg (·.read other) hframe).trans hread
      | wouldWrite =>
          rw [houtcome] at hframe
          exact (congrArg (·.read other) hframe.2).trans hread
      | empty =>
          rw [houtcome] at hframe
          exact hframe.elim

/-- Nothing is left beside a destination that was written. -/
theorem build_written_beside_gone (h : (job.build toolchain isDry).run start = (.ok report, final))
    (hwritten : report.outcome = .written) :
    final.files.contains (Destination.beside job.destination) = false := by
  obtain ⟨rendered, log, -, hwrite⟩ := build_ok_inv h
  rw [hwritten] at hwrite
  unfold writeRendered at hwrite
  cases htext : rendered.text with
  | none =>
      simp only [htext] at hwrite
      obtain ⟨⟨⟩, middle, -, hwrite⟩ := Working.run_bind_ok_iff.mp hwrite
      cases hwrite
  | some text =>
      simp only [htext] at hwrite
      have hframe := Destination.write_outcome job.destination text isDry ⟨start.files, log⟩
      rw [hwrite] at hframe
      exact hframe.2.beside_gone

end Job

/-! ## A run -/

/-- A bundle that was built: what was rendered for it during the run, and what became of it. -/
structure Built where
  job : Job
  rendered : Rendered
  report : BuildReport

/-- The destination holds what was rendered for it. -/
def Built.IsHeldBy (built : Built) (files : FileTree) : Prop :=
  ∃ text, built.rendered.text = some text ∧ files.read built.job.destination = .ok text.toUTF8

/-- The builds lead from one workspace to another one, one after the other. Each bundle is rendered
from the files as the builds before it left them. -/
inductive Builds : Workspace → List Built → Workspace → Prop
  | nil (start : Workspace) : Builds start [] start
  | cons {start middle final : Workspace} {built : Built} {others : List Built} :
      ((built.job.render {} start.files).run start.log).1 = .ok built.rendered →
      (built.job.build {} false).run start = (.ok built.report, middle) →
      Builds middle others final → Builds start (built :: others) final

namespace Builds

variable {start final : Workspace} {builts before after : List Built} {built : Built}

/-- Builds may be taken in two parts. -/
theorem append_iff : Builds start (before ++ after) final ↔
    ∃ middle, Builds start before middle ∧ Builds middle after final := by
  induction before generalizing start with
  | nil =>
      constructor
      · exact fun h => ⟨start, .nil start, h⟩
      · rintro ⟨middle, ⟨⟩, h⟩
        exact h
  | cons built before ih =>
      constructor
      · rintro (_ | ⟨hrender, hbuild, hrest⟩)
        obtain ⟨middle, hbefore, hafter⟩ := ih.mp hrest
        exact ⟨middle, .cons hrender hbuild hbefore, hafter⟩
      · rintro ⟨middle, (_ | ⟨hrender, hbuild, hrest⟩), hafter⟩
        exact .cons hrender hbuild (ih.mpr ⟨middle, hrest, hafter⟩)

/-- What a path reads is kept by builds that write nothing there or through there. -/
theorem keeps_read {other : Path} {content : ByteArray} (h : Builds start builts final)
    (hread : start.files.read other = .ok content)
    (hwritten : ∀ built ∈ builts, built.report.outcome = .written →
      goal? built.job.destination ≠ goal? other ∧
        goal? (Destination.beside built.job.destination) ≠ goal? other) :
    final.files.read other = .ok content := by
  induction h with
  | nil => exact hread
  | cons hrender hbuild hrest ih =>
      refine ih (Job.build_ok_keeps_read hbuild hread (hwritten _ List.mem_cons_self)) ?_
      exact fun built hbuilt => hwritten built (List.mem_cons_of_mem _ hbuilt)

/-- A destination that was written or left alone holds its text in the end, if no later build took
its place. -/
theorem is_held (h : Builds start (before ++ built :: after) final)
    (houtcome : built.report.outcome = .written ∨ built.report.outcome = .unchanged)
    (hafter : ∀ other ∈ after, other.report.outcome = .written →
      goal? other.job.destination ≠ goal? built.job.destination ∧
        goal? (Destination.beside other.job.destination) ≠ goal? built.job.destination) :
    built.IsHeldBy final.files := by
  obtain ⟨middle, -, h⟩ := append_iff.mp h
  cases h with
  | cons hrender hbuild hrest =>
      obtain ⟨rendered, log, hrendered, hwrite⟩ := Job.build_ok_inv hbuild
      obtain rfl : rendered = built.rendered := Except.ok.inj (hrendered.symm.trans hrender)
      obtain ⟨text, htext, hread⟩ := Job.write_rendered_holds hwrite houtcome
      exact ⟨text, htext, hrest.keeps_read hread hafter⟩

/-- Jobs that are all built are builds in this sense. The induction is on the jobs. -/
theorem of_jobs {jobs : List Job} {reports : List BuildReport}
    (h : (Project.buildJobs false jobs).run start = (.ok reports, final)) :
    ∃ builts, Builds start builts final ∧ builts.map Built.job = jobs ∧
      builts.map Built.report = reports := by
  induction jobs generalizing start reports with
  | nil =>
      cases h
      exact ⟨[], .nil _, rfl, rfl⟩
  | cons job jobs ih =>
      have hcons : Project.buildJobs false (job :: jobs) =
          job.build {} false >>= fun report => Project.buildJobs false jobs >>= fun reports =>
            pure (report :: reports) := List.mapM_cons
      rw [hcons] at h
      obtain ⟨report, middle, hbuild, h⟩ := Working.run_bind_ok_iff.mp h
      obtain ⟨others, last, hothers, h⟩ := Working.run_bind_ok_iff.mp h
      cases h
      obtain ⟨builts, hbuilts, hjobs, hreports⟩ := ih hothers
      obtain ⟨rendered, log, hrendered, -⟩ := Job.build_ok_inv hbuild
      refine ⟨⟨job, rendered, report⟩ :: builts, .cons hrendered hbuild hbuilts, ?_, ?_⟩
      · rw [List.map_cons, hjobs]
      · rw [List.map_cons, hreports]

end Builds

namespace Project

/-- After a run that builds all targets, every destination that was written or left alone holds the
text that was rendered for it during the run, unless a target that was written later has the same
destination, or has the file beside its own destination there. -/
theorem outputs_held {path : Path} {start final : Workspace} {project : Project}
    {reports : List BuildReport} (hload : load start.files path = .ok project)
    (hrun : (build path .all false).run start = (.ok reports, final)) :
    ∃ builts, Builds start builts final ∧
      builts.map Built.job = project.targets.map project.jobFor ∧
      builts.map Built.report = reports ∧
      ∀ before built after, builts = before ++ built :: after →
        built.report.outcome = .written ∨ built.report.outcome = .unchanged →
        (∀ other ∈ after, other.report.outcome = .written →
          goal? other.job.destination ≠ goal? built.job.destination ∧
            goal? (Destination.beside other.job.destination) ≠ goal? built.job.destination) →
        built.IsHeldBy final.files := by
  rw [run_build_all hload] at hrun
  obtain ⟨builts, hbuilts, hjobs, hreports⟩ := Builds.of_jobs hrun
  refine ⟨builts, hbuilts, hjobs, hreports, ?_⟩
  rintro before built after rfl houtcome hafter
  exact hbuilts.is_held houtcome hafter

/-- All targets are written, and those behind the first ones change what a path reads. -/
def overwrites (runJobs : List Job → Working BuildFault (List BuildReport)) (project : Project)
    (count : Nat) (place : Path) (start : Workspace) : Bool :=
  match (runJobs ((project.targets.take count).map project.jobFor)).run start with
  | (.ok reports, middle) =>
      match (runJobs ((project.targets.drop count).map project.jobFor)).run middle with
      | (.ok others, final) =>
          (reports ++ others).all (fun report => report.outcome = .written) &&
            (middle.files.read place).toOption.map ByteArray.data ≠
              (final.files.read place).toOption.map ByteArray.data
      | _ => false
  | _ => false

/-- A run with overwritten output, parted behind the first targets. -/
theorem overwrites_inv {path place : Path} {project : Project} {count : Nat} {start : Workspace}
    (hload : load start.files path = .ok project)
    (h : overwrites (buildJobs false) project count place start = true) :
    ∃ early late middle final,
      (build path .all false).run start = (.ok ((early ++ late).map Built.report), final) ∧
      Builds start early middle ∧ Builds middle late final ∧
      early.map Built.job = (project.targets.take count).map project.jobFor ∧
      late.map Built.job = (project.targets.drop count).map project.jobFor ∧
      (∀ built ∈ early ++ late, built.report.outcome = .written) ∧
      middle.files.read place ≠ final.files.read place := by
  unfold overwrites at h
  rcases hearly : (buildJobs false ((project.targets.take count).map project.jobFor)).run start
    with ⟨fault | reports, middle⟩
  · rw [hearly] at h
    cases h
  rw [hearly] at h
  rcases hlate : (buildJobs false ((project.targets.drop count).map project.jobFor)).run middle
    with ⟨fault | others, final⟩
  · simp only [hlate, Bool.false_eq_true] at h
  simp only [hlate, Bool.and_eq_true, List.all_eq_true, decide_eq_true_eq] at h
  obtain ⟨hwritten, hdiffer⟩ := h
  obtain ⟨early, hearlyBuilds, hearlyJobs, rfl⟩ := Builds.of_jobs hearly
  obtain ⟨late, hlateBuilds, hlateJobs, rfl⟩ := Builds.of_jobs hlate
  rw [← List.map_append] at hwritten
  refine ⟨early, late, middle, final, ?_, hearlyBuilds, hlateBuilds, hearlyJobs, hlateJobs,
    fun built hbuilt => hwritten _ (List.mem_map_of_mem hbuilt), fun hsame => hdiffer (by rw [hsame])⟩
  rw [run_build_all hload, ← List.take_append_drop count project.targets, List.map_append,
    buildJobs, List.mapM_append, List.map_append]
  refine Working.run_bind_ok_iff.mpr ⟨_, middle, hearly, ?_⟩
  exact Working.run_bind_ok_iff.mpr ⟨_, final, hlate, rfl⟩

/-- A project in which destinations meet: the second target is written through the destination of
the first one, and the third one to that of the second one. -/
def crowdedProject : Project where
  path := ⟨"jst.yaml"⟩
  directory := ⟨""⟩
  targets :=
    [{ name := "a", destination := ⟨"o.js.jst.tmp"⟩, sources := ["x"] },
      { name := "b", destination := ⟨"o.js"⟩, sources := ["x"] },
      { name := "c", destination := ⟨"o.js"⟩, sources := ["x"], options := { prettify := true } }]

/-- A workspace with that project and its one source. -/
def crowded : Workspace :=
  { files := ⟨[(["", "jst.yaml"],
      .file ("targets: [{name: a, dest: o.js.jst.tmp, src: [x]}, {name: b, dest: o.js, src: [x]}, " ++
        "{name: c, dest: o.js, src: [x], options: {prettify: true}}]").toUTF8),
      (["", "x"], .file "x".toUTF8)]⟩ }

theorem load_crowded : load crowded.files ⟨"jst.yaml"⟩ = .ok crowdedProject := by
  have htext : ProjectFile.ofText
      ("targets: [{name: a, dest: o.js.jst.tmp, src: [x]}, {name: b, dest: o.js, src: [x]}, " ++
        "{name: c, dest: o.js, src: [x], options: {prettify: true}}]") =
      .ok { targets := crowdedProject.targets } :=
    except_ok_iff_to_option.mpr (by decide +kernel)
  refine load_ok_iff.mpr ⟨_, _, rfl, htext, by decide, ?_⟩
  unfold crowdedProject
  simp only [Project.mk.injEq, and_true, true_and]
  decide +kernel

/-- Build jobs whose sources are a single letter. -/
def buildLetters (jobs : List Job) : Working BuildFault (List BuildReport) :=
  jobs.mapM fun job => job.build .knowingLetter false

theorem build_letters_eq : buildLetters = buildJobs false := by
  unfold buildLetters
  rw [Toolchain.knowing_letter_eq]
  rfl

theorem crowded_overwrites :
    overwrites (buildJobs false) crowdedProject 2 ⟨"o.js"⟩ crowded = true := by
  rw [← build_letters_eq]
  decide +kernel

/-- The three targets lead to different paths, all in the working directory. -/
theorem crowded_destinations :
    crowdedProject.targets.map (fun target => (crowdedProject.jobFor target).destination) =
      [⟨"o.js.jst.tmp"⟩, ⟨"o.js"⟩, ⟨"o.js"⟩] := by
  decide +kernel

/-- Three builds for the targets have their destinations. -/
theorem crowded_builts {builts : List Built}
    (hjobs : builts.map Built.job = crowdedProject.targets.map crowdedProject.jobFor) :
    ∃ first second third : Built, builts = [first, second, third] ∧
      first.job.destination = ⟨"o.js.jst.tmp"⟩ ∧ second.job.destination = ⟨"o.js"⟩ ∧
      third.job.destination = ⟨"o.js"⟩ := by
  have hdestinations : builts.map (fun built => built.job.destination) =
      [⟨"o.js.jst.tmp"⟩, ⟨"o.js"⟩, ⟨"o.js"⟩] := by
    have hmapped := congrArg (List.map Job.destination) hjobs
    rw [List.map_map, List.map_map] at hmapped
    exact hmapped.trans crowded_destinations
  have hlength : builts.length = 3 := by
    rw [← List.length_map, hdestinations]
    rfl
  obtain ⟨first, second, third, rfl⟩ := List.length_eq_three.mp hlength
  simp only [List.map_cons, List.map_nil, List.cons.injEq, and_true] at hdestinations
  exact ⟨first, second, third, rfl, hdestinations⟩

/-- Of the three targets the last one is held by its destination. -/
theorem last_output_held : ∃ reports final, ∃ built : Built,
    (build ⟨"jst.yaml"⟩ .all false).run crowded = (.ok reports, final) ∧
      built.job.destination = ⟨"o.js"⟩ ∧ built.IsHeldBy final.files := by
  obtain ⟨early, late, middle, final, hrun, -, -, -, -, hwritten, -⟩ :=
    overwrites_inv load_crowded crowded_overwrites
  obtain ⟨builts, -, hjobs, hreports, hheld⟩ := outputs_held load_crowded hrun
  obtain ⟨first, second, third, rfl, -, -, hdestination⟩ := crowded_builts hjobs
  have houtcome : third.report.outcome = .written := by
    have hmem : third.report ∈ (early ++ late).map Built.report := by
      rw [← hreports]
      exact List.mem_map_of_mem (by simp)
    obtain ⟨built, hbuilt, hreport⟩ := List.mem_map.mp hmem
    rw [← hreport]
    exact hwritten built hbuilt
  have hthird := hheld [first, second] third [] rfl (.inl houtcome)
    fun other hother => absurd hother List.not_mem_nil
  exact ⟨_, final, third, hrun, hdestination, hthird⟩

/-- What was built for a target may be lost, though its report says that it was written. Of the
three targets the first one is gone from its destination, since the others were written through
there, and the destination of the second one holds the text of the third one. -/
theorem outputs_lost : ∃ project reports final first second third,
    load crowded.files ⟨"jst.yaml"⟩ = .ok project ∧
      (build ⟨"jst.yaml"⟩ .all false).run crowded = (.ok reports, final) ∧
      Builds crowded [first, second, third] final ∧
      [first, second, third].map Built.job = project.targets.map project.jobFor ∧
      [first, second, third].map Built.report = reports ∧
      (∀ report ∈ reports, report.outcome = .written) ∧
      ¬ first.IsHeldBy final.files ∧ ¬ second.IsHeldBy final.files := by
  obtain ⟨early, late, middle, final, hrun, hearly, hlate, hearlyJobs, hlateJobs, hwritten,
    hdiffer⟩ := overwrites_inv load_crowded crowded_overwrites
  have hjobs : (early ++ late).map Built.job =
      crowdedProject.targets.map crowdedProject.jobFor := by
    rw [List.map_append, hearlyJobs, hlateJobs, ← List.map_append, List.take_append_drop]
  have hlateLength : late.length = 1 := by
    rw [← List.length_map, hlateJobs, List.length_map]
    rfl
  obtain ⟨first, second, third, hbuilts, hfirst, hsecond, hthird⟩ := crowded_builts hjobs
  obtain ⟨last, rfl⟩ := List.length_eq_one_iff.mp hlateLength
  obtain ⟨rfl, hlast⟩ : early = [first, second] ∧ [last] = [third] :=
    List.append_inj' hbuilts rfl
  obtain rfl : last = third := List.singleton_inj.mp hlast
  refine ⟨crowdedProject, _, final, first, second, last, load_crowded, hrun,
    Builds.append_iff.mpr ⟨middle, hearly, hlate⟩, hjobs, rfl, ?_, ?_, ?_⟩
  · intro report hreport
    obtain ⟨built, hbuilt, rfl⟩ := List.mem_map.mp hreport
    exact hwritten built hbuilt
  · -- the last build put away what stood beside its destination
    rintro ⟨text, -, hread⟩
    cases hlate with
    | cons hrender hbuild hrest =>
        cases hrest
        have hgone := Job.build_written_beside_gone hbuild (hwritten last (by simp))
        rw [hthird, show Destination.beside ⟨"o.js"⟩ = ⟨"o.js.jst.tmp"⟩ by decide, ← hfirst,
          FileTree.contains_of_read hread] at hgone
        cases hgone
  · -- the destination held the text of the second target before the last build changed it
    rintro ⟨text, htext, hread⟩
    have hboth : Builds crowded ([first] ++ second :: []) middle := hearly
    obtain ⟨earlier, hearlier, hreadEarlier⟩ := hboth.is_held (.inl (hwritten second (by simp)))
      fun other hother => absurd hother List.not_mem_nil
    rw [htext, Option.some.injEq] at hearlier
    rw [hsecond] at hread hreadEarlier
    exact hdiffer (by rw [hread, hreadEarlier, hearlier])

end Project

end TemplateBundle

import TemplateBundle.Bundle.Build
import TemplateBundle.Proofs.FileTree.Naming
import TemplateBundle.Proofs.Workspace.Storage

/-!
# What a build leaves alone

Building a bundle renders it first, from the files as they are, and touches them only to write the
destination. So a build that fails for any reason but a file has changed nothing
(`build_fault_keeps`), and one whose destination is another file keeps what a path reads
(`build_keeps_read`). What is listed has names after every build (`build_keeps_names`).
-/

namespace TemplateBundle

open FileTree

/-! ## Reading across a replacement -/

namespace FileTree

variable {made : Location → Prop} {path beside other : Path} {content : ByteArray}
  {before after : FileTree}

theorem Abandoned.keeps_directories (h : Abandoned made beside before after) :
    KeepsDirectories before after := by
  intro location hdirectory
  rcases h location with hsame | ⟨-, ⟨content, hfile⟩, -⟩
  · rcases hsame with hsame | ⟨hnone, -, -⟩
    · exact hsame.trans hdirectory
    · rw [hdirectory] at hnone
      cases hnone
  · rw [hdirectory] at hfile
    cases hfile

/-- A file is read as before where directories are kept and nothing else happened to it. -/
theorem read_of_same_or_made (hkeeps : KeepsDirectories before after)
    (hread : before.read other = .ok content)
    (hsame : ∀ location, goal? other = some location → SameOrMade made before after location) :
    after.read other = .ok content := by
  obtain ⟨location, hresolve, hget⟩ := read_ok_iff.mp hread
  rw [read_ok_iff]
  refine ⟨location, resolve_keeps hkeeps hresolve, ?_⟩
  rcases hsame location (resolve_goal hresolve) with hsame | ⟨hnone, -, -⟩
  · exact hsame.trans hget
  · rw [hget] at hnone
    cases hnone

/-- Replacing a file does not touch what is read elsewhere. -/
theorem Replaced.keeps_read (h : Replaced made path beside content before after)
    {kept : ByteArray} (hread : before.read other = .ok kept) (hpath : goal? path ≠ goal? other)
    (hbeside : goal? beside ≠ goal? other) : after.read other = .ok kept := by
  have hsame : ∀ location, goal? other = some location →
      SameOrMade made before after location := by
    intro location hgoal
    exact h.elsewhere location (hgoal ▸ hpath) (hgoal ▸ hbeside)
  exact read_of_same_or_made h.directories hread hsame

/-- Giving up on a replacement does not touch what is read elsewhere. -/
theorem Abandoned.keeps_read (h : Abandoned made beside before after)
    {kept : ByteArray} (hread : before.read other = .ok kept)
    (hbeside : goal? beside ≠ goal? other) : after.read other = .ok kept := by
  have hsame : ∀ location, goal? other = some location →
      SameOrMade made before after location := by
    intro location hgoal
    rcases h location with hsame | ⟨hgone, -, -⟩
    · exact hsame
    · exact absurd (hgone.trans hgoal.symm) hbeside
  exact read_of_same_or_made h.keeps_directories hread hsame

end FileTree

/-! ## Writing a destination -/

/-- The fault is that a file cannot be read or written. -/
def BuildFault.IsFile : BuildFault → Prop
  | .file _ _ => True
  | _ => False

namespace Destination

/-- Writing a destination keeps what is read elsewhere. -/
theorem write_keeps_read {path other : Path} {content : ByteArray} {start : Workspace}
    (text : String) (isDry : Bool) (hread : start.files.read other = .ok content)
    (hpath : goal? path ≠ goal? other) (hbeside : goal? (beside path) ≠ goal? other) :
    ((write path text isDry).run start).2.files.read other = .ok content := by
  have houtcome := write_outcome path text isDry start
  rcases hrun : (write path text isDry).run start with ⟨fault | outcome, final⟩
  · rw [hrun] at houtcome
    exact houtcome.2.keeps_read hread hbeside
  · rw [hrun] at houtcome
    cases outcome with
    | written => exact houtcome.2.keeps_read hread hpath hbeside
    | unchanged => exact (congrArg (·.read other) houtcome).trans hread
    | wouldWrite => exact (congrArg (·.read other) houtcome.2).trans hread
    | empty => exact houtcome.elim

/-- Writing a destination fails only for a file. -/
theorem write_fails_only (path : Path) (text : String) (isDry : Bool) :
    (write path text isDry).FailsOnly BuildFault.IsFile := by
  have hfile : ∀ place found, (BuildFault.file place found).IsFile := fun _ _ => trivial
  have hparent : ∀ path, (makeParent path).FailsOnly BuildFault.IsFile := by
    intro path
    unfold makeParent
    split
    · exact .make_directories (hfile _) _
    · exact .pure ()
  unfold write
  refine .bind (.of_total fun _ => ⟨_, rfl⟩) fun files => ?_
  refine .bind (.of_except (hfile path) _) fun existing => ?_
  split_ifs
  · exact .bind (.log _ _) fun _ => .pure _
  · exact .bind (.log _ _) fun _ => .pure _
  · refine .bind (hparent path) fun _ => .bind (hparent (beside path)) fun _ => ?_
    exact .bind (.replace hfile _ _ _) fun _ => .bind (.log _ _) fun _ => .pure _

theorem write_keeps_names (path : Path) (text : String) (isDry : Bool) :
    (write path text isDry).KeepsNames := by
  have hparent (path : Path) : (makeParent path).KeepsNames := by
    unfold makeParent
    split
    · exact .make_directories _ _
    · exact .of_same fun _ => rfl
  unfold write
  refine .bind (.of_same fun _ => rfl) fun files => ?_
  refine .bind (.of_same fun start => by rw [Working.run_of_except]) fun existing => ?_
  split_ifs
  · exact .of_same fun _ => rfl
  · exact .of_same fun _ => rfl
  · refine .bind (hparent path) fun _ => .bind (hparent (beside path)) fun _ => ?_
    exact .bind (.replace _ _ _ _) fun _ => .of_same fun _ => rfl

end Destination

/-! ## Building -/

namespace Job

/-- A build leaves the files as they are, or does to them what writing the destination does, and
then it has the fault of that. -/
theorem build_writes (toolchain : Toolchain) (job : Job) (isDry : Bool) (start : Workspace) :
    ((job.build toolchain isDry).run start).2.files = start.files ∨
      ∃ text log,
        let write := (Destination.write job.destination text isDry).run ⟨start.files, log⟩
        ((job.build toolchain isDry).run start).2 = write.2 ∧
          ∀ fault, ((job.build toolchain isDry).run start).1 = .error fault →
            write.1 = .error fault := by
  unfold build
  simp only [Working.run_bind, Working.run_log, Working.run_files, Working.run_of_reporting]
  -- rendering only reports, so a fault in it leaves the files as they are
  rcases (job.render toolchain start.files).run _ with ⟨fault | rendered, log⟩
  · exact Or.inl rfl
  · unfold writeRendered
    cases htext : rendered.text with
    | none =>
        simp only [htext, Working.run_bind, Working.run_log, Working.run_pure]
        exact Or.inl trivial
    | some text =>
        right
        refine ⟨text, log, ?_⟩
        simp only [htext]
        rcases (Destination.write job.destination text isDry).run ⟨start.files, log⟩
          with ⟨fault | outcome, final⟩
        · exact ⟨rfl, fun _ h => congrArg Except.error (Except.error.inj h)⟩
        · exact ⟨rfl, fun _ h => nomatch h⟩

/-- A build that fails for any other reason than a file has changed no file. -/
theorem build_fault_keeps {toolchain : Toolchain} {job : Job} {isDry : Bool}
    {start final : Workspace} {fault : BuildFault}
    (hrun : (job.build toolchain isDry).run start = (.error fault, final))
    (hfault : ¬ fault.IsFile) : final.files = start.files := by
  have hwrites := build_writes toolchain job isDry start
  simp only [hrun] at hwrites
  rcases hwrites with hsame | ⟨text, log, -, hwrite⟩
  · exact hsame
  · exact absurd (Destination.write_fails_only _ _ _ _ _ _ (Prod.ext (hwrite fault rfl) rfl)) hfault

/-- A build keeps what is read from files other than its destination and the one beside it. -/
theorem build_keeps_read {toolchain : Toolchain} {job : Job} {isDry : Bool} {start : Workspace}
    {other : Path} {content : ByteArray} (hread : start.files.read other = .ok content)
    (hdestination : goal? job.destination ≠ goal? other)
    (hbeside : goal? (Destination.beside job.destination) ≠ goal? other) :
    ((job.build toolchain isDry).run start).2.files.read other = .ok content := by
  rcases build_writes toolchain job isDry start with hsame | ⟨text, log, hfinal, -⟩
  · rw [hsame]
    exact hread
  · rw [hfinal]
    exact Destination.write_keeps_read text isDry hread hdestination hbeside

/-- Every build of a bundle leaves a tree in which everything has a name, even if it fails. -/
theorem build_keeps_names (toolchain : Toolchain) (job : Job) (isDry : Bool) :
    (job.build toolchain isDry).KeepsNames := by
  intro start h
  rcases build_writes toolchain job isDry start with hsame | ⟨text, log, hfinal, -⟩
  · rwa [hsame]
  · rw [hfinal]
    exact Destination.write_keeps_names _ text isDry ⟨start.files, log⟩ h

end Job

end TemplateBundle

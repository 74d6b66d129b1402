import TemplateBundle.Proofs.Workspace.Reporting
import TemplateBundle.Proofs.Workspace.Running

/-!
# Two computations on the same files

Two computations tally if from the same files, whatever was reported before, they leave the same
files and end alike: both with the same fault, or both with values that are related. Computations
that tally are compared part by part (`Tallies.bind`).
-/

namespace TemplateBundle.Working

variable {ε α α' β β' : Type} {related : α → α' → Prop} {others : β → β' → Prop}

/-- From the same files, the computations leave the same files, and both fail with the same fault or
both give values that are related. -/
def Tallies (related : α → α' → Prop) (first : Working ε α) (second : Working ε α') : Prop :=
  ∀ start other : Workspace, start.files = other.files →
    (first.run start).2.files = (second.run other).2.files ∧
      ((∃ fault, (first.run start).1 = .error fault ∧ (second.run other).1 = .error fault) ∨
        ∃ value value', (first.run start).1 = .ok value ∧ (second.run other).1 = .ok value' ∧
          related value value')

namespace Tallies

theorem pure {value : α} {value' : α'} (h : related value value') :
    Tallies related (Pure.pure value : Working ε α) (Pure.pure value') :=
  fun _ _ hfiles => ⟨hfiles, .inr ⟨value, value', rfl, rfl, h⟩⟩

theorem bind {first : Working ε α} {second : Working ε α'} {next : α → Working ε β}
    {next' : α' → Working ε β'} (hfirst : Tallies related first second)
    (hnext : ∀ value value', related value value' → Tallies others (next value) (next' value')) :
    Tallies others (first >>= next) (second >>= next') := by
  intro start other hfiles
  obtain ⟨hmiddle, hends⟩ := hfirst start other hfiles
  rw [run_bind, run_bind]
  rcases hrun : first.run start with ⟨result, middle⟩
  rcases hrun' : second.run other with ⟨result', middle'⟩
  rw [hrun, hrun'] at hmiddle hends
  rcases hends with ⟨fault, rfl, rfl⟩ | ⟨value, value', rfl, rfl, hrelated⟩
  · exact ⟨hmiddle, .inl ⟨fault, rfl, rfl⟩⟩
  · exact hnext value value' hrelated middle middle' hmiddle

/-- What is reported does not matter. -/
theorem log (level : LogLevel) (message message' : String) :
    Tallies Eq (Working.log level message : Working ε Unit) (Working.log level message') :=
  fun _ _ hfiles => ⟨hfiles, .inr ⟨(), (), rfl, rfl, rfl⟩⟩

theorem files : Tallies Eq (Working.files : Working ε FileTree) Working.files :=
  fun start other hfiles => ⟨hfiles, .inr ⟨start.files, other.files, rfl, rfl, hfiles⟩⟩

theorem of_except (result : Except ε α) :
    Tallies Eq (Working.ofExcept result) (Working.ofExcept result) := by
  intro start other hfiles
  rw [run_of_except, run_of_except]
  cases result with
  | error fault => exact ⟨hfiles, .inl ⟨fault, rfl, rfl⟩⟩
  | ok value => exact ⟨hfiles, .inr ⟨value, value, rfl, rfl, rfl⟩⟩

theorem of_reporting {action : Reporting ε α} (h : Reporting.Unswayed action) :
    Tallies Eq (Working.ofReporting action) (Working.ofReporting action) := by
  intro start other hfiles
  rw [run_of_reporting, run_of_reporting, h start.log other.log]
  refine ⟨hfiles, ?_⟩
  cases (action.run other.log).1 with
  | error fault => exact .inl ⟨fault, rfl, rfl⟩
  | ok value => exact .inr ⟨value, value, rfl, rfl, rfl⟩

theorem make_directories (fault : FileFault → ε) (path : Path) :
    Tallies Eq (Working.makeDirectories fault path) (Working.makeDirectories fault path) := by
  intro start other hfiles
  rw [run_make_directories, run_make_directories, hfiles]
  refine ⟨rfl, ?_⟩
  cases (other.files.makeDirectories path).1 with
  | error found => exact .inl ⟨fault found, rfl, rfl⟩
  | ok => exact .inr ⟨(), (), rfl, rfl, rfl⟩

theorem replace (fault : Path → FileFault → ε) (path beside : Path) (content : ByteArray) :
    Tallies Eq (Working.replace fault path beside content)
      (Working.replace fault path beside content) := by
  intro start other hfiles
  rw [run_replace, run_replace, hfiles]
  cases other.files.write beside content with
  | error found => exact ⟨hfiles, .inl ⟨fault beside found, rfl, rfl⟩⟩
  | ok written =>
      dsimp only
      cases written.rename beside path with
      | error found => exact ⟨rfl, .inl ⟨fault path found, rfl, rfl⟩⟩
      | ok renamed => exact ⟨rfl, .inr ⟨(), (), rfl, rfl, rfl⟩⟩

end Tallies

end TemplateBundle.Working

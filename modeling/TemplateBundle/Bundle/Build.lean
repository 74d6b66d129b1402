import TemplateBundle.Bundle.Destination
import TemplateBundle.Bundle.Render
import TemplateBundle.Diff.Unified
import TemplateBundle.Project.Storage

/-!
# Building

Building renders bundles and writes their destinations, in the order of the project file up to the
first fault. A preview renders them too, and shows what would change.
-/

namespace TemplateBundle

/-- What building one bundle did. -/
structure BuildReport where
  name : String
  destination : Path
  missing : List Path
  templates : Nat
  outcome : WriteOutcome
  deriving DecidableEq, Repr, Inhabited

/-- What building one bundle would change. -/
structure PreviewReport where
  name : String
  /-- The destination and the difference to its text, if there is one. -/
  change : Option (Path × String)
  deriving DecidableEq, Repr, Inhabited

namespace Job

open Working (files log ofReporting)

/-- Write what was rendered. -/
def writeRendered (job : Job) (rendered : Rendered) (isDry : Bool) :
    Working BuildFault WriteOutcome :=
  match rendered.text with
  | some text => Destination.write job.destination text isDry
  | none => do
      log .warn ("Destination " ++ job.destination.text ++
        " not written because compiled files were empty.")
      return .empty

/-- Build a bundle. -/
def build (toolchain : Toolchain) (job : Job) (isDry : Bool) : Working BuildFault BuildReport := do
  log .debug ("building target '" ++ job.name ++ "'")
  let files ← files
  let rendered ← ofReporting (job.render toolchain files)
  let outcome ← job.writeRendered rendered isDry
  return {
    name := job.name
    destination := job.destination
    missing := rendered.missing
    templates := rendered.templates
    outcome := outcome }

/-- The text of a destination, which is empty if there is none. -/
def destinationText (files : FileTree) (path : Path) : Except FileFault String :=
  match files.readText path with
  | .ok text => .ok text
  | .error .missing => .ok ""
  | .error fault => .error fault

/-- The difference between the text of the destination and a new text. -/
def difference (job : Job) (old new : String) : String :=
  let shown := (job.destination.relativeTo job.directory).text
  Diff.unified ("a/" ++ shown) ("b/" ++ shown) old new

/-- Show what building a bundle would change. -/
def preview (toolchain : Toolchain) (files : FileTree) (job : Job) :
    Reporting BuildFault PreviewReport := do
  let rendered ← job.render toolchain files
  match rendered.text with
  | none => return { name := job.name, change := none }
  | some text =>
      let existing ← Reporting.ofExcept
        ((destinationText files job.destination).mapError (.file job.destination))
      let change :=
        if existing = text then none
        else some (job.destination, job.difference existing text)
      return { name := job.name, change := change }

end Job

/-- Which targets of a project are meant. -/
inductive Scope where
  | all
  | target (name : String)
  deriving DecidableEq, Repr, Inhabited

namespace Project

/-- The jobs of a project in a scope. -/
def jobs (project : Project) : Scope → Except ProjectFault (List Job)
  | .all => .ok (project.targets.map project.jobFor)
  | .target name => (project.target name).map fun target => [project.jobFor target]

/-- The jobs of the project at a path. -/
def jobsAt (files : FileTree) (path : Path) (scope : Scope) : Except BuildFault (List Job) :=
  (load files path >>= fun project => project.jobs scope).mapError .project

/-- Build the targets of the project at a path. -/
def build (path : Path) (scope : Scope) (isDry : Bool) :
    Working BuildFault (List BuildReport) := do
  let jobs ← Working.ofExcept (jobsAt (← Working.files) path scope)
  jobs.mapM fun job => job.build {} isDry

/-- Show what building the targets of the project at a path would change. -/
def preview (files : FileTree) (path : Path) (scope : Scope) :
    Reporting BuildFault (List PreviewReport) := do
  let jobs ← Reporting.ofExcept (jobsAt files path scope)
  jobs.mapM fun job => job.preview {} files

end Project

end TemplateBundle

import TemplateBundle.FileTree.Change
import TemplateBundle.Log

/-!
# Work on files

Computations that read and change files, report, and may fail. What was done to the files before a
failure stays done.
-/

namespace TemplateBundle

/-- The files, and what was reported so far. -/
structure Workspace where
  files : FileTree
  log : Log := []
  deriving Inhabited

/-- A computation on files that reports and may fail. -/
abbrev Working (ε : Type) := ExceptT ε (StateM Workspace)

namespace Working

variable {ε α : Type}

/-- The files as they are now. -/
def files : Working ε FileTree :=
  return (← get).files

/-- Add a log entry. -/
def log (level : LogLevel) (message : String) : Working ε Unit :=
  modify fun workspace =>
    { workspace with log := workspace.log ++ [{ level := level, message := message }] }

/-- Take over a result. -/
def ofExcept (result : Except ε α) : Working ε α :=
  liftExcept result

/-- Take over a computation that leaves the files alone. -/
def ofReporting (action : Reporting ε α) : Working ε α := do
  let (result, log) := action.run (← get).log
  modify fun workspace => { workspace with log := log }
  ofExcept result

/-- Take over the outcome of a change of the files; without one they stay as they are. -/
def change (fault : FileFault → ε) (outcome : Except FileFault FileTree) : Working ε Unit := do
  match outcome with
  | .ok files => modify fun workspace => { workspace with files := files }
  | .error found => throw (fault found)

/-- Make a directory and those on the way to it. -/
def makeDirectories (fault : FileFault → ε) (path : Path) : Working ε Unit := do
  let (outcome, files) := (← get).files.makeDirectories path
  modify fun workspace => { workspace with files := files }
  match outcome with
  | .ok () => pure ()
  | .error found => throw (fault found)

/-- Fail with another fault. -/
def mapFault {ε' : Type} (convert : ε → ε') (action : Working ε α) : Working ε' α :=
  ExceptT.mk ((Except.mapError convert) <$> action.run)

/-- Replace a file as a whole: the content is written beside it first, and what is beside it is
taken away again if it cannot be put in place. -/
def replace (fault : Path → FileFault → ε) (path beside : Path) (content : ByteArray) :
    Working ε Unit := do
  change (fault beside) ((← files).write beside content)
  let files ← files
  match files.rename beside path with
  | .ok files => modify fun workspace => { workspace with files := files }
  | .error found =>
      match files.removeFile beside with
      | .ok files => modify fun workspace => { workspace with files := files }
      | .error _ => pure ()
      throw (fault path found)

end Working

end TemplateBundle

import TemplateBundle.Bundle.Fault
import TemplateBundle.Workspace

/-!
# Destinations

A destination is left alone if it holds the text already; otherwise the whole text is written
beside it and put in its place.
-/

namespace TemplateBundle

/-- What became of a destination. -/
inductive WriteOutcome where
  | written
  /-- It holds the text already. -/
  | unchanged
  /-- It would have been written in a run that writes. -/
  | wouldWrite
  /-- There was no text to write. -/
  | empty
  deriving DecidableEq, Repr, Inhabited

/-- The name of an outcome in data. -/
def WriteOutcome.name : WriteOutcome → String
  | .written => "written"
  | .unchanged => "unchanged"
  | .wouldWrite => "would_write"
  | .empty => "empty"

namespace Destination

open Working (files log replace makeDirectories)

/-- The file beside a destination that is written first. -/
def beside (path : Path) : Path :=
  path.append ".jst.tmp"

/-- The bytes of a destination, if it exists. -/
def existing? (files : FileTree) (path : Path) : Except FileFault (Option ByteArray) :=
  match files.read path with
  | .ok content => .ok (some content)
  | .error .missing => .ok none
  | .error fault => .error fault

/-- Make the directory that a path is in, unless that is the working directory. -/
def makeParent (path : Path) : Working BuildFault Unit :=
  match path.parent?.filter fun parent => parent.text != "" with
  | some parent => makeDirectories (.file parent) parent
  | none => pure ()

/-- Write a text to a destination, unless it is there already. A dry run writes nothing. -/
def write (path : Path) (text : String) (isDry : Bool) : Working BuildFault WriteOutcome := do
  let content := text.toUTF8
  let existing ← Working.ofExcept ((existing? (← files) path).mapError (.file path))
  if existing.map ByteArray.data = some content.data then
    log .debug ("unchanged: " ++ path.text)
    return .unchanged
  else if isDry then
    log .info ("[dry-run] would write: " ++ path.text)
    return .wouldWrite
  else
    makeParent path
    makeParent (beside path)
    replace .file path (beside path) content
    log .info ("File " ++ path.text ++ " created.")
    return .written

end Destination

end TemplateBundle

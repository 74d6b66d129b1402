import TemplateBundle.Glob.Walk
import TemplateBundle.Project.Fault

/-!
# Source lists

The sources of a target are listed as paths and patterns, in order. A plain path is kept whether
or not it exists, a pattern stands for the files that it finds, and a pattern behind an
exclamation mark takes away what was listed before it. No path is listed twice.
-/

namespace TemplateBundle.Sources

/-- The entry is a pattern. -/
def isPattern (written : String) : Bool :=
  written.toList.any fun c => c == '*' || c == '?' || c == '['

/-- Add a path, unless one with the same steps is listed. -/
def add (listed : List Path) (path : Path) : List Path :=
  if listed.any path.same then listed else listed ++ [path]

/-- Read a pattern; a fault names the entry as written. -/
def faultFor (written : String) (fault : Glob.PatternFault) : ProjectFault :=
  .invalidPattern written fault.message

/-- The files that a pattern finds, as seen from the directory, in order. -/
def filesFor (tree : FileTree) (directory : Path) (written : String) :
    Except ProjectFault (List Path) := do
  let found ← (Glob.glob tree (directory.join ⟨written⟩).text).mapError (faultFor written)
  let files := (found.filter tree.isFile).map fun path => path.relativeTo directory
  return files.mergeSort Path.sortsBefore

/-- One entry after the paths that are listed so far. -/
def addEntry (tree : FileTree) (directory : Path) (listed : List Path) (written : String) :
    Except ProjectFault (List Path) :=
  match written.toList with
  | '!' :: negated => do
      let pattern ← (Glob.Pattern.ofText (String.ofList negated)).mapError (faultFor written)
      return listed.filter fun path => !pattern.matches path.text
  | _ =>
      if isPattern written then do
        return (← filesFor tree directory written).foldl add listed
      else .ok (add listed ⟨written⟩)

/-- The paths that a source list stands for. -/
def expand (tree : FileTree) (directory : Path) (entries : List String) :
    Except ProjectFault (List Path) :=
  entries.foldlM (addEntry tree directory) []

end TemplateBundle.Sources

import TemplateBundle.FileTree.Basic
import TemplateBundle.Namespace
import TemplateBundle.Project.Misfit

/-!
# Faults of projects

Why a project file, or the options and sources of its targets, cannot be used.
-/

namespace TemplateBundle

/-- The cause why a project cannot be used. -/
inductive ProjectFault where
  | namespace (fault : NamespaceFault)
  | file (path : Path) (fault : FileFault)
  | missing (path : Path)
  /-- The project file makes no sense, or it does and its data do not fit. -/
  | unreadable (path : Path) (fault : Project.ReadFault)
  | invalidPattern (pattern message : String)
  | unknownTarget (name : String)
  | repeatedTarget (name : String)
  deriving DecidableEq, Repr, Inhabited

/-- The words for a fault. What the file system or the reader of project files say is left out. -/
def ProjectFault.message : ProjectFault → String
  | .namespace fault => fault.message
  | .file path _ => "I/O error at " ++ path.text
  | .missing path => "config not found at " ++ path.text
  | .unreadable path _ => "failed to parse config at " ++ path.text
  | .invalidPattern pattern message =>
      "invalid source pattern '" ++ pattern ++ "': " ++ message
  | .unknownTarget name => "unknown target '" ++ name ++ "'"
  | .repeatedTarget name => "target '" ++ name ++ "' is defined more than once"

end TemplateBundle

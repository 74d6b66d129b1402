import TemplateBundle.Project.Fault
import TemplateBundle.Template.Fault

/-!
# Faults of builds

Why a bundle is not built.
-/

namespace TemplateBundle

/-- The cause why a bundle is not built. -/
inductive BuildFault where
  | project (fault : ProjectFault)
  | settings (target : String) (fault : CompileFault)
  /-- A source, or one of the templates in it, does not compile. -/
  | template (path : Path) (fragment : Option String) (fault : CompileFault)
  /-- A module that returns its template was given more than one. -/
  | ambiguous (count : Nat)
  | file (path : Path) (fault : FileFault)
  deriving DecidableEq, Repr, Inhabited

/-- The words for a fault. -/
def BuildFault.message : BuildFault → String
  | .project fault => "config error: " ++ fault.message
  | .settings target fault =>
      "invalid template settings for target '" ++ target ++ "': " ++ fault.message
  | .template path fragment _ =>
      "JST \"" ++ path.text ++ "\" failed to compile" ++
        (match fragment with
        | some id => " (template \"" ++ id ++ "\")"
        | none => "")
  | .ambiguous count =>
      "\x60namespace: false\x60 with AMD needs exactly one template, found " ++ toString count
  | .file path _ => "I/O error at " ++ path.text

end TemplateBundle

import TemplateBundle.Project.Fault
import TemplateBundle.Project.Reading
import TemplateBundle.Project.Writing
import TemplateBundle.Workspace
import TemplateBundle.Yaml.Printer

/-!
# Loading and saving projects

A project is loaded from its file as a whole or not at all, and saving one replaces the file as a
whole.
-/

namespace TemplateBundle.Project

/-- The first name that an earlier target has too. -/
def repeatedName? : List Target → Option String :=
  go []
where
  /-- Go on behind targets with the names in `seen`. -/
  go (seen : List String) : List Target → Option String
    | [] => none
    | target :: others =>
        if seen.contains target.name then some target.name else go (target.name :: seen) others

/-- Load a project. Its directory is that of the file. -/
def load (files : FileTree) (path : Path) : Except ProjectFault Project := do
  if !files.contains path then throw (.missing path)
  let text ← (files.readText path).mapError (.file path)
  let file ← (ProjectFile.ofText text).mapError (.unreadable path)
  match repeatedName? file.targets with
  | some name => throw (.repeatedTarget name)
  | none =>
      return {
        path := path
        directory := path.parent?.getD ⟨""⟩
        targets := file.targets }

/-- The target with a name. -/
def target (project : Project) (name : String) : Except ProjectFault Target :=
  match project.find? name with
  | some target => .ok target
  | none => .error (.unknownTarget name)

/-- The directory of a path, unless it is the working directory. -/
def namedParent? (path : Path) : Option Path :=
  path.parent?.filter fun parent => parent.text != ""

/-- Save a project file. -/
def save (path : Path) (file : ProjectFile) : Working ProjectFault Unit := do
  match namedParent? path with
  | some parent => Working.makeDirectories (.file parent) parent
  | none => pure ()
  Working.replace .file path (path.append ".tmp") (Yaml.print file.toData).toUTF8

end TemplateBundle.Project

import TemplateBundle.Options.Basic
import TemplateBundle.Path

/-!
# Projects

A project is a file that lists targets. Each target is one bundle with its destination and its
sources, both relative to the directory of the project file.
-/

namespace TemplateBundle

/-- One bundle of a project. -/
structure Target where
  name : String
  destination : Path
  /-- Paths and patterns, and patterns for what is left out, in order. -/
  sources : List String := []
  options : Options := {}
  deriving DecidableEq, Repr, Inhabited

/-- What a project file says. -/
structure ProjectFile where
  targets : List Target := []
  deriving DecidableEq, Repr, Inhabited

/-- The usual name of a project file. -/
def ProjectFile.usualName : String := "jst.yaml"

/-- A project file to start with. -/
def ProjectFile.starter : ProjectFile :=
  { targets := [{
      name := "templates"
      destination := ⟨"build/templates.js"⟩
      sources := ["templates/**/*.html"]
      options := {
        nameRules := { leading := some "templates/", dropExtension := true } } }] }

/-- A project: what its file says, and where it stands. -/
structure Project where
  path : Path
  /-- The directory that destinations and sources are relative to. -/
  directory : Path
  targets : List Target
  deriving DecidableEq, Repr, Inhabited

/-- The destination of a target, from the working directory. -/
def Project.destinationOf (project : Project) (target : Target) : Path :=
  project.directory.join target.destination

/-- The first target with a name. -/
def Project.find? (project : Project) (name : String) : Option Target :=
  project.targets.find? fun target => target.name == name

end TemplateBundle

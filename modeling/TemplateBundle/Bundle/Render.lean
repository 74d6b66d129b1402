import TemplateBundle.Bundle.Assembly
import TemplateBundle.Project.Basic
import TemplateBundle.Project.Sources

/-!
# Rendering

The text of a bundle, made from the files as they are without changing any. Faults come in a fixed
order: those of the options, those of the settings, those of the source list, and then those of the
sources one after the other.
-/

namespace TemplateBundle

/-- A bundle to be built, wherever it comes from. -/
structure Job where
  name : String
  /-- The destination, from the working directory. -/
  destination : Path
  /-- The directory that the sources are relative to. -/
  directory : Path
  sources : List String
  options : Options
  deriving DecidableEq, Repr, Inhabited

/-- The job for a target of a project. -/
def Project.jobFor (project : Project) (target : Target) : Job where
  name := target.name
  destination := project.destinationOf target
  directory := project.directory
  sources := target.sources
  options := target.options

/-- What rendering gives. -/
structure Rendered where
  /-- Listed sources that are no files. -/
  missing : List Path
  /-- How many templates went into the text. -/
  templates : Nat
  /-- There is no text if nothing was compiled. -/
  text : Option String
  deriving DecidableEq, Repr, Inhabited

namespace Job

open Reporting (log)

/-- Compile the sources in order: those that are missing, and what the others contribute. -/
def compileSources (toolchain : Toolchain) (files : FileTree) (job : Job) :
    List Path → Reporting BuildFault (List Path × List CompiledFile)
  | [] => return ([], [])
  | path :: others => do
      let full := job.directory.join path
      if files.isFile full then
        let raw ← Reporting.ofExcept ((files.readText full).mapError (.file full))
        let compiled ← toolchain.compileFile job.options path raw
        let (missing, contributed) ← compileSources toolchain files job others
        return (missing, compiled :: contributed)
      else
        log .warn ("Source file " ++ path.text ++ " not found.")
        let (missing, contributed) ← compileSources toolchain files job others
        return (path :: missing, contributed)

/-- How many templates of the files are kept. -/
def countWritten (contributed : List CompiledFile) : Nat :=
  ((contributed.flatMap CompiledFile.templates).filter fun template => !template.isBlank).length

/-- Render the text of a bundle. -/
def render (toolchain : Toolchain) (files : FileTree) (job : Job) :
    Reporting BuildFault Rendered := do
  let resolved ← Reporting.ofExcept
    (job.options.resolveNamespace.mapError fun fault => .project (.namespace fault))
  Reporting.ofExcept
    ((toolchain.compiler.validate job.options.settings).mapError (.settings job.name))
  let paths ← Reporting.ofExcept
    ((Sources.expand files job.directory job.sources).mapError BuildFault.project)
  let (missing, contributed) ← job.compileSources toolchain files paths
  let text ← Bundle.assemble contributed resolved job.options
  return {
    missing := missing
    templates := if text.isSome then countWritten contributed else 0
    text := text }

end Job

end TemplateBundle

import TemplateBundle.Bundle.Build
import TemplateBundle.Command.Arguments

/-!
# Commands

What the program can be asked to do, and how it is asked.
-/

namespace TemplateBundle

/-- Something that the program can be asked to do. -/
inductive Command where
  /-- Build targets of a project. -/
  | build (project : Path) (scope : Scope) (isDry asData : Bool)
  /-- Build one bundle without a project. -/
  | compile (job : Job) (isDry : Bool)
  /-- Show what building targets of a project would change. -/
  | preview (project : Path) (scope : Scope)
  /-- List the targets of a project. -/
  | targets (project : Path) (asData : Bool)
  /-- Write a project file to start with. -/
  | init (directory : Path) (overwrite : Bool)
  deriving DecidableEq, Repr

namespace Command

/-- The name and the version of the program. -/
def version : String := "jst 0.1.0\n"

/-- How the program is used. -/
def usage : String :=
"jst build [TARGET] [--config jst.yaml] [--dry-run] [--json]
jst compile <FILES>... --dest <PATH> [--namespace NS | --no-namespace] [--amd] [--multiple] [--prettify] [--separator S] [--dry-run]
jst diff [TARGET] [--config jst.yaml]
jst targets [--config jst.yaml] [--json]
jst init [DIR] [--force]
"

/-- The option for the project file. -/
def projectOption : OptionShape :=
  { name := "config", letter := some 'c', takesValue := true, needsText := true }

/-- An option without a value. -/
def switch (name : String) : OptionShape :=
  { name := name }

/-- The project file that is named, or the usual one. -/
def projectOf (arguments : Arguments) : Path :=
  ⟨(arguments.value? "config").getD ProjectFile.usualName⟩

/-- The target that is named, or all of them. -/
def scopeOf (arguments : Arguments) : Scope :=
  match arguments.words with
  | name :: _ => .target name
  | [] => .all

/-- Read the arguments of a build. -/
def readBuild (words : List String) : Except UsageFault Command := do
  let arguments ← Arguments.read
    { options := [projectOption, switch "dry-run", switch "json"], limit := some 1 } words {}
  return .build (projectOf arguments) (scopeOf arguments) (arguments.has "dry-run")
    (arguments.has "json")

/-- What building without a project takes. -/
def compileShape : ArgumentShape :=
  { options := [
      { name := "dest", letter := some 'd', takesValue := true, needsText := true },
      { name := "namespace", letter := some 'n', takesValue := true },
      { name := "separator", takesValue := true },
      switch "no-namespace", switch "amd", switch "multiple", switch "prettify",
      switch "dry-run"] }

/-- Read the arguments for building without a project. A namespace cannot be both named and
switched off, and only a module can be without one. -/
def readCompile (words : List String) : Except UsageFault Command := do
  let arguments ← Arguments.read compileShape words {}
  let isBare := arguments.has "no-namespace"
  if arguments.words.isEmpty then throw .wrong
  if isBare && (arguments.has "namespace" || !arguments.has "amd") then throw .wrong
  match arguments.value? "dest" with
  | none => throw .wrong
  | some destination =>
      let named := match arguments.value? "namespace" with
        | some name => .named name
        | none => Namespace.standard
      let options : Options := {
        home := if isBare then .disabled else named
        separator := arguments.value? "separator"
        multiple := arguments.has "multiple"
        prettify := arguments.has "prettify"
        amd := arguments.has "amd" }
      let job : Job := {
        name := destination
        destination := ⟨destination⟩
        directory := ⟨""⟩
        sources := arguments.words
        options := options }
      return .compile job (arguments.has "dry-run")

/-- Read the arguments of a preview. -/
def readPreview (words : List String) : Except UsageFault Command := do
  let arguments ← Arguments.read { options := [projectOption], limit := some 1 } words {}
  return .preview (projectOf arguments) (scopeOf arguments)

/-- Read the arguments for listing targets. -/
def readTargets (words : List String) : Except UsageFault Command := do
  let arguments ← Arguments.read
    { options := [projectOption, switch "json"], limit := some 0 } words {}
  return .targets (projectOf arguments) (arguments.has "json")

/-- Read the arguments for starting a project. -/
def readInit (words : List String) : Except UsageFault Command := do
  let arguments ← Arguments.read
    { options := [switch "force"], limit := some 1, needsText := true } words {}
  return .init ⟨arguments.words.head?.getD "."⟩ (arguments.has "force")

/-- Read the words behind the name of the program. -/
def ofArguments : List String → Except UsageFault Command
  | "build" :: words => readBuild words
  | "compile" :: words => readCompile words
  | "diff" :: words => readPreview words
  | "targets" :: words => readTargets words
  | "init" :: words => readInit words
  | word :: _ =>
      if word = "help" ∨ word = "--help" ∨ word = "-h" then .error .help
      else if word = "--version" ∨ word = "-V" then .error .version
      else .error .wrong
  | [] => .error .wrong

end Command

end TemplateBundle

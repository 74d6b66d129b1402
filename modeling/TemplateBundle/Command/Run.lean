import TemplateBundle.Command.Basic
import TemplateBundle.Command.Table
import TemplateBundle.Data.Json

/-!
# Running commands

What a command prints and how it ends. A command prints nothing if it fails.
-/

namespace TemplateBundle

/-- Why a command fails. -/
inductive CommandFault where
  | build (project : Path) (fault : BuildFault)
  | compile (destination : Path) (fault : BuildFault)
  | preview (project : Path) (fault : BuildFault)
  | load (project : Path) (fault : ProjectFault)
  | sources (target : String) (fault : ProjectFault)
  /-- There is a project file already. -/
  | exists (path : Path)
  | save (path : Path) (fault : ProjectFault)
  deriving Repr

/-- What a command says when it fails. -/
def CommandFault.message : CommandFault → String
  | .build project _ => "build failed (" ++ project.text ++ ")"
  | .compile destination _ => "failed to compile into '" ++ destination.text ++ "'"
  | .preview project _ => "diff failed (" ++ project.text ++ ")"
  | .load project _ => "failed to load " ++ project.text
  | .sources target _ => "bad source list for '" ++ target ++ "'"
  | .exists path => path.text ++ " already exists; pass --force to overwrite"
  | .save path _ => "failed to write " ++ path.text

/-- The sign and the words for an outcome. -/
def WriteOutcome.shown : WriteOutcome → String × String
  | .written => ("✓", "written")
  | .wouldWrite => ("~", "would write")
  | .unchanged => ("·", "unchanged")
  | .empty => ("!", "empty, not written")

/-- The data of a report. -/
def BuildReport.toData (report : BuildReport) : Data :=
  .record [("name", .text report.name), ("dest", .text report.destination.text),
    ("missing", .list (report.missing.map fun path => .text path.text)),
    ("templates", .number report.templates),
    ("outcome", .record [("outcome", .text report.outcome.name),
      ("path", .text report.destination.text)])]

namespace Command

/-- A line of output. -/
def line (text : String) : String :=
  text ++ "\n"

/-- The lines for a report. -/
def reportText (isDry : Bool) (report : BuildReport) : String :=
  let (sign, words) := report.outcome.shown
  let count := toString report.templates ++
    (if report.templates = 1 then " template" else " templates")
  line ((if isDry then "[dry-run] " else "") ++ sign ++ " '" ++ report.name ++ "' " ++ words ++
      " (" ++ count ++ ")") ++
    line ("    " ++ report.destination.text) ++
    String.join (report.missing.map fun path => line ("    missing " ++ path.text ++ " not found"))

/-- Build targets. -/
def runBuild (path : Path) (scope : Scope) (isDry asData : Bool) :
    Working CommandFault String := do
  let reports ← Working.mapFault (.build path) (Project.build path scope isDry)
  if asData then return line (Data.Json.print (.list (reports.map BuildReport.toData)))
  else if reports.isEmpty then
    return line ("No targets in " ++ path.text ++ ". Add one or run \x60jst init\x60.")
  else return String.join (reports.map (reportText isDry))

/-- Build one bundle. -/
def runCompile (job : Job) (isDry : Bool) : Working CommandFault String := do
  let report ← Working.mapFault (.compile job.destination) (job.build {} isDry)
  return reportText isDry report

/-- The text for a preview. -/
def previewText (report : PreviewReport) : String :=
  match report.change with
  | none => line ("No differences for '" ++ report.name ++ "'.")
  | some (_, text) => if text.endsWith "\n" then text else line text

/-- Show what would change. -/
def runPreview (path : Path) (scope : Scope) : Working CommandFault String := do
  let files ← Working.files
  let reports ← Working.mapFault (.preview path)
    (Working.ofReporting (Project.preview files path scope))
  return String.join (reports.map previewText)

/-- The words for how a bundle is made. -/
def modeText (options : Options) : String :=
  ", ".intercalate ([if options.multiple then "multiple" else "single"] ++
    (if options.amd then ["amd"] else []) ++ (if options.prettify then ["prettify"] else []))

/-- A target as it is listed. -/
structure TargetRow where
  name : String
  destination : String
  home : String
  mode : String
  sources : Nat
  deriving Repr

/-- The row of a target with a number of sources. -/
def TargetRow.ofTarget (target : Target) (sources : Nat) : TargetRow where
  name := target.name
  destination := target.destination.text
  home := match target.options.home with
    | .named name => name
    | .disabled => "-"
  mode := modeText target.options
  sources := sources

/-- The data of a row. -/
def TargetRow.toData (row : TargetRow) : Data :=
  .record [("name", .text row.name), ("dest", .text row.destination),
    ("namespace", .text row.home), ("mode", .text row.mode), ("sources", .number row.sources)]

/-- The cells of a row. -/
def TargetRow.cells (row : TargetRow) : List String :=
  [row.name, row.destination, row.home, row.mode, toString row.sources]

/-- The headings of the rows. -/
def headings : List String :=
  ["target", "dest", "namespace", "mode", "sources"]

/-- The rows for the targets of a project. -/
def targetRows (files : FileTree) (project : Project) : Except CommandFault (List TargetRow) :=
  project.targets.mapM fun target => do
    let sources ← (Sources.expand files project.directory target.sources).mapError
      (.sources target.name)
    return .ofTarget target sources.length

/-- List targets. -/
def runTargets (path : Path) (asData : Bool) : Working CommandFault String := do
  let files ← Working.files
  let project ← Working.ofExcept ((Project.load files path).mapError (.load path))
  let rows ← Working.ofExcept (targetRows files project)
  if asData then return line (Data.Json.print (.list (rows.map TargetRow.toData)))
  else if rows.isEmpty then return line ("No targets in " ++ path.text ++ ".")
  else return Table.print headings (rows.map TargetRow.cells)

/-- The line for a target of a new project file. -/
def starterText (target : Target) : String :=
  line ("  target '" ++ target.name ++ "': " ++ ", ".intercalate target.sources ++ " → " ++
    target.destination.text)

/-- Write a project file to start with. -/
def runInit (directory : Path) (overwrite : Bool) : Working CommandFault String := do
  let path := directory.join ⟨ProjectFile.usualName⟩
  if (← Working.files).contains path && !overwrite then throw (.exists path)
  Working.mapFault (.save path) (Project.save path .starter)
  return line ("✓ Wrote " ++ path.text) ++
    String.join (ProjectFile.starter.targets.map starterText)

/-- Run a command: what it prints. -/
def run : Command → Working CommandFault String
  | .build path scope isDry asData => runBuild path scope isDry asData
  | .compile job isDry => runCompile job isDry
  | .preview path scope => runPreview path scope
  | .targets path asData => runTargets path asData
  | .init directory overwrite => runInit directory overwrite

/-- How a run of the program ends. -/
structure Outcome where
  exitCode : Nat
  output : String
  fault : Option String
  deriving DecidableEq, Repr

/-- Run the program with the words behind its name. -/
def execute (words : List String) (workspace : Workspace) : Outcome × Workspace :=
  match ofArguments words with
  | .error .help => ({ exitCode := 0, output := usage, fault := none }, workspace)
  | .error .version => ({ exitCode := 0, output := version, fault := none }, workspace)
  | .error .wrong => ({ exitCode := 2, output := "", fault := none }, workspace)
  | .ok command =>
      match (run command).run workspace with
      | (.ok output, workspace) => ({ exitCode := 0, output := output, fault := none }, workspace)
      | (.error fault, workspace) =>
          ({ exitCode := 1, output := "", fault := some fault.message }, workspace)

end Command

end TemplateBundle

import TemplateBundle.Command.Run

/-!
# The program

Reads the files below the working directory, runs a command on them, and writes what the command
changed. Paths that lead out of the working directory lead nowhere.
-/

namespace TemplateBundle.Program

/-- The path of a location, from the working directory. -/
def pathOf (location : Location) : String :=
  "/".intercalate ("." :: location.drop 1)

/-- Add what is in a directory to a file tree. -/
partial def readDirectory (location : Location) (files : FileTree) : IO FileTree := do
  let directory ← IO.FS.realPath (pathOf location)
  let mut files := files
  for entry in ← directory.readDir do
    let inside := location ++ [entry.fileName]
    match (← entry.path.metadata).type with
    | .dir => files ← readDirectory inside (files.insert inside .directory)
    | .file => files := files.insert inside (.file (← IO.FS.readBinFile entry.path))
    | _ => pure ()
  return files

/-- Write what differs between two file trees. -/
def writeChanges (before after : FileTree) : IO Unit := do
  for (location, entry) in after.entries do
    if before.get? location ≠ some entry then
      match entry with
      | .directory => IO.FS.createDirAll (pathOf location)
      | .file content => IO.FS.writeBinFile (pathOf location) content
  for (location, _) in before.entries do
    if (after.get? location).isNone then
      IO.FS.removeFile (pathOf location)

end TemplateBundle.Program

open TemplateBundle

/-- Run the program with the words behind its name. -/
def main (words : List String) : IO UInt32 := do
  let before ← Program.readDirectory FileTree.working .empty
  let (outcome, workspace) := Command.execute words { files := before }
  Program.writeChanges before workspace.files
  for line in Log.shown (← IO.getEnv "RUST_LOG") workspace.log do
    IO.eprintln line
  IO.print outcome.output
  match outcome.fault with
  | some message => IO.eprintln ("Error: " ++ message)
  | none => pure ()
  return outcome.exitCode.toUInt32

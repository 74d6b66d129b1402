import TemplateBundle.Path

/-!
# File trees

Files and directories by location. A location is reached from the directory that holds the
working directory, which holds nothing else at the start. A path leads from the working directory
to a location, through directories only.
-/

namespace TemplateBundle

/-- Why a file or directory cannot be used. -/
inductive FileFault where
  | missing
  | isDirectory
  | notDirectory
  /-- The content is not text. -/
  | notText
  | exists
  deriving DecidableEq, Repr, Inhabited

/-- What stands at a location. -/
inductive FileEntry where
  | file (content : ByteArray)
  | directory
  deriving Inhabited

/-- Files are the same if they hold the same bytes. -/
instance : DecidableEq FileEntry
  | .file first, .file second =>
      decidable_of_iff (first.data = second.data)
        ⟨fun h => congrArg FileEntry.file (ByteArray.ext h), fun h => by cases h; rfl⟩
  | .directory, .directory => isTrue rfl
  | .file _, .directory => isFalse nofun
  | .directory, .file _ => isFalse nofun

/-- The names on the way to a file or directory. -/
abbrev Location := List String

/-- Files and directories. Every location is listed at most once. -/
structure FileTree where
  entries : List (Location × FileEntry)
  deriving Inhabited

namespace FileTree

/-- The directory above the working directory. -/
def top : Location := []

/-- The working directory. No path spells its name, which is empty. -/
def working : Location := [""]

/-- A tree in which the working directory is empty. -/
def empty : FileTree := ⟨[]⟩

/-- What stands at a location. The working directory and the one above always exist. -/
def get? (tree : FileTree) (location : Location) : Option FileEntry :=
  if location = top ∨ location = working then some .directory
  else tree.entries.lookup location

/-- Put an entry at a location in place of what stood there. -/
def insert (tree : FileTree) (location : Location) (entry : FileEntry) : FileTree :=
  ⟨(tree.entries.filter fun listed => listed.1 != location) ++ [(location, entry)]⟩

/-- Take away what stands at a location. -/
def erase (tree : FileTree) (location : Location) : FileTree :=
  ⟨tree.entries.filter fun listed => listed.1 != location⟩

/-- Take away what stands at a location or below it. -/
def eraseAll (tree : FileTree) (location : Location) : FileTree :=
  ⟨tree.entries.filter fun listed => !location.isPrefixOf listed.1⟩

/-- The names in a directory. -/
def children (tree : FileTree) (location : Location) : List String :=
  tree.entries.filterMap fun listed =>
    if listed.1.dropLast == location && !listed.1.isEmpty then listed.1.getLast? else none

/-- Go one piece of a path further from a location, which has to be a directory. -/
def step (tree : FileTree) (location : Location) (piece : String) : Except FileFault Location :=
  match tree.get? location with
  | none => .error .missing
  | some (.file _) => .error .notDirectory
  | some .directory =>
      if piece = "" ∨ piece = "." then .ok location
      else if piece = ".." then .ok location.dropLast
      else .ok (location ++ [piece])

/-- The pieces of a path between separators. -/
def piecesOf (path : Path) : List String :=
  path.segments.map String.ofList

/-- The location that a path leads to. The last piece need not exist; an empty path leads
nowhere, and nothing is reached from the root. -/
def resolve (tree : FileTree) (path : Path) : Except FileFault Location :=
  if path.text = "" ∨ path.isAbsolute then .error .missing
  else (piecesOf path).foldlM tree.step working

/-- What a path leads to. -/
def find (tree : FileTree) (path : Path) : Except FileFault FileEntry := do
  match tree.get? (← tree.resolve path) with
  | some entry => pure entry
  | none => throw .missing

/-- The path leads to something. -/
def contains (tree : FileTree) (path : Path) : Bool :=
  (tree.find path).toBool

/-- The path leads to a file. -/
def isFile (tree : FileTree) (path : Path) : Bool :=
  match tree.find path with
  | .ok (.file _) => true
  | _ => false

/-- The path leads to a directory. -/
def isDirectory (tree : FileTree) (path : Path) : Bool :=
  match tree.find path with
  | .ok .directory => true
  | _ => false

/-- The content of a file. -/
def read (tree : FileTree) (path : Path) : Except FileFault ByteArray := do
  match ← tree.find path with
  | .file content => pure content
  | .directory => throw .isDirectory

/-- The content of a file as text. -/
def readText (tree : FileTree) (path : Path) : Except FileFault String := do
  match String.fromUTF8? (← tree.read path) with
  | some text => pure text
  | none => throw .notText

/-- The names in the directory that a path leads to. -/
def list (tree : FileTree) (path : Path) : Except FileFault (List String) := do
  match ← tree.find path with
  | .file _ => throw .notDirectory
  | .directory => return tree.children (← tree.resolve path)

end FileTree

end TemplateBundle

import TemplateBundle.FileTree.Basic

/-!
# Changing a file tree

Making directories, writing, renaming and removing. Each gives the changed tree or says why
nothing could be done.
-/

namespace TemplateBundle.FileTree

/-- The path ends with a separator, so it can only lead to a directory. -/
def endsOpen (path : Path) : Bool :=
  path.text.toList.getLast? == some '/'

/-- The path without separators at its end. -/
def withoutOpenEnd (path : Path) : Path :=
  ⟨String.ofList (path.text.toList.reverse.dropWhile (· == '/')).reverse⟩

/-- Make one directory, in a directory that exists. -/
def makeDirectory (tree : FileTree) (path : Path) : Except FileFault FileTree := do
  let location ← tree.resolve (withoutOpenEnd path)
  match tree.get? location with
  | some _ => throw .exists
  | none => return tree.insert location .directory

/-- Make a directory that may exist already. -/
def ensureDirectory (tree : FileTree) (path : Path) : Except FileFault FileTree :=
  match tree.makeDirectory path with
  | .ok tree => .ok tree
  | .error fault => if tree.isDirectory path then .ok tree else .error fault

/-- Make a directory and those on the way to it, and give the tree with those that could be made.
The bound is on their number. -/
def makeDirectoriesUpTo : Nat → FileTree → Path → Except FileFault Unit × FileTree
  | 0, tree, path => ensured tree path
  | bound + 1, tree, path =>
      if path.text = "" then (.ok (), tree)
      else
        match tree.ensureDirectory path, path.parent? with
        | .ok tree, _ => (.ok (), tree)
        | .error .missing, some parent =>
            match makeDirectoriesUpTo bound tree parent with
            | (.ok (), tree) => ensured tree path
            | (.error fault, tree) => (.error fault, tree)
        | .error fault, _ => (.error fault, tree)
where
  /-- Make one directory. -/
  ensured (tree : FileTree) (path : Path) : Except FileFault Unit × FileTree :=
    match tree.ensureDirectory path with
    | .ok tree => (.ok (), tree)
    | .error fault => (.error fault, tree)

/-- Make a directory and those on the way to it, as far as they do not exist, and give the tree
with those that could be made. -/
def makeDirectories (tree : FileTree) (path : Path) : Except FileFault Unit × FileTree :=
  makeDirectoriesUpTo (path.components.length + 1) tree path

/-- Write a file, in a directory that exists. A path that ends with a separator cannot be that of
a file. -/
def write (tree : FileTree) (path : Path) (content : ByteArray) : Except FileFault FileTree := do
  let location ← tree.resolve (withoutOpenEnd path)
  if endsOpen path then throw .isDirectory
  match tree.get? location with
  | some .directory => throw .isDirectory
  | _ => return tree.insert location (.file content)

/-- Give a file another path. A file that stands there is replaced. -/
def rename (tree : FileTree) (source target : Path) : Except FileFault FileTree := do
  let content ← tree.read source
  let old ← tree.resolve source
  let new ← tree.resolve (withoutOpenEnd target)
  if endsOpen target then throw .notDirectory
  match tree.get? new with
  | some .directory => throw .isDirectory
  | _ => return (tree.erase old).insert new (.file content)

/-- Remove a file. -/
def removeFile (tree : FileTree) (path : Path) : Except FileFault FileTree := do
  match ← tree.find path with
  | .directory => throw .isDirectory
  | .file _ => return tree.erase (← tree.resolve path)

/-- Remove a file, or a directory with all that is in it. -/
def removeAll (tree : FileTree) (path : Path) : Except FileFault FileTree := do
  let _ ← tree.find path
  return tree.eraseAll (← tree.resolve path)

end TemplateBundle.FileTree

import TemplateBundle.FileTree.Basic
import TemplateBundle.Glob.Pattern

/-!
# Walking a file tree

A pattern is cut at its separators, and each component selects among the names of a directory.
Results come in the order of the names, what lies deeper behind what lies higher.
-/

namespace TemplateBundle.Glob

/-- A walk over a tree that looks for directories only, or for anything. -/
structure Walk where
  tree : FileTree
  directoriesOnly : Bool

namespace Walk

/-- The path of the working directory. Names in it are given without it. -/
def here : Path := ⟨"."⟩

/-- The path of a name in a directory. -/
def enter (directory : Path) (name : String) : Path :=
  if directory.same here then ⟨name⟩ else directory.join ⟨name⟩

/-- A path that a component leads to is a result if it may be one. -/
def result (walk : Walk) (path : Path) : List Path :=
  if walk.directoriesOnly && !walk.tree.isDirectory path then [] else [path]

/-- The name stands for the directory itself or the one above. -/
def isSpecial (name : String) : Bool :=
  name == "." || name == ".."

/-- The names in a directory in order. -/
def namesIn (walk : Walk) (directory : Path) : List String :=
  match walk.tree.list directory with
  | .ok names => names.mergeSort fun left right => decide (left ≤ right)
  | .error _ => []

/-- What is looked for at a path. -/
inductive Search where
  /-- Names in the directory for the components. -/
  | below (path : Path) (components : List Pattern)
  /-- The path itself is to fit the first component. -/
  | fitting (path : Path) (components : List Pattern)

/-- Leave out patterns for any number of components as long as another one follows. -/
def collapse : List Pattern → List Pattern
  | first :: second :: rest =>
      if first.isRecursive && second.isRecursive then collapse (second :: rest)
      else first :: second :: rest
  | components => components

/-- The paths that a search finds. The bound is on its depth. -/
def run (walk : Walk) : Nat → Search → List Path
  | 0, _ => []
  | _, .below _ [] => []
  | _, .fitting _ [] => []
  | bound + 1, .below path (component :: rest) =>
      let arrive := fun (next : Path) =>
        if rest.isEmpty then walk.result next else run walk bound (.below next rest)
      let isDirectory := walk.tree.isDirectory path
      match component.literal? with
      | some name =>
          let next := enter path name
          let found := if isSpecial name then isDirectory else walk.tree.contains next
          if found then arrive next else []
      | none =>
          if isDirectory then
            let specials :=
              if component.startsWithDot then ["..", "."].filter component.matches else []
            specials.flatMap (fun name => arrive (path.join ⟨name⟩)) ++
              (walk.namesIn path).flatMap fun name =>
                run walk bound (.fitting (enter path name) (component :: rest))
          else []
  | bound + 1, .fitting path (component :: rest) =>
      let fit := fun (components : List Pattern) =>
        match components, path.fileName? with
        | component :: rest, some name =>
            if component.matches name then
              if rest.isEmpty then walk.result path else run walk bound (.below path rest)
            else []
        | _, _ => []
      if component.isRecursive then
        let components := collapse (component :: rest)
        let others := components.tail
        if walk.tree.isDirectory path then
          (if others.isEmpty then [path] else fit others) ++
            run walk bound (.below path components)
        else fit others
      else fit (component :: rest)

end Walk

/-- The components of a pattern: the pieces between separators, without an empty last one. -/
def componentsOf (pattern : String) : List String :=
  let pieces := (pattern.toList.splitOn '/').map String.ofList
  if pieces.getLast? = some "" then pieces.dropLast else pieces

/-- The paths in a tree for which a pattern stands. The whole pattern is read before its
components. Nothing is found from the root. -/
def glob (tree : FileTree) (pattern : String) : Except PatternFault (List Path) := do
  let _ ← Pattern.ofText pattern
  let path : Path := ⟨pattern⟩
  let relative := if path.isAbsolute then String.ofList pattern.toList.tail else pattern
  let components ← (componentsOf relative).mapM Pattern.ofText
  if path.isAbsolute then return []
  let walk : Walk :=
    { tree := tree, directoriesOnly := pattern.toList.getLast? == some '/' }
  let depth := (components.length + 1) * (tree.entries.length + 3)
  return walk.run depth (.below Walk.here components)

end TemplateBundle.Glob

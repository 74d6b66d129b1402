/-!
# Paths

A path is kept as it was written. What it means is its list of components: an optional root, an
optional leading `.`, names and `..`; repeated separators, a trailing separator and any later `.`
do not count. Two paths are the same place for listings when their components agree, but a path is
always shown as it was written.
-/

namespace TemplateBundle

/-- A path as written, with `/` as the separator. -/
structure Path where
  text : String
  deriving DecidableEq, Repr, Inhabited

namespace Path

/-- One step of a path. The order of the constructors is the order in which paths sort. -/
inductive Component where
  | root
  | current
  | parent
  | name (text : String)
  deriving DecidableEq, Repr

/-- The rank by which steps of different kinds sort. -/
def Component.rank : Component → Nat
  | .root => 0
  | .current => 1
  | .parent => 2
  | .name _ => 3

/-- Steps sort by kind, names among themselves by code points. -/
def Component.compare (left right : Component) : Ordering :=
  match left, right with
  | .name a, .name b => if a < b then .lt else if a = b then .eq else .gt
  | a, b => Ord.compare a.rank b.rank

/-- The path starts at the root. -/
def isAbsolute (path : Path) : Bool :=
  path.text.toList.head? == some '/'

/-- The pieces between separators, the root's separator left out. -/
def segments (path : Path) : List (List Char) :=
  let chars := path.text.toList
  (if path.isAbsolute then chars.tail else chars).splitOn '/'

/-- A piece that is no step of its own: nothing, or a single dot. -/
def isSilent (segment : List Char) : Bool :=
  segment == [] || segment == ['.']

/-- The step that a piece stands for, if it is one. -/
def Component.ofSegment? (segment : List Char) : Option Component :=
  if isSilent segment then none
  else if segment == ['.', '.'] then some .parent
  else some (.name (String.ofList segment))

/-- The steps of a path: its root or leading dot first, then the pieces that count. -/
def components (path : Path) : List Component :=
  let pieces := path.segments
  let start :=
    if path.isAbsolute then [Component.root]
    else if pieces.head? == some ['.'] then [Component.current]
    else []
  start ++ pieces.filterMap Component.ofSegment?

/-- The two paths have the same steps. -/
def same (left right : Path) : Bool :=
  left.components == right.components

/-- Compare lists of steps from the front; a shorter list sorts before its extensions. -/
def compareComponents : List Component → List Component → Ordering
  | [], [] => .eq
  | [], _ :: _ => .lt
  | _ :: _, [] => .gt
  | a :: as, b :: bs =>
      match Component.compare a b with
      | .eq => compareComponents as bs
      | other => other

/-- Paths sort by their steps. -/
def compare (left right : Path) : Ordering :=
  compareComponents left.components right.components

/-- The first path does not sort after the second. -/
def sortsBefore (left right : Path) : Bool :=
  (compare left right).isLE

/-- Write pieces with separators between them. -/
def joinSegments (pieces : List (List Char)) : List Char :=
  List.intercalate ['/'] pieces

/-- Leave out pieces at the end that are no steps. -/
def dropSilentEnd (pieces : List (List Char)) : List (List Char) :=
  (pieces.reverse.dropWhile isSilent).reverse

/-- The pieces of the path up to its last step; a leading dot is a step and stays. -/
def significantSegments (path : Path) : List (List Char) :=
  let pieces := path.segments
  if !path.isAbsolute && pieces.head? == some ['.'] then
    ['.'] :: dropSilentEnd pieces.tail
  else dropSilentEnd pieces

/-- Write pieces as a path, from the root if `absolute`. -/
def ofSegments (absolute : Bool) (pieces : List (List Char)) : Path :=
  ⟨String.ofList ((if absolute then ['/'] else []) ++ joinSegments pieces)⟩

/-- The directory that the path's last step lies in; nothing for the root and the empty path. -/
def parent? (path : Path) : Option Path :=
  match path.significantSegments.reverse with
  | [] => none
  | _ :: before =>
      let kept := before.reverse
      let dotted := !path.isAbsolute && kept.head? == some ['.']
      some (ofSegments path.isAbsolute
        (if dotted then ['.'] :: dropSilentEnd kept.tail else dropSilentEnd kept))

/-- The last step, if it is a name. -/
def fileName? (path : Path) : Option String :=
  match path.components.getLast? with
  | some (.name text) => some text
  | _ => none

/-- The path read from inside a directory: an absolute path stands for itself, any other follows
the directory and one separator. -/
def join (directory path : Path) : Path :=
  if path.isAbsolute then path
  else
    match directory.text.toList.getLast? with
    | none => path
    | some last => ⟨directory.text ++ (if last = '/' then "" else "/") ++ path.text⟩

/-- Drop as many steps from the pieces as the list of steps has. -/
def dropSteps : Nat → List (List Char) → List (List Char)
  | 0, pieces => pieces
  | _ + 1, [] => []
  | count + 1, piece :: rest =>
      if isSilent piece then dropSteps (count + 1) rest else dropSteps count rest

/-- The path without the steps of `base`, if its steps start with them. Where `base` has no steps
only what follows the last step is left out. -/
def stripBase? (path base : Path) : Option Path :=
  let baseSteps := base.components
  if baseSteps.isPrefixOf path.components then
    match baseSteps with
    | [] => some (ofSegments path.isAbsolute path.significantSegments)
    | first :: others =>
        let pieces := path.significantSegments
        let remaining :=
          match first with
          | .root => dropSteps others.length pieces
          | .current => dropSteps others.length pieces.tail
          | _ => dropSteps (others.length + 1) pieces
        some (ofSegments false (remaining.dropWhile isSilent))
  else none

/-- The path as seen from `base`, or as it is when it does not lie below. -/
def relativeTo (path base : Path) : Path :=
  (path.stripBase? base).getD path

/-- The path as text with every backslash shown as a separator. -/
def display (path : Path) : String :=
  String.ofList (path.text.toList.map fun c => if c = '\\' then '/' else c)

/-- The same path with `suffix` written directly behind it. -/
def append (path : Path) (suffix : String) : Path :=
  ⟨path.text ++ suffix⟩

end Path

end TemplateBundle

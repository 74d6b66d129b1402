import TemplateBundle.Yaml.Scanner

/-!
# Nodes

What a text describes: scalars, lists and mappings. A text that makes no sense from some place on
still describes what stands before that place; the node at the place is `Node.broken`. The node of a
whole text is found by `Document.ofText`.
-/

namespace TemplateBundle.Yaml

/-- A part of what a text describes. -/
inductive Node where
  | scalar (text : String) (style : ScalarStyle) (tag : Option String)
  | list (items : List Node)
  | mapping (pairs : List (Node × Node))
  /-- A reference to a list, or else a mapping, that it is itself a part of. -/
  | cycle (isList : Bool)
  /-- The text makes no sense from here on. -/
  | broken
  deriving Inhabited

namespace Node

/-- What stands where nothing is written. -/
def empty : Node :=
  .scalar "" .plain none

mutual

/-- The text makes sense in all of the node. -/
def isWhole : Node → Bool
  | .scalar .. => true
  | .list items => allWhole items
  | .mapping pairs => allPairsWhole pairs
  | .cycle _ => true
  | .broken => false

/-- All the nodes are whole. -/
def allWhole : List Node → Bool
  | [] => true
  | node :: others => node.isWhole && allWhole others

/-- All the keys and values are whole. -/
def allPairsWhole : List (Node × Node) → Bool
  | [] => true
  | (key, value) :: others => key.isWhole && value.isWhole && allPairsWhole others

end

end Node

/-! ## Reading nodes -/

/-- A name for a node, and the node; that is `Node.cycle` as long as the node is being read. -/
structure NamedNode where
  name : String
  number : Nat
  node : Node
  deriving Inhabited

/-- The state of reading. There is no scanner once the text makes no sense. -/
structure NodeReader where
  scanner : Option Scanner
  /-- What the handles of tags stand for. -/
  handles : List (String × String)
  /-- The named nodes, last one first. -/
  named : List NamedNode
  deriving Inhabited

namespace NodeReader

/-- A step of reading. -/
abbrev Reading := StateM NodeReader

/-- The text makes no sense from here on. -/
def giveUp : Reading Unit :=
  modify fun reader => { reader with scanner := none }

/-- The token that comes next. -/
def peek : Reading (Option Token) := do
  match (← get).scanner.bind Scanner.head? with
  | some (token, scanner) =>
      modify fun reader => { reader with scanner := some scanner }
      return some token
  | none =>
      giveUp
      return none

/-- Take the token that comes next. -/
def skip : Reading Unit :=
  modify fun reader => { reader with scanner := reader.scanner.map Scanner.take }

/-- A node at a place that makes no sense. -/
def brokenNode : Reading Node := do
  giveUp
  return .broken

/-- Nodes from a place on that makes no sense. -/
def brokenList : Reading (List Node) := do
  giveUp
  return [.broken]

/-- Keys and values from a place on that makes no sense. -/
def brokenPairs : Reading (List (Node × Node)) := do
  giveUp
  return [(.broken, .broken)]

/-- The node with a name. -/
def namedNode (name : String) : Reading Node := do
  match (← get).named.find? fun entry => entry.name == name with
  | some entry => return entry.node
  | none => brokenNode

/-- Give a name to the node that is read next; the answer is the number of that node. -/
def openName (name : String) : Reading Nat := do
  let number := (← get).named.length
  let isList := match ← peek with
    | some .flowSequenceStart | some .blockSequenceStart | some .blockItem => true
    | _ => false
  let entry : NamedNode := { name := name, number := number, node := .cycle isList }
  modify fun reader => { reader with named := entry :: reader.named }
  return number

/-- The node with a number has been read. -/
def closeName (number : Nat) (node : Node) : Reading Unit :=
  modify fun reader =>
    { reader with
      named := reader.named.map fun entry =>
        if entry.number = number then { entry with node := node } else entry }

/-- What is said about a node before it: its name and its tag, in either order. -/
def properties : Reading (Option String × Option (String × String)) := do
  match ← peek with
  | some (.anchor name) =>
      skip
      match ← peek with
      | some (.tag handle suffix) =>
          skip
          return (some name, some (handle, suffix))
      | _ => return (some name, none)
  | some (.tag handle suffix) =>
      skip
      match ← peek with
      | some (.anchor name) =>
          skip
          return (some name, some (handle, suffix))
      | _ => return (none, some (handle, suffix))
  | _ => return (none, none)

/-- The tag with the handle spelled out. A handle that stands for nothing makes no sense. -/
def spelledOut (handle suffix : String) : Reading String := do
  if handle.isEmpty then return suffix
  match (← get).handles.lookup handle with
  | some leading => return leading ++ suffix
  | none =>
      giveUp
      return suffix

/-- Pass over the comma between two parts in brackets. The answer is whether there was one where
it has to be. -/
def separated (isFirst : Bool) (closing : Token) : Reading Bool := do
  let token ← peek
  if token = some closing ∨ isFirst then return token.isSome
  else if token = some .flowItem then
    skip
    return true
  else return false

mutual

/-- A node. In brackets there are no blocks; as the value of a key, items of a list need no
further indentation. -/
def node : Nat → Bool → Bool → Reading Node
  | 0, _, _ => brokenNode
  | bound + 1, inBlock, flatItems => do
      match ← peek with
      | some (.alias name) =>
          skip
          namedNode name
      | _ =>
          let (name, tag) ← properties
          let tag ← tag.mapM fun (handle, suffix) => spelledOut handle suffix
          match name with
          | some name =>
              let number ← openName name
              let node ← content bound inBlock flatItems true tag
              closeName number node
              return node
          | none => content bound inBlock flatItems false tag

/-- What stands behind the name and tag of a node. -/
def content : Nat → Bool → Bool → Bool → Option String → Reading Node
  | 0, _, _, _, _ => brokenNode
  | bound + 1, inBlock, flatItems, isNamed, tag => do
      match ← peek, inBlock, flatItems with
      | some .blockItem, _, true => return .list (← flatList bound)
      | some (.scalar text style), _, _ =>
          skip
          return .scalar text style (tag.filter (· != "!"))
      | some .flowSequenceStart, _, _ =>
          skip
          return .list (← flowItems bound true)
      | some .flowMappingStart, _, _ =>
          skip
          return .mapping (← flowPairs bound true)
      | some .blockSequenceStart, true, _ =>
          skip
          return .list (← blockItems bound)
      | some .blockMappingStart, true, _ =>
          skip
          return .mapping (← blockPairs bound)
      | some _, _, _ =>
          if isNamed ∨ tag.isSome then return .scalar "" .plain tag else brokenNode
      | none, _, _ => brokenNode

/-- The items of a block. -/
def blockItems : Nat → Reading (List Node)
  | 0 => brokenList
  | bound + 1 => do
      match ← peek with
      | some .blockItem =>
          skip
          let item ← match ← peek with
            | some .blockItem | some .blockEnd => pure .empty
            | _ => node bound true false
          return item :: (← blockItems bound)
      | some .blockEnd =>
          skip
          return []
      | _ => brokenList

/-- The items of a list that is indented like the key it belongs to. -/
def flatList : Nat → Reading (List Node)
  | 0 => brokenList
  | bound + 1 => do
      match ← peek with
      | some .blockItem =>
          skip
          let item ← match ← peek with
            | some .blockItem | some .key | some .value | some .blockEnd => pure .empty
            | _ => node bound true false
          return item :: (← flatList bound)
      | some _ => return []
      | none => brokenList

/-- The keys and values of a block. -/
def blockPairs : Nat → Reading (List (Node × Node))
  | 0 => brokenPairs
  | bound + 1 => do
      match ← peek with
      | some .key =>
          skip
          let key ← blockPart bound
          let value ← blockValue bound
          return (key, value) :: (← blockPairs bound)
      | some .blockEnd =>
          skip
          return []
      | _ => brokenPairs

/-- The value behind a key of a block. -/
def blockValue : Nat → Reading Node
  | 0 => brokenNode
  | bound + 1 => do
      match ← peek with
      | some .value =>
          skip
          blockPart bound
      | some _ => return .empty
      | none => brokenNode

/-- A key or a value of a block, which may be left out. -/
def blockPart : Nat → Reading Node
  | 0 => brokenNode
  | bound + 1 => do
      match ← peek with
      | some .key | some .value | some .blockEnd => return .empty
      | _ => node bound true true

/-- The items of a list in brackets. An item may be a single pair of a key and a value. -/
def flowItems : Nat → Bool → Reading (List Node)
  | 0, _ => brokenList
  | bound + 1, isFirst => do
      if ← separated isFirst .flowSequenceEnd then
        match ← peek with
        | some .flowSequenceEnd =>
            skip
            return []
        | some .key =>
            skip
            let key ← match ← peek with
              | some .value | some .flowItem | some .flowSequenceEnd =>
                  skip
                  pure .empty
              | _ => node bound false false
            let value ← flowValue bound .flowSequenceEnd
            return .mapping [(key, value)] :: (← flowItems bound false)
        | _ =>
            let item ← node bound false false
            return item :: (← flowItems bound false)
      else brokenList

/-- The keys and values of a mapping in brackets. -/
def flowPairs : Nat → Bool → Reading (List (Node × Node))
  | 0, _ => brokenPairs
  | bound + 1, isFirst => do
      if ← separated isFirst .flowMappingEnd then
        match ← peek with
        | some .flowMappingEnd =>
            skip
            return []
        | some .key =>
            skip
            let key ← match ← peek with
              | some .value | some .flowItem | some .flowMappingEnd => pure .empty
              | _ => node bound false false
            let value ← flowValue bound .flowMappingEnd
            return (key, value) :: (← flowPairs bound false)
        | _ =>
            let key ← node bound false false
            let value ← match ← peek with
              | some _ => pure .empty
              | none => brokenNode
            return (key, value) :: (← flowPairs bound false)
      else brokenPairs

/-- The value behind a key in brackets, which may be left out. -/
def flowValue : Nat → Token → Reading Node
  | 0, _ => brokenNode
  | bound + 1, closing => do
      match ← peek with
      | some .value =>
          skip
          let token ← peek
          if token = some .flowItem ∨ token = some closing then return .empty
          else node bound false false
      | some _ => return .empty
      | none => brokenNode

end

/-- The instructions before a document. The answer is whether they make sense. -/
def instructions : Nat → Bool → Reading Bool
  | 0, _ => return false
  | bound + 1, hasVersion => do
      match ← peek with
      | some (.version supported) =>
          skip
          if supported ∧ !hasVersion then instructions bound true else return false
      | some (.tagShorthand handle leading) =>
          skip
          if ((← get).handles.lookup handle).isSome then return false
          modify fun reader => { reader with handles := (handle, leading) :: reader.handles }
          instructions bound hasVersion
      | token => return token.isSome

/-- The handles of tags that need no instruction. -/
def usualHandles : List (String × String) :=
  [("!", "!"), ("!!", "tag:yaml.org,2002:")]

/-- The node of a document behind the sign for its start. -/
def markedDocument (bound : Nat) : Reading Node := do
  if ← instructions bound false then
    if (← peek) = some .documentStart then
      skip
      modify fun reader => { reader with handles := reader.handles ++ usualHandles }
      match ← peek with
      | some (.version _) | some (.tagShorthand ..) | some .documentStart | some .documentEnd
      | some .streamEnd => return .empty
      | _ => node bound true false
    else brokenNode
  else brokenNode

/-- The node of the first document, if there is a document. -/
def document (bound : Nat) : Reading (Option Node) := do
  match ← peek with
  | some .streamEnd => return none
  | some (.version _) | some (.tagShorthand ..) | some .documentStart => markedDocument bound
  | _ =>
      modify fun reader => { reader with handles := usualHandles }
      node bound true false

/-- Nothing follows but signs for the end of the document. -/
def nothingFollows : Nat → Reading Bool
  | 0 => return false
  | bound + 1 => do
      match ← peek with
      | some .documentEnd =>
          skip
          nothingFollows bound
      | token => return token = some .streamEnd

end NodeReader

/-- What a text describes. -/
structure Document where
  /-- The node, if the text holds anything. -/
  root : Option Node
  /-- The text makes sense behind the node, and holds nothing more. -/
  endsThere : Bool
  deriving Inhabited

/-- Read a text. A character that may not stand in it spoils it from the start. -/
def Document.ofText (text : String) : Document :=
  let chars := text.toList
  if chars.all isAllowed then
    let bound := 16 * (chars.length + 16)
    let start : NodeReader :=
      { scanner := some (Scanner.start chars), handles := [], named := [] }
    let ((root, endsThere), _) :=
      (do
        let root ← NodeReader.document bound
        let endsThere ← NodeReader.nothingFollows bound
        return (root, endsThere) : NodeReader.Reading (Option Node × Bool)).run start
    { root := root, endsThere := endsThere }
  else { root := some .broken, endsThere := false }

end TemplateBundle.Yaml

import TemplateBundle.Yaml.Scalar

/-!
# Scanning

The tokens of a text, one after the other. A mapping key may show itself only by the colon behind
it, so a token that could be such a key is held back until that is settled; `Scanner.head?` gives
the token that is certain to come next.
-/

namespace TemplateBundle.Yaml

/-- A place where a key may have started. -/
structure PossibleKey where
  /-- Nothing but a key is allowed there. -/
  required : Bool
  /-- The number of the token at the place. -/
  number : Nat
  mark : Mark
  deriving Repr, Inhabited

/-- The state of scanning. -/
structure Scanner where
  place : Place
  /-- How many brackets are open. -/
  depth : Nat
  indent : Int
  /-- The indentations around the current one. -/
  outer : List Int
  /-- A key may start at the current place. -/
  keyAllowed : Bool
  /-- Where a key may have started, for each open bracket and the block around, innermost
  first. -/
  keys : List (Option PossibleKey)
  /-- Tokens that were read and not taken. -/
  tokens : List Token
  /-- How many tokens were taken. -/
  taken : Nat
  ended : Bool
  deriving Inhabited

namespace Scanner

/-- The scanner at the start of a text. A mark for the order of bytes is passed over. -/
def start (text : List Char) : Scanner :=
  let text := match text with
    | '\ufeff' :: rest => rest
    | _ => text
  { place := ⟨text, ⟨0, 0, 0⟩⟩, depth := 0, indent := -1, outer := [], keyAllowed := true,
    keys := [none], tokens := [], taken := 0, ended := false }

/-- Add a token. -/
def push (scanner : Scanner) (token : Token) : Scanner :=
  { scanner with tokens := scanner.tokens ++ [token] }

/-- Add a token before the one with a number. -/
def insertAt (scanner : Scanner) (number : Nat) (token : Token) : Scanner :=
  let before := number - scanner.taken
  { scanner with
    tokens := scanner.tokens.take before ++ token :: scanner.tokens.drop before }

/-- Pass over characters of a line. -/
def forward (scanner : Scanner) (count : Nat) : Scanner :=
  { scanner with place := scanner.place.forward count }

/-- Set whether a key may start here. -/
def allowKey (scanner : Scanner) (allowed : Bool) : Scanner :=
  { scanner with keyAllowed := allowed }

/-- Whether the text up to the mark rules out a key that started before. A key stays on one line
and is not too long. -/
def PossibleKey.isStale (key : PossibleKey) (mark : Mark) : Bool :=
  key.mark.line < mark.line || key.mark.index + 1024 < mark.index

/-- Drop keys that are ruled out; none of them may be required. -/
def dropStale (scanner : Scanner) : Option Scanner := do
  let keys ← scanner.keys.mapM fun key =>
    match key with
    | none => some none
    | some key =>
        if PossibleKey.isStale key scanner.place.mark then if key.required then none else some none
        else some (some key)
  return { scanner with keys := keys }

/-- No key has started at the innermost level. -/
def dropKey (scanner : Scanner) : Option Scanner :=
  match scanner.keys with
  | some key :: others =>
      if key.required then none else some { scanner with keys := none :: others }
  | _ => some scanner

/-- A key may have started here. -/
def saveKey (scanner : Scanner) : Option Scanner :=
  if scanner.keyAllowed then do
    let key : PossibleKey :=
      { required := scanner.depth = 0 && scanner.indent == scanner.place.mark.column
        number := scanner.taken + scanner.tokens.length
        mark := scanner.place.mark }
    let scanner ← scanner.dropKey
    return { scanner with keys := some key :: scanner.keys.tail }
  else some scanner

/-- Open a block at a column, if it lies deeper, before the token with a number. -/
def openBlock (scanner : Scanner) (column number : Nat) (token : Token) : Scanner :=
  if scanner.depth = 0 ∧ scanner.indent < column then
    { scanner.insertAt number token with
      outer := scanner.indent :: scanner.outer, indent := column }
  else scanner

/-- Open a block at a column, if it lies deeper, behind all tokens. -/
def openBlockHere (scanner : Scanner) (token : Token) : Scanner :=
  scanner.openBlock scanner.place.mark.column (scanner.taken + scanner.tokens.length) token

/-- Close the blocks that lie deeper than a column. -/
def closeBlocks (column : Int) : List Int → Scanner → Scanner
  | [], scanner => scanner
  | outer :: others, scanner =>
      if column < scanner.indent then
        closeBlocks column others
          { scanner.push .blockEnd with indent := outer, outer := others }
      else scanner

/-- Outside brackets, close the blocks that lie deeper than a column. -/
def closeTo (scanner : Scanner) (column : Int) : Scanner :=
  if scanner.depth = 0 then closeBlocks column scanner.outer scanner else scanner

/-! ## Between tokens -/

/-- Pass over blanks, comments and line ends. A tab is no blank where a key may start, and a mark
for the order of bytes may start a line. -/
def skipGap : Bool → Bool → List Char → Mark → Bool → Place × Bool
  | _, _, [], mark, allowed => (⟨[], mark⟩, allowed)
  | inFlow, _, '\r' :: '\n' :: rest, mark, allowed =>
      skipGap inFlow false rest (mark.nextLine 2) (allowed || !inFlow)
  | inFlow, inComment, c :: rest, mark, allowed =>
      if isBreak c then skipGap inFlow false rest (mark.nextLine 1) (allowed || !inFlow)
      else if inComment || c == ' ' || (c == '\t' && (inFlow || !allowed)) ||
          (c == '\ufeff' && mark.column == 0) then
        skipGap inFlow inComment rest mark.next allowed
      else if c == '#' then skipGap inFlow true rest mark.next allowed
      else (⟨c :: rest, mark⟩, allowed)

/-! ## Tokens -/

/-- The end of the text. -/
def fetchEnd (scanner : Scanner) : Option Scanner := do
  let scanner := scanner.closeTo (-1)
  let scanner ← scanner.dropKey
  return { (scanner.push .streamEnd).allowKey false with ended := true }

/-- The bounds of a document. -/
def fetchBound (scanner : Scanner) (token : Token) : Option Scanner := do
  let scanner ← (scanner.closeTo (-1)).dropKey
  return ((scanner.push token).allowKey false).forward 3

/-- An opening bracket. -/
def fetchOpening (scanner : Scanner) (token : Token) : Option Scanner := do
  let scanner ← scanner.saveKey
  let scanner := { scanner with keys := none :: scanner.keys, depth := scanner.depth + 1 }
  return ((scanner.push token).allowKey true).forward 1

/-- A closing bracket. -/
def fetchClosing (scanner : Scanner) (token : Token) : Option Scanner := do
  let scanner ← scanner.dropKey
  let scanner :=
    if scanner.depth = 0 then scanner
    else { scanner with keys := scanner.keys.tail, depth := scanner.depth - 1 }
  return ((scanner.push token).allowKey false).forward 1

/-- A comma between brackets. -/
def fetchFlowItem (scanner : Scanner) : Option Scanner := do
  let scanner ← scanner.dropKey
  return ((scanner.push .flowItem).allowKey true).forward 1

/-- A hyphen before an item of a block. -/
def fetchBlockItem (scanner : Scanner) : Option Scanner := do
  if scanner.depth = 0 && !scanner.keyAllowed then none
  let scanner ← (scanner.openBlockHere .blockSequenceStart).dropKey
  return ((scanner.push .blockItem).allowKey true).forward 1

/-- A question mark before a key. -/
def fetchKey (scanner : Scanner) : Option Scanner := do
  if scanner.depth = 0 && !scanner.keyAllowed then none
  let scanner ← (scanner.openBlockHere .blockMappingStart).dropKey
  return ((scanner.push .key).allowKey (scanner.depth == 0)).forward 1

/-- A colon before a value. It makes a key of what may have been one. -/
def fetchValue (scanner : Scanner) : Option Scanner := do
  match scanner.keys with
  | some key :: others =>
      let scanner := { scanner.insertAt key.number .key with keys := none :: others }
      let scanner := scanner.openBlock key.mark.column key.number .blockMappingStart
      return ((scanner.push .value).allowKey false).forward 1
  | _ =>
      if scanner.depth = 0 && !scanner.keyAllowed then none
      let scanner := scanner.openBlockHere .blockMappingStart
      return ((scanner.push .value).allowKey (scanner.depth == 0)).forward 1

/-- The name of an anchor or alias, behind its sign. -/
def anchorName? (rest : List Char) : Option (List Char) :=
  let name := rest.takeWhile isNameChar
  let behind := rest.drop name.length
  let ends := endsWord behind ||
    behind.head?.any fun c => ['?', ':', ',', ']', '\x7d', '%', '@', '\x60'].contains c
  if name.isEmpty || !ends then none else some name

/-- An anchor or alias. -/
def fetchAnchor (scanner : Scanner) (token : String → Token) : Option Scanner := do
  let scanner ← scanner.saveKey
  let name ← anchorName? scanner.place.rest.tail
  return ((scanner.push (token (String.ofList name))).allowKey false).forward (name.length + 1)

/-- The character may stand in a tag. -/
def isTagChar (verbatim : Bool) (c : Char) : Bool :=
  isNameChar c || [';', '/', '?', ':', '@', '&', '=', '+', '$', '.', '!', '~', '*', '\'', '(', ')',
    '%'].contains c || (verbatim && [',', '[', ']'].contains c)

/-- The handle of a tag, from its sign on. -/
def tagHandle (rest : List Char) : List Char :=
  let name := rest.tail.takeWhile isNameChar
  match rest.drop (name.length + 1) with
  | '!' :: _ => '!' :: name ++ ['!']
  | _ => '!' :: name

/-- A tag: its handle, its suffix, and how long it is. -/
def tag? (rest : List Char) : Option (List Char × List Char × Nat) :=
  match rest with
  | '!' :: '<' :: behind =>
      let suffix := behind.takeWhile (isTagChar true)
      match behind.drop suffix.length with
      | '>' :: _ => if suffix.isEmpty then none else some ([], suffix, suffix.length + 3)
      | _ => none
  | _ =>
      let handle := tagHandle rest
      let suffix := (rest.drop handle.length).takeWhile (isTagChar false)
      let length := handle.length + suffix.length
      if 2 ≤ handle.length && handle.getLast? == some '!' then
        if suffix.isEmpty then none else some (handle, suffix, length)
      else
        let suffix := handle.tail ++ suffix
        if suffix.isEmpty then some ([], ['!'], length) else some (['!'], suffix, length)

/-- A tag. -/
def fetchTag (scanner : Scanner) : Option Scanner := do
  let scanner ← scanner.saveKey
  let (handle, suffix, length) ← tag? scanner.place.rest
  let behind := scanner.place.rest.drop length
  if !(endsWord behind || (scanner.depth != 0 && behind.head? == some ',')) then none
  let token := Token.tag (String.ofList handle) (String.ofList suffix)
  return ((scanner.push token).allowKey false).forward length

/-- A block scalar. -/
def fetchBlock (scanner : Scanner) (isLiteral : Bool) : Option Scanner := do
  let scanner ← scanner.dropKey
  let read ← blockScalar isLiteral scanner.indent scanner.place
  let token := Token.scalar (String.ofList read.text) (if isLiteral then .literal else .folded)
  return { (scanner.push token).allowKey true with place := read.after }

/-- A quoted scalar. -/
def fetchQuoted (scanner : Scanner) : Option Scanner := do
  let scanner ← scanner.saveKey
  let read ← quotedScalar scanner.place
  let token := Token.scalar (String.ofList read.text) .quoted
  return { (scanner.push token).allowKey false with place := read.after }

/-- A plain scalar. -/
def fetchPlain (scanner : Scanner) : Option Scanner := do
  let scanner ← scanner.saveKey
  let read ← plainScalar (scanner.depth != 0) (scanner.indent + 1).toNat scanner.place
  let token := Token.scalar (String.ofList read.text) .plain
  return { (scanner.push token).allowKey read.brokenOff with place := read.after }

/-- A line of instructions: the version of the format, or a shorthand for tags. -/
def directive? (line : List Char) : Option Token :=
  let words := (line.map fun c => if c = '\t' then ' ' else c).splitOn ' ' |>.filter (!·.isEmpty)
  match words.takeWhile fun word => word.head? != some '#' with
  | [name, version] =>
      if name = "%YAML".toList then
        match version.splitOn '.' with
        | [major, minor] =>
            if !major.isEmpty && !minor.isEmpty && (major ++ minor).all Char.isDigit then
              some (.version (major == ['1'] && (minor == ['1'] || minor == ['2'])))
            else none
        | _ => none
      else none
  | [name, handle, leading] =>
      if name = "%TAG".toList && handle.head? == some '!' && tagHandle handle == handle then
        some (.tagShorthand (String.ofList handle) (String.ofList leading))
      else none
  | _ => none

/-- Instructions at the start of a line. -/
def fetchDirective (scanner : Scanner) : Option Scanner := do
  let scanner ← (scanner.closeTo (-1)).dropKey
  let line := scanner.place.rest.takeWhile fun c => !isBreak c
  let token ← directive? line
  return ((scanner.push token).allowKey false).forward line.length

/-- Signs that do not start a plain scalar. -/
def isIndicator (c : Char) : Bool :=
  ['-', '?', ':', ',', '[', ']', '\x7b', '\x7d', '#', '&', '*', '!', '|', '>', '\'', '"', '%', '@',
    '\x60'].contains c

/-- A plain scalar may start here. -/
def startsPlain (inFlow : Bool) (c : Char) (rest : List Char) : Bool :=
  !(isIndicator c || isBlank c) || (c == '-' && !(rest.head?.any isBlank)) ||
    (!inFlow && (c == '?' || c == ':') && !endsWord rest)

/-- Read the token that starts here. -/
def fetchToken (scanner : Scanner) : Option Scanner :=
  let inFlow := scanner.depth != 0
  match scanner.place.rest with
  | [] => scanner.fetchEnd
  | c :: rest =>
      if scanner.place.mark.column = 0 ∧ c = '%' then scanner.fetchDirective
      else if atDocumentBound scanner.place then
        scanner.fetchBound (if c = '-' then .documentStart else .documentEnd)
      else if c = '[' then scanner.fetchOpening .flowSequenceStart
      else if c = '\x7b' then scanner.fetchOpening .flowMappingStart
      else if c = ']' then scanner.fetchClosing .flowSequenceEnd
      else if c = '\x7d' then scanner.fetchClosing .flowMappingEnd
      else if c = ',' then scanner.fetchFlowItem
      else if c = '-' ∧ endsWord rest then scanner.fetchBlockItem
      else if c = '?' ∧ (inFlow ∨ endsWord rest) then scanner.fetchKey
      else if c = ':' ∧ (inFlow ∨ endsWord rest) then scanner.fetchValue
      else if c = '*' then scanner.fetchAnchor .alias
      else if c = '&' then scanner.fetchAnchor .anchor
      else if c = '!' then scanner.fetchTag
      else if c = '|' ∧ !inFlow then scanner.fetchBlock true
      else if c = '>' ∧ !inFlow then scanner.fetchBlock false
      else if c = '\'' ∨ c = '"' then scanner.fetchQuoted
      else if startsPlain inFlow c rest then scanner.fetchPlain
      else none

/-- Read on until there is a further token. -/
def fetch (scanner : Scanner) : Option Scanner := do
  let (place, allowed) :=
    skipGap (scanner.depth != 0) false scanner.place.rest scanner.place.mark scanner.keyAllowed
  let scanner ← dropStale { scanner with place := place, keyAllowed := allowed }
  fetchToken (scanner.closeTo scanner.place.mark.column)

/-- The first token may turn out to be a key. -/
def headIsOpen (scanner : Scanner) : Bool :=
  scanner.keys.any fun key => key.any fun key => key.number == scanner.taken

/-- Read on until the first token is certain. The bound is on the number of tokens. -/
def settle : Nat → Scanner → Option Scanner
  | 0, _ => none
  | bound + 1, scanner => do
      if scanner.tokens.isEmpty then
        if scanner.ended then none
        else settle bound (← scanner.fetch)
      else
        let scanner ← scanner.dropStale
        if scanner.headIsOpen then settle bound (← scanner.fetch) else return scanner

/-- The token that comes next, and the scanner that holds it. -/
def head? (scanner : Scanner) : Option (Token × Scanner) := do
  let scanner ← settle (scanner.place.rest.length + 3) scanner
  match scanner.tokens with
  | token :: _ => return (token, scanner)
  | [] => none

/-- Take the token that comes next. -/
def take (scanner : Scanner) : Scanner :=
  { scanner with tokens := scanner.tokens.tail, taken := scanner.taken + 1 }

end Scanner

end TemplateBundle.Yaml

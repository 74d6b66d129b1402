import TemplateBundle.Regex.Syntax

/-!
# Reading flags and escapes

A pattern is read from its text from left to right. `Reading` holds what is left, the flags in
force, and the capture groups so far; a reader fails where the text is not that of a pattern. In
verbose patterns blanks and comments may stand between the parts.
-/

namespace TemplateBundle.Regex

/-- The flags in force at a place of a pattern. -/
structure Flags where
  ignoreCase : Bool := false
  multiLine : Bool := false
  dotMatchesAll : Bool := false
  /-- Repetitions prefer fewer rounds, and a question mark behind them reverses it. -/
  swapGreed : Bool := false
  unicode : Bool := true
  /-- Carriage returns end lines too. -/
  carriageReturns : Bool := false
  verbose : Bool := false
  deriving DecidableEq, Repr, Inhabited

/-- The state of reading a pattern. -/
structure Reading where
  rest : List Char
  flags : Flags
  groups : Nat
  names : List String
  deriving Repr, Inhabited

/-- A reader takes something off the text, or fails. -/
abbrev Read := StateT Reading Option

/-- What an escape or a plain character stands for. -/
inductive Atom where
  | literal (c : Char)
  | set (members : CharSet)
  | look (assertion : Look)
  deriving DecidableEq, Repr, Inhabited

/-- The rest of a text behind blanks and comments. -/
def dropVerbose : Bool → List Char → List Char
  | _, [] => []
  | true, c :: rest => dropVerbose (c != '\n') rest
  | false, c :: rest =>
      if Text.isWhite c then dropVerbose false rest
      else if c = '#' then dropVerbose true rest
      else c :: rest

namespace Read

/-- What is left to read. -/
def rest : Read (List Char) :=
  Reading.rest <$> get

/-- The flags in force. -/
def flags : Read Flags :=
  Reading.flags <$> get

/-- Go on with another rest. -/
def continueWith (rest : List Char) : Read Unit :=
  modify fun reading => { reading with rest := rest }

/-- Go on with other flags. -/
def setFlags (flags : Flags) : Read Unit :=
  modify fun reading => { reading with flags := flags }

/-- The next character, which stays. -/
def peek? : Read (Option Char) :=
  List.head? <$> rest

/-- The next character, which stays; there has to be one. -/
def peek : Read Char := do
  match ← peek? with
  | some c => pure c
  | none => failure

/-- Pass over one character. -/
def advance : Read Unit := do
  continueWith (← rest).tail

/-- In a verbose pattern, pass over blanks and comments. -/
def skip : Read Unit := do
  if (← flags).verbose then
    continueWith (dropVerbose false (← rest))

/-- Pass over one character and what may be skipped behind it. -/
def step : Read Unit := do
  advance
  skip

/-- Pass over the given characters if they come next. -/
def accept (expected : List Char) : Read Bool := do
  let remaining ← rest
  if expected.isPrefixOf remaining then
    continueWith (remaining.drop expected.length)
    pure true
  else pure false

/-- Take characters off as long as they pass, with what may be skipped behind each. -/
def takeWhile (accepted : Char → Bool) : Nat → Read (List Char)
  | 0 => pure []
  | bound + 1 => do
      match ← peek? with
      | some c =>
          if accepted c then
            step
            return c :: (← takeWhile accepted bound)
          else pure []
      | none => pure []

/-- Take characters off as long as they pass. -/
def takeAll (accepted : Char → Bool) : Read (List Char) := do
  takeWhile accepted (← rest).length

/-- Pass over blanks. -/
def dropWhite : Read Unit := do
  continueWith ((← rest).dropWhile Text.isWhite)

end Read

namespace CharSet

/-- The characters of ASCII. -/
def ascii : CharSet :=
  .range '\x00' '\x7f'

/-- The set with the case variants of its members, if the flags ask for them. Without scripts
other than ASCII only its letters have variants. -/
def withVariants (flags : Flags) (members : CharSet) : CharSet :=
  if flags.ignoreCase then
    if flags.unicode then .folded members else .intersection (.folded members) ascii
  else members

/-- All characters but the members. It needs the characters of all scripts. -/
def without (flags : Flags) (members : CharSet) : Read CharSet :=
  if flags.unicode then pure (.complement members) else failure

end CharSet

/-! ## Numbers -/

/-- The character with a code, where the code fits in 32 bits and stands for a character. -/
def charOfCode? (code : Nat) : Option Char :=
  if code.isValidChar then some (Char.ofNat code) else none

/-- The largest number of rounds that can be written. -/
def greatestCount : Nat := Nat.pow 2 32 - 1

/-- The number that decimal digits write. -/
def decimalNumber (digits : List Char) : Nat :=
  digits.foldl (fun value c => 10 * value + (c.toNat - '0'.toNat)) 0

/-- A decimal number between blanks; nothing if there is no digit. -/
def readDecimal? : Read (Option Nat) := do
  Read.dropWhite
  let digits ← Read.takeAll Char.isDigit
  Read.dropWhite
  Read.skip
  if digits.isEmpty then pure none
  else
    let value := decimalNumber digits
    if value ≤ greatestCount then pure (some value) else failure

/-- A fixed number of hexadecimal digits. -/
def readHexDigits : Nat → Read (List Char)
  | 0 => pure []
  | count + 1 => do
      let c ← Read.peek
      if (Text.hexValue? c).isSome then
        Read.step
        return c :: (← readHexDigits count)
      else failure

/-- Hexadecimal digits up to the closing brace. -/
def readBracedHex : Read (List Char) := do
  let digits ← Read.takeAll fun c => (Text.hexValue? c).isSome
  if (← Read.peek) = '\x7d' then
    Read.step
    pure digits
  else failure

/-- A character written by its code, behind the letter that says how many digits it takes. -/
def readCharCode (digits : Nat) : Read Atom := do
  let c ← Read.peek
  if c = '\x7b' then
    Read.step
    let written ← readBracedHex
    if written.isEmpty then failure
    else
      match charOfCode? (Text.hexNumber written) with
      | some c => pure (.literal c)
      | none => failure
  else
    let code := Text.hexNumber (← readHexDigits digits)
    if !(← Read.flags).unicode && digits = 2 && 0x7F < code then failure
    else
      match charOfCode? code with
      | some c => pure (.literal c)
      | none => failure

/-! ## Named sets -/

/-- Split at the first place where the given characters stand. -/
def splitAt? (mark : List Char) : List Char → Option (List Char × List Char)
  | [] => none
  | c :: rest =>
      if mark.isPrefixOf (c :: rest) then some ([], (c :: rest).drop mark.length)
      else (splitAt? mark rest).map fun (before, after) => (c :: before, after)

/-- The set that the text between the braces of a property stands for. -/
def propertyOf? (written : List Char) : Option Property :=
  let separated := splitAt? ['!', '='] written <|> splitAt? [':'] written <|> splitAt? ['='] written
  match separated with
  | some (name, value) => Property.ofNameValue? (String.ofList name) (String.ofList value)
  | none => Property.ofName? (String.ofList written)

/-- A property behind its letter: one character, or a name between braces. -/
def readProperty (negated : Bool) : Read Atom := do
  let c ← Read.peek
  let written ←
    if c = '\x7b' then do
      Read.step
      let written ← Read.takeAll (· ≠ '\x7d')
      let _ ← Read.peek
      Read.advance
      pure written
    else if c = '\\' then failure
    else do
      Read.step
      pure [c]
  let flags ← Read.flags
  match propertyOf? written with
  | some property =>
      if flags.unicode then
        let members := CharSet.withVariants flags (.property property)
        pure (.set (if negated then .complement members else members))
      else failure
  | none => failure

/-- The digits of all scripts or of ASCII. -/
def digitSet (unicode : Bool) : CharSet :=
  if unicode then .property (.categories [.decimalNumber]) else .range '0' '9'

/-- The blanks of all scripts or of ASCII. -/
def blankSet (unicode : Bool) : CharSet :=
  if unicode then .property .white else .union (.range '\t' '\r') (.single ' ')

/-- The characters of words of all scripts or of ASCII. -/
def wordSet (unicode : Bool) : CharSet :=
  if unicode then .property .word
  else .unions [.range '0' '9', .range 'A' 'Z', .range 'a' 'z', .single '_']

/-- A set with a letter of its own, or what is not in it. -/
def readLetterSet (members : Bool → CharSet) (negated : Bool) : Read Atom := do
  let flags ← Read.flags
  let named := members flags.unicode
  if negated then return .set (← CharSet.without flags named)
  else pure (.set named)

/-! ## Escapes -/

/-- The character has a meaning of its own in patterns. -/
def isMeta (c : Char) : Bool :=
  c ∈ ['\\', '.', '+', '*', '?', '(', ')', '|', '[', ']', '\x7b', '\x7d', '^', '$', '#', '&', '-',
    '~']

/-- The character stands for itself behind a backslash. -/
def isEscapable (c : Char) : Bool :=
  isMeta c || (c.toNat < 0x80 && !c.isAlphanum && c != '<' && c != '>')

/-- The name of a word boundary between braces, behind the opening brace. Where no letter and no
hyphen follows, the brace opens a repetition instead and nothing is read. -/
def readBoundaryName? : Read (Option (List Char)) := do
  let before ← get
  Read.step
  let isNamePart := fun (c : Char) => c.isAlpha || c == '-'
  if isNamePart (← Read.peek) then
    let name ← Read.takeAll isNamePart
    if (← Read.peek) = '\x7d' then
      Read.advance
      pure (some name)
    else failure
  else
    set before
    pure none

/-- A word boundary of any of its kinds. -/
def readBoundary : Read Atom := do
  let ascii := !(← Read.flags).unicode
  if (← Read.peek?) = some '\x7b' then
    match (← readBoundaryName?).map String.ofList with
    | none => pure (.look (.boundary ascii))
    | some "start" => pure (.look (.wordStart ascii))
    | some "end" => pure (.look (.wordEnd ascii))
    | some "start-half" => pure (.look (.wordStartHalf ascii))
    | some "end-half" => pure (.look (.wordEndHalf ascii))
    | some _ => failure
  else pure (.look (.boundary ascii))

/-- The rest of an escape behind its backslash. -/
def readEscape : Read Atom := do
  let c ← Read.peek
  match c with
  | 'x' => Read.step; readCharCode 2
  | 'u' => Read.step; readCharCode 4
  | 'U' => Read.step; readCharCode 8
  | 'p' => Read.step; readProperty false
  | 'P' => Read.step; readProperty true
  | 'd' => Read.advance; readLetterSet digitSet false
  | 'D' => Read.advance; readLetterSet digitSet true
  | 's' => Read.advance; readLetterSet blankSet false
  | 'S' => Read.advance; readLetterSet blankSet true
  | 'w' => Read.advance; readLetterSet wordSet false
  | 'W' => Read.advance; readLetterSet wordSet true
  | _ =>
      Read.advance
      let ascii := !(← Read.flags).unicode
      if isEscapable c then pure (.literal c)
      else
        match c with
        | 'a' => pure (.literal '\x07')
        | 'f' => pure (.literal '\x0c')
        | 't' => pure (.literal '\t')
        | 'n' => pure (.literal '\n')
        | 'r' => pure (.literal '\r')
        | 'v' => pure (.literal '\x0b')
        | 'A' => pure (.look .textStart)
        | 'z' => pure (.look .textEnd)
        | 'b' => readBoundary
        | 'B' => pure (.look (.noBoundary ascii))
        | '<' => pure (.look (.wordStart ascii))
        | '>' => pure (.look (.wordEnd ascii))
        | _ => failure

end TemplateBundle.Regex

import TemplateBundle.Regex.Bracket

/-!
# Reading patterns

`Pattern.ofText?` reads a pattern from its text. Look-around, references to groups and repetitions
without an operand are refused.
-/

namespace TemplateBundle.Regex

/-! ## Flags -/

/-- Whether a flag letter sets its flag, and what it does to the flags in force. -/
def Flags.update? (flags : Flags) (letter : Char) (on : Bool) : Option Flags :=
  match letter with
  | 'i' => some { flags with ignoreCase := on }
  | 'm' => some { flags with multiLine := on }
  | 's' => some { flags with dotMatchesAll := on }
  | 'U' => some { flags with swapGreed := on }
  | 'u' => some { flags with unicode := on }
  | 'R' => some { flags with carriageReturns := on }
  | 'x' => some { flags with verbose := on }
  | _ => none

/-- Apply flag letters; those behind a hyphen are switched off. No letter and no hyphen may stand
twice, and a letter has to follow the hyphen. -/
def Flags.updateAll? (flags : Flags) (on : Bool) (seen : List Char) : List Char → Option Flags
  | [] => if seen.head? = some '-' then none else some flags
  | letter :: rest =>
      if letter ∈ seen then none
      else if letter = '-' then flags.updateAll? false (letter :: seen) rest
      else
        match flags.update? letter on with
        | some flags => flags.updateAll? on (letter :: seen) rest
        | none => none

/-! ## Groups -/

/-- How a parenthesis opens. -/
inductive Opening where
  /-- A group with its number. -/
  | capture (group : Nat)
  /-- A group that is not captured, with the flags in force in it. -/
  | plain (flags : Flags)
  /-- No group: flags for what follows. -/
  | switch (flags : Flags)
  deriving Repr

/-- The character may stand in the name of a group. -/
def isGroupNameChar (first : Bool) (c : Char) : Bool :=
  c == '_' || Text.isAlphabetic c ||
    (!first && (c == '.' || c == '[' || c == ']' || Text.Category.hasAny Text.Category.numbers c))

/-- The characters up to a closing angle bracket, as the name of a group. -/
def readGroupName : Read String := do
  let remaining ← Read.rest
  match splitAt? ['>'] remaining with
  | some (first :: others, rest) =>
      let name := String.ofList (first :: others)
      if isGroupNameChar true first && others.all (isGroupNameChar false) &&
          name ∉ (← get).names then
        Read.continueWith rest
        modify fun reading => { reading with names := name :: reading.names }
        pure name
      else failure
  | _ => failure

/-- The number of a new group. -/
def newGroup : Read Nat := do
  modify fun reading => { reading with groups := reading.groups + 1 }
  return (← get).groups

/-- The text after a parenthesis asks for look-around. -/
def asksForLookAround (text : List Char) : Bool :=
  [['?', '='], ['?', '!'], ['?', '<', '='], ['?', '<', '!']].any fun mark => mark.isPrefixOf text

/-- Take off what stands in front of the name of a group, if the group has a name. -/
def acceptNameMark : Read Bool := do
  if ← Read.accept ['?', 'P', '<'] then pure true
  else Read.accept ['?', '<']

/-- The character ends the letters of flags. -/
def endsFlags (c : Char) : Bool :=
  c == ':' || c == ')'

/-- The letters of flags. -/
def readFlagLetters : Read (List Char) := do
  let remaining ← Read.rest
  Read.continueWith (remaining.dropWhile (!endsFlags ·))
  pure (remaining.takeWhile (!endsFlags ·))

/-- The flags between a question mark and a colon or a closing parenthesis. -/
def readFlagOpening : Read Opening := do
  let letters ← readFlagLetters
  match (← Read.flags).updateAll? true [] letters with
  | some flags =>
      let c ← Read.peek
      Read.advance
      if c = ':' then pure (.plain flags)
      else if letters.isEmpty then failure
      else pure (.switch flags)
  | none => failure

/-- What opens at a parenthesis. -/
def readGroupOpening : Read Opening := do
  Read.step
  if asksForLookAround (← Read.rest) then failure
  else if ← acceptNameMark then
    let group ← newGroup
    let _ ← readGroupName
    pure (.capture group)
  else if ← Read.accept ['?'] then readFlagOpening
  else return .capture (← newGroup)

/-! ## Repetitions -/

/-- The least and the greatest number of rounds. -/
structure Rounds where
  least : Nat
  most : Option Nat
  deriving Repr

/-- Pass over a brace; what closes the repetition has to follow somewhere. -/
def stepInside : Read Unit := do
  Read.step
  let _ ← Read.peek

/-- Rounds between braces, from the opening one up to, but not including, the closing one. -/
def readRounds : Read Rounds := do
  stepInside
  let least? ← readDecimal?
  match least? with
  | none => failure
  | some least =>
      if (← Read.peek) = ',' then
        stepInside
        if (← Read.peek) = '\x7d' then pure { least := least, most := none }
        else
          match ← readDecimal? with
          | some most =>
              if least ≤ most then pure { least := least, most := some most } else failure
          | none => failure
      else pure { least := least, most := some least }

/-- What a repetition sign says. -/
def readRepetition (sign : Char) : Read Rounds := do
  match sign with
  | '*' => Read.advance; pure { least := 0, most := none }
  | '+' => Read.advance; pure { least := 1, most := none }
  | '?' => Read.advance; pure { least := 0, most := some 1 }
  | _ =>
      let rounds ← readRounds
      if (← Read.peek) = '\x7d' then
        Read.step
        pure rounds
      else failure

/-- The repetition of a pattern, with the question mark that may follow the sign. One that asks
for no round at all is empty. -/
def readRepeated (sign : Char) (body : Node) : Read Node := do
  let rounds ← readRepetition sign
  let reversed ← Read.accept ['?']
  let greedy := reversed == (← Read.flags).swapGreed
  if rounds.most = some 0 then pure .empty
  else pure (.repeated rounds.least rounds.most greedy body)

/-! ## Patterns -/

/-- A character under the flags in force. -/
def Node.ofChar (flags : Flags) (c : Char) : Node :=
  if flags.unicode || c.toNat < 0x80 then .char (CharSet.withVariants flags (.single c))
  else .char (.single c)

/-- A dot under the flags in force. -/
def Node.dot (flags : Flags) : Node :=
  if flags.dotMatchesAll then .char (.complement .empty)
  else if flags.carriageReturns then .char (.complement (.union (.single '\r') (.single '\n')))
  else .char (.complement (.single '\n'))

/-- The start of a text or line. -/
def Look.start (flags : Flags) : Look :=
  if flags.multiLine then if flags.carriageReturns then .anyLineStart else .lineStart
  else .textStart

/-- The end of a text or line. -/
def Look.stop (flags : Flags) : Look :=
  if flags.multiLine then if flags.carriageReturns then .anyLineEnd else .lineEnd
  else .textEnd

/-- A single character, escape, dot or assertion. -/
def readSingle (c : Char) : Read Node := do
  let flags ← Read.flags
  Read.advance
  match c with
  | '.' => if flags.unicode then pure (Node.dot flags) else failure
  | '^' => pure (.look (Look.start flags))
  | '$' => pure (.look (Look.stop flags))
  | '\\' =>
      match ← readEscape with
      | .literal c => pure (Node.ofChar flags c)
      | .set members => pure (.char members)
      | .look assertion => pure (.look assertion)
  | _ => pure (Node.ofChar flags c)

/-- The sequence of the parts, of which flag switches are none; the last part comes first. -/
def Node.ofParts (parts : List (Option Node)) : Node :=
  match parts.filterMap id with
  | [] => .empty
  | last :: others => others.foldl (fun behind part => .sequence part behind) last

/-- The choice of the alternatives, of which the last comes first. -/
def Node.ofAlternatives (last : Node) (others : List Node) : Node :=
  others.foldl (fun behind alternative => .choice alternative behind) last

/-- The pattern up to a closing parenthesis or the end. The parts of the current alternative are
given with the last one first; a part without a node is a switch of flags. The bound is on the
parts of this pattern and of all groups in it. -/
def readNode : Nat → List Node → List (Option Node) → Read Node
  | 0, _, _ => failure
  | bound + 1, alternatives, parts => do
      Read.skip
      match ← Read.peek? with
      | none => pure (Node.ofAlternatives (Node.ofParts parts) alternatives)
      | some ')' => pure (Node.ofAlternatives (Node.ofParts parts) alternatives)
      | some '|' =>
          Read.advance
          readNode bound (Node.ofParts parts :: alternatives) []
      | some '(' =>
          let outer ← Read.flags
          match ← readGroupOpening with
          | .switch flags =>
              Read.setFlags flags
              readNode bound alternatives (none :: parts)
          | .plain flags =>
              Read.setFlags flags
              let body ← readNode bound [] []
              if ← Read.accept [')'] then
                Read.setFlags outer
                readNode bound alternatives (some body :: parts)
              else failure
          | .capture group =>
              let body ← readNode bound [] []
              if ← Read.accept [')'] then
                Read.setFlags outer
                readNode bound alternatives (some (.capture group body) :: parts)
              else failure
      | some '[' =>
          let members ← readBracket
          readNode bound alternatives (some (.char members) :: parts)
      | some c =>
          if c = '*' ∨ c = '+' ∨ c = '?' ∨ c = '\x7b' then
            match parts with
            | some body :: before =>
                let repeated ← readRepeated c body
                readNode bound alternatives (some repeated :: before)
            | _ => failure
          else
            let single ← readSingle c
            readNode bound alternatives (some single :: parts)

/-- How many capture groups are in the pattern. -/
def Node.captureCount : Node → Nat
  | .capture _ body => body.captureCount + 1
  | .sequence first second => first.captureCount + second.captureCount
  | .choice first second => first.captureCount + second.captureCount
  | .repeated _ _ _ body => body.captureCount
  | .empty | .char _ | .look _ => 0

/-- Read a pattern. -/
def Pattern.ofText? (text : String) : Option Pattern :=
  let reading : Reading := { rest := text.toList, flags := {}, groups := 0, names := [] }
  match (readNode (text.length + 1) [] []).run reading with
  | some (node, reading) =>
      if reading.rest.isEmpty then some { node := node, groups := node.captureCount } else none
  | none => none

end TemplateBundle.Regex

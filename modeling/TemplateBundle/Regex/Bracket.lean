import TemplateBundle.Regex.Escape

/-!
# Sets in brackets

Between brackets stand characters, ranges, named sets and sets in further brackets. The operators
`&&` (members of both), `--` (of the first only) and `~~` (of exactly one) bind equally, from left
to right, and looser than standing side by side.
-/

namespace TemplateBundle.Regex

/-- An operator between sets. -/
inductive SetOperator where
  | both
  | firstOnly
  | exactlyOne
  deriving DecidableEq, Repr

/-- The set that an operator makes of two. -/
def SetOperator.apply : SetOperator → CharSet → CharSet → CharSet
  | .both, left, right => .intersection left right
  | .firstOnly, left, right => .difference left right
  | .exactlyOne, left, right => .symmetricDifference left right

/-- The sets of ASCII that have a name between `[:` and `:]`. -/
def asciiClass? : String → Option CharSet
  | "alnum" => some (.unions [.range '0' '9', .range 'A' 'Z', .range 'a' 'z'])
  | "alpha" => some (.union (.range 'A' 'Z') (.range 'a' 'z'))
  | "ascii" => some .ascii
  | "blank" => some (.union (.single '\t') (.single ' '))
  | "cntrl" => some (.union (.range '\x00' '\x1f') (.single '\x7f'))
  | "digit" => some (.range '0' '9')
  | "graph" => some (.range '!' '~')
  | "lower" => some (.range 'a' 'z')
  | "print" => some (.range ' ' '~')
  | "punct" => some (.unions [.range '!' '/', .range ':' '@', .range '[' '\x60', .range '\x7b' '~'])
  | "space" => some (.union (.range '\t' '\r') (.single ' '))
  | "upper" => some (.range 'A' 'Z')
  | "word" => some (.unions [.range '0' '9', .range 'A' 'Z', .range 'a' 'z', .single '_'])
  | "xdigit" => some (.unions [.range '0' '9', .range 'A' 'F', .range 'a' 'f'])
  | _ => none

/-- The named set of ASCII at the front of a text, with the text behind it. -/
def asciiClassAt? : List Char → Option (Bool × CharSet × List Char)
  | '[' :: ':' :: rest =>
      let (negated, rest) := match rest with
        | '^' :: rest => (true, rest)
        | _ => (false, rest)
      match splitAt? [':'] rest with
      | some (name, ']' :: rest) =>
          (asciiClass? (String.ofList name)).map fun members => (negated, members, rest)
      | _ => none
  | _ => none

/-- Take off a named set of ASCII, if one comes next. -/
def readAsciiClass? : Read (Option CharSet) := do
  match asciiClassAt? (← Read.rest) with
  | none => pure none
  | some (negated, members, rest) =>
      Read.continueWith rest
      let flags ← Read.flags
      let members := CharSet.withVariants flags members
      if negated then return some (← CharSet.without flags members)
      else pure (some members)

/-- One character, escape or named set between brackets. -/
def readMember : Read Atom := do
  let c ← Read.peek
  Read.advance
  if c = '\\' then readEscape else pure (.literal c)

/-- A character that may stand in brackets under the flags. -/
def bracketChar (c : Char) : Read Char := do
  if (← Read.flags).unicode || c.toNat < 0x80 then pure c else failure

/-- The next character behind the one that comes next and what may be skipped. -/
def peekSecond? : Read (Option Char) := do
  let before ← get
  Read.step
  let c ← Read.peek?
  set before
  pure c

/-- A member, or a range from one character to another. -/
def readRange : Read CharSet := do
  let first ← readMember
  Read.skip
  let c ← Read.peek
  let second ← peekSecond?
  if c ≠ '-' ∨ second = some ']' ∨ second = some '-' then
    match first with
    | .literal c => return .single (← bracketChar c)
    | .set members => pure members
    | .look _ => failure
  else
    Read.step
    let _ ← Read.peek
    let last ← readMember
    match first, last with
    | .literal first, .literal last =>
        if first ≤ last then return .range (← bracketChar first) (← bracketChar last)
        else failure
    | _, _ => failure

/-- Hyphens at the start of a set stand for themselves. -/
def readLeadingHyphens : Nat → Read (List CharSet)
  | 0 => pure []
  | bound + 1 => do
      if (← Read.peek) = '-' then
        Read.step
        return .single '-' :: (← readLeadingHyphens bound)
      else pure []

/-- The opening bracket with what belongs to it: whether the set is the complement, and the
hyphens or the bracket that stand for themselves as the first members. -/
def readOpening : Read (Bool × List CharSet) := do
  Read.step
  let negated := (← Read.peek) = '^'
  if negated then Read.step
  let hyphens ← readLeadingHyphens (← Read.rest).length
  if hyphens.isEmpty && (← Read.peek) = ']' then
    Read.step
    pure (negated, [.single ']'])
  else pure (negated, hyphens)

/-- The operator that comes next. -/
def operatorAt? : List Char → Option SetOperator
  | '&' :: '&' :: _ => some .both
  | '-' :: '-' :: _ => some .firstOnly
  | '~' :: '~' :: _ => some .exactlyOne
  | _ => none

/-- Join the members behind the last operator to what stands before it. -/
def joinOperand (flags : Flags) (before : Option (CharSet × SetOperator)) (members : CharSet) :
    CharSet :=
  match before with
  | none => members
  | some (left, operator) =>
      operator.apply (CharSet.withVariants flags left) (CharSet.withVariants flags members)

/-- The members of a set up to its closing bracket. The bound is on the members of this set and
of all sets in it. -/
def readMembers : Nat → Bool → Option (CharSet × SetOperator) → CharSet → Read CharSet
  | 0, _, _, _ => failure
  | bound + 1, negated, before, members => do
      Read.skip
      let flags ← Read.flags
      let remaining ← Read.rest
      match remaining with
      | ']' :: _ =>
          Read.advance
          let members := CharSet.withVariants flags (joinOperand flags before members)
          if negated then CharSet.without flags members else pure members
      | '[' :: _ =>
          match ← readAsciiClass? with
          | some named => readMembers bound negated before (.union members named)
          | none =>
              let (innerNegated, first) ← readOpening
              let inner ← readMembers bound innerNegated none (.unions first)
              readMembers bound negated before (.union members inner)
      | _ =>
          match operatorAt? remaining with
          | some operator =>
              Read.continueWith (remaining.drop 2)
              readMembers bound negated (some (joinOperand flags before members, operator)) .empty
          | none => readMembers bound negated before (.union members (← readRange))

/-- A set in brackets. -/
def readBracket : Read CharSet := do
  let bound := (← Read.rest).length
  let (negated, first) ← readOpening
  readMembers bound negated none (.unions first)

end TemplateBundle.Regex

import TemplateBundle.Text.CodePoints
import TemplateBundle.Yaml.Token

/-!
# Reading scalars

The text of plain, quoted and block scalars. A single line end in a plain or quoted scalar
stands for a space, and further ones stand for themselves.
-/

namespace TemplateBundle.Yaml

/-- Blanks and line ends between two words of a scalar, each with the last one first. `lead` is
the first line end; it is empty if the line end was escaped. -/
structure Gap where
  blanks : List Char := []
  lead : Option (List Char) := none
  others : List Char := []
  deriving Repr, Inhabited

namespace Gap

/-- A line has ended in the gap. -/
def hasBreak (gap : Gap) : Bool :=
  gap.lead.isSome

/-- The gap with a blank. Blanks behind a line end do not count. -/
def blank (gap : Gap) (c : Char) : Gap :=
  if gap.hasBreak then gap else { gap with blanks := c :: gap.blanks }

/-- The gap with a line end. -/
def lineEnd (gap : Gap) (c : Char) : Gap :=
  if gap.hasBreak then { gap with others := breakChar c :: gap.others }
  else { gap with blanks := [], lead := some [breakChar c] }

/-- What the gap stands for, with the last character first. -/
def folded (gap : Gap) : List Char :=
  match gap.lead with
  | none => gap.blanks
  | some ['\n'] => if gap.others.isEmpty then [' '] else gap.others
  | some lead => gap.others ++ lead

end Gap

/-- A scalar that was read: its text, and the place behind it. -/
structure ScalarText where
  text : List Char
  after : Place
  /-- The scalar is followed by a line end. -/
  brokenOff : Bool := false
  deriving Repr, Inhabited

/-! ## Plain scalars -/

/-- Signs that end a plain scalar between brackets. -/
def isFlowSign (c : Char) : Bool :=
  c == ',' || c == '[' || c == ']' || c == '\x7b' || c == '\x7d'

/-- A colon that is not allowed in a plain scalar between brackets. -/
def isMisplacedColon (c : Char) (rest : List Char) : Bool :=
  c == ':' && (match rest.head? with
    | some next => isFlowSign next || next == '?'
    | none => false)

/-- The rest of a plain scalar. `inGap` says that blanks were read last; `indent` is the column
from which on the lines of the scalar start. -/
def plainRest (inFlow : Bool) (indent : Nat) :
    Bool → List Char → Mark → List Char → Gap → Option ScalarText
  | _, [], mark, text, gap =>
      some { text := text.reverse, after := ⟨[], mark⟩, brokenOff := gap.hasBreak }
  | _, '\r' :: '\n' :: rest, mark, text, gap =>
      plainRest inFlow indent true rest (mark.nextLine 2) text (gap.lineEnd '\n')
  | inGap, c :: rest, mark, text, gap =>
      let stop := some
        { text := text.reverse, after := ⟨c :: rest, mark⟩, brokenOff := gap.hasBreak }
      if isBlank c then
        if gap.hasBreak && mark.column < indent && c == '\t' then none
        else plainRest inFlow indent true rest mark.next text (gap.blank c)
      else if isBreak c then
        plainRest inFlow indent true rest (mark.nextLine 1) text (gap.lineEnd c)
      else if inGap && ((!inFlow && mark.column < indent) ||
          atDocumentBound ⟨c :: rest, mark⟩ || c == '#') then stop
      else if inFlow && isMisplacedColon c rest then none
      else if (c == ':' && endsWord rest) || (inFlow && isFlowSign c) then stop
      else plainRest inFlow indent false rest mark.next (c :: (gap.folded ++ text)) {}

/-- A plain scalar. -/
def plainScalar (inFlow : Bool) (indent : Nat) (place : Place) : Option ScalarText :=
  plainRest inFlow indent false place.rest place.mark [] {}

/-! ## Quoted scalars -/

/-- The escapes of one letter. -/
def letterEscape? : Char → Option Char
  | '0' => some '\x00'
  | 'a' => some '\x07'
  | 'b' => some '\x08'
  | 't' => some '\t'
  | '\t' => some '\t'
  | 'n' => some '\n'
  | 'v' => some '\x0b'
  | 'f' => some '\x0c'
  | 'r' => some '\r'
  | 'e' => some '\x1b'
  | ' ' => some ' '
  | '"' => some '"'
  | '/' => some '/'
  | '\\' => some '\\'
  | 'N' => some '\u0085'
  | '_' => some '\u00a0'
  | 'L' => some '\u2028'
  | 'P' => some '\u2029'
  | _ => none

/-- How many digits follow the letter of an escape by code. -/
def escapeDigits? : Char → Option Nat
  | 'x' => some 2
  | 'u' => some 4
  | 'U' => some 8
  | _ => none

/-- The character that an escape behind a backslash stands for, and how long the escape is. -/
def escaped? (rest : List Char) : Option (Char × Nat) :=
  match rest with
  | [] => none
  | letter :: behind =>
      match letterEscape? letter, escapeDigits? letter with
      | some c, _ => some (c, 1)
      | none, some count =>
          let digits := behind.take count
          let code := Text.hexNumber digits
          if digits.length = count ∧ digits.all (fun c => (Text.hexValue? c).isSome) ∧
              code.isValidChar then
            some (Char.ofNat code, count + 1)
          else none
      | none, none => none

/-- The rest of a quoted scalar. The bound is on the number of characters. -/
def quotedRest (quote : Char) :
    Nat → Bool → Place → List Char → Gap → Option ScalarText
  | 0, _, _, _, _ => none
  | bound + 1, inGap, place, text, gap =>
      match place.rest with
      | [] => none
      | '\r' :: '\n' :: rest =>
          quotedRest quote bound true ⟨rest, place.mark.nextLine 2⟩ text (gap.lineEnd '\n')
      | c :: rest =>
          if isBlank c then
            quotedRest quote bound true (place.forward 1) text (gap.blank c)
          else if isBreak c then
            quotedRest quote bound true ⟨rest, place.mark.nextLine 1⟩ text (gap.lineEnd c)
          else if inGap && atDocumentBound place then none
          else
            let text := gap.folded ++ text
            if c = quote then
              if quote = '\'' ∧ rest.head? = some '\'' then
                quotedRest quote bound false (place.forward 2) ('\'' :: text) {}
              else some { text := text.reverse, after := place.forward 1 }
            else if quote = '"' ∧ c = '\\' then
              match rest with
              | '\r' :: '\n' :: behind =>
                  quotedRest quote bound true ⟨behind, place.mark.next.nextLine 2⟩ text
                    { lead := some [] }
              | next :: behind =>
                  if isBreak next then
                    quotedRest quote bound true ⟨behind, place.mark.next.nextLine 1⟩ text
                      { lead := some [] }
                  else
                    match escaped? rest with
                    | some (c, length) =>
                        quotedRest quote bound false (place.forward (length + 1)) (c :: text) {}
                    | none => none
              | [] => none
            else quotedRest quote bound false (place.forward 1) (c :: text) {}

/-- A quoted scalar, from its opening quote on. -/
def quotedScalar (place : Place) : Option ScalarText :=
  match place.rest with
  | quote :: rest => quotedRest quote (rest.length + 1) false (place.forward 1) [] {}
  | [] => none

/-! ## Block scalars -/

/-- What happens to the line ends at the end of a block. -/
inductive Chomping where
  | strip
  | clip
  | keep
  deriving DecidableEq, Repr

/-- What the head of a block says: its chomping, and by how much it is indented. -/
structure BlockHead where
  chomping : Chomping := .clip
  increment : Option Nat := none
  deriving Repr

/-- The sign for chomping. -/
def chomping? : Char → Option Chomping
  | '+' => some .keep
  | '-' => some .strip
  | _ => none

/-- The digit for the indentation, which is not zero. -/
def increment? (c : Char) : Option Nat :=
  if c.isDigit then some (c.toNat - '0'.toNat) else none

/-- The signs at the head of a block, in either order, and how many there are. -/
def blockHead? (rest : List Char) : Option (BlockHead × Nat) :=
  let checked := fun (head : BlockHead) (count : Nat) =>
    if head.increment = some 0 then none else some (head, count)
  match rest with
  | first :: second :: _ =>
      match chomping? first, increment? first with
      | some chomping, _ =>
          match increment? second with
          | some increment => checked { chomping := chomping, increment := some increment } 2
          | none => checked { chomping := chomping } 1
      | none, some increment =>
          match chomping? second with
          | some chomping => checked { chomping := chomping, increment := some increment } 2
          | none => checked { increment := some increment } 1
      | none, none => some ({}, 0)
  | [first] =>
      match chomping? first, increment? first with
      | some chomping, _ => checked { chomping := chomping } 1
      | none, some increment => checked { increment := some increment } 1
      | none, none => some ({}, 0)
  | [] => some ({}, 0)

/-- The place behind a line end, with the character that stands for it. -/
def lineEnd? (place : Place) : Option (Char × Place) :=
  match place.rest with
  | '\r' :: '\n' :: rest => some ('\n', ⟨rest, place.mark.nextLine 2⟩)
  | c :: rest => if isBreak c then some (breakChar c, ⟨rest, place.mark.nextLine 1⟩) else none
  | [] => none

/-- Indentation and empty lines before a line of a block: the place behind them, the widest
indentation, and the line ends with the last one first. An unknown indentation is zero. -/
def blockGap (indent : Nat) :
    Nat → Place → Nat → List Char → Option (Place × Nat × List Char)
  | 0, _, _, _ => none
  | bound + 1, place, widest, breaks =>
      let inside := indent = 0 ∨ place.mark.column < indent
      if inside ∧ place.rest.head? = some ' ' then
        blockGap indent bound (place.forward 1) widest breaks
      else if inside ∧ place.rest.head? = some '\t' then none
      else
        let widest := max widest place.mark.column
        match lineEnd? place with
        | some (c, behind) => blockGap indent bound behind widest (c :: breaks)
        | none => some (place, widest, breaks)

/-- Lines of a block, all indented by the same width. The parts that were read come with their
last character first: the text, the line end behind the last line, and the empty lines behind
it. -/
def blockLines (isLiteral : Bool) (indent : Nat) :
    Nat → Place → Bool → List Char → List Char → List Char →
      Option (Place × List Char × List Char × List Char)
  | 0, _, _, _, _, _ => none
  | bound + 1, place, afterBlank, text, lead, breaks =>
      if place.mark.column ≠ indent ∨ place.rest.isEmpty then some (place, text, lead, breaks)
      else
        let startsBlank := place.rest.head?.any isBlank
        let joint :=
          if !isLiteral && lead == ['\n'] && !afterBlank && !startsBlank then
            if breaks.isEmpty then [' '] else breaks
          else breaks ++ lead
        let line := place.rest.takeWhile fun c => !isBreak c
        let text := line.reverse ++ (joint ++ text)
        let place := place.forward line.length
        let (lead, place) := match lineEnd? place with
          | some (c, behind) => ([c], behind)
          | none => ([], place)
        match blockGap indent (place.rest.length + 1) place 0 [] with
        | some (place, _, breaks) =>
            blockLines isLiteral indent bound place startsBlank text lead breaks
        | none => none

/-- Pass over blanks, a comment and the line end behind the head of a block. -/
def endOfLine? (place : Place) : Option Place :=
  let blanks := place.rest.takeWhile isBlank
  let place := place.forward blanks.length
  let comment :=
    if place.rest.head? = some '#' then place.rest.takeWhile fun c => !isBreak c else []
  let place := place.forward comment.length
  match place.rest with
  | [] => some place
  | _ => (lineEnd? place).map Prod.snd

/-- A block scalar, from its sign on. `parent` is the indentation of what it stands in. -/
def blockScalar (isLiteral : Bool) (parent : Int) (place : Place) : Option ScalarText := do
  let place := place.forward 1
  let (head, signs) ← blockHead? place.rest
  let place ← endOfLine? (place.forward signs)
  let given := match head.increment with
    | some increment => (if 0 ≤ parent then parent.toNat else 0) + increment
    | none => 0
  let (place, widest, breaks) ← blockGap given (place.rest.length + 1) place 0 []
  let indent := if given = 0 then max widest (max (parent + 1).toNat 1) else given
  let (place, text, lead, breaks) ←
    blockLines isLiteral indent (place.rest.length + 1) place false [] [] breaks
  let text := match head.chomping with
    | .strip => text
    | .clip => lead ++ text
    | .keep => breaks ++ (lead ++ text)
  return { text := text.reverse, after := place }

end TemplateBundle.Yaml

/-!
# Tokens of structured text

The signs of a text that describes nested lists and mappings by indentation or by brackets, and
the characters that play a part in it.
-/

namespace TemplateBundle.Yaml

/-- A place in the text: how many characters stand before it, its line and its column. -/
structure Mark where
  index : Nat
  line : Nat
  column : Nat
  deriving DecidableEq, Repr, Inhabited

/-- The text from a place on. -/
structure Place where
  rest : List Char
  mark : Mark
  deriving Repr, Inhabited

/-- How a scalar is written. -/
inductive ScalarStyle where
  | plain
  | quoted
  /-- As a block whose line breaks are kept. -/
  | literal
  /-- As a block whose line breaks are folded. -/
  | folded
  deriving DecidableEq, Repr, Inhabited

/-- A token. -/
inductive Token where
  | streamEnd
  | version (supported : Bool)
  | tagShorthand (handle leading : String)
  | documentStart
  | documentEnd
  | blockSequenceStart
  | blockMappingStart
  | blockEnd
  | flowSequenceStart
  | flowSequenceEnd
  | flowMappingStart
  | flowMappingEnd
  | blockItem
  | flowItem
  | key
  | value
  | alias (name : String)
  | anchor (name : String)
  | tag (handle suffix : String)
  | scalar (text : String) (style : ScalarStyle)
  deriving DecidableEq, Repr, Inhabited

/-- The character ends a line. -/
def isBreak (c : Char) : Bool :=
  c == '\n' || c == '\r' || c == '\u0085' || c == '\u2028' || c == '\u2029'

/-- The character is a space or a tab. -/
def isBlank (c : Char) : Bool :=
  c == ' ' || c == '\t'

/-- A blank, a line end or the end of the text comes next. -/
def endsWord : List Char → Bool
  | [] => true
  | c :: _ => isBlank c || isBreak c

/-- A line end as it counts in a scalar: the usual ones are all alike. -/
def breakChar (c : Char) : Char :=
  if c == '\u2028' || c == '\u2029' then c else '\n'

/-- The character may stand in the text at all. -/
def isAllowed (c : Char) : Bool :=
  c == '\t' || c == '\n' || c == '\r' || c == '\u0085' || (' ' ≤ c && c ≤ '~') ||
    ('\u00a0' ≤ c && c != '\ufffe' && c != '\uffff')

/-- The character may stand in the name of an anchor. -/
def isNameChar (c : Char) : Bool :=
  c.isAlphanum || c == '_' || c == '-'

/-- The mark behind a character of a line. -/
def Mark.next (mark : Mark) : Mark :=
  { mark with index := mark.index + 1, column := mark.column + 1 }

/-- The mark behind a line end of the given number of characters. -/
def Mark.nextLine (mark : Mark) (count : Nat) : Mark :=
  { index := mark.index + count, line := mark.line + 1, column := 0 }

/-- The mark behind some characters of a line. -/
def Mark.forward (mark : Mark) (count : Nat) : Mark :=
  { mark with index := mark.index + count, column := mark.column + count }

/-- Pass over some characters of a line. -/
def Place.forward (place : Place) (count : Nat) : Place :=
  { rest := place.rest.drop count, mark := place.mark.forward count }

/-- A sign of document bounds comes next at the start of a line. -/
def atDocumentBound (place : Place) : Bool :=
  place.mark.column == 0 &&
    ((['-', '-', '-'].isPrefixOf place.rest || ['.', '.', '.'].isPrefixOf place.rest) &&
      endsWord (place.rest.drop 3))

end TemplateBundle.Yaml

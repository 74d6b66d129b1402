import TemplateBundle.Data
import TemplateBundle.Yaml.Value

/-!
# Writing structured text

Data written as blocks, with scalars as plain as they can be so that they read back as the texts
they are. A text of several lines becomes a block that keeps its lines.
-/

namespace TemplateBundle.Yaml

/-- How a text is written. -/
inductive WrittenStyle where
  | plain
  | single
  | double
  | literal
  deriving DecidableEq, Repr

namespace Printer

/-- The character can be written as it is. -/
def isPrintable (c : Char) : Bool :=
  c == '\n' || (' ' ≤ c && c ≤ '~') ||
    ('\u00a0' ≤ c && c < '\ufffe' && c != '\ufeff')

/-- There are two characters in a row with these properties. -/
def hasPair (first second : Char → Bool) : List Char → Bool
  | a :: b :: rest => (first a && second b) || hasPair first second (b :: rest)
  | _ => false

/-- The first or the last character has the property. -/
def bordersOn (property : Char → Bool) (text : List Char) : Bool :=
  text.head?.any property || text.getLast?.any property

/-- The text starts with a character that has another meaning there. -/
def startsOddly (text : List Char) : Bool :=
  match text with
  | [] => false
  | c :: rest =>
      ['#', ',', '[', ']', '\x7b', '\x7d', '&', '*', '!', '|', '>', '\'', '"', '%', '@',
        '\x60'].contains c || ((c == '?' || c == '-') && endsWord rest)

/-- The text starts like a bound of a document. -/
def startsLikeBound (text : List Char) : Bool :=
  ['-', '-', '-'].isPrefixOf text || ['.', '.', '.'].isPrefixOf text

/-- The text holds a colon that would end it or a sign that would start a comment. -/
def isCutShort (text : List Char) : Bool :=
  hasPair (· == ':') (fun c => isBlank c || isBreak c) text || text.getLast? == some ':' ||
    hasPair (fun c => isBlank c || isBreak c) (· == '#') text

/-- A line of the text ends with a space. -/
def hasSpaceBeforeBreak : List Char → Bool :=
  hasPair (· == ' ') isBreak

/-- The text can be plain. -/
def canBePlain (text : List Char) : Bool :=
  text.all isPrintable && !text.any isBreak && !bordersOn (· == ' ') text &&
    !startsOddly text && !startsLikeBound text && !isCutShort text

/-- The text can stand in single quotes. -/
def canBeSingle (text : List Char) : Bool :=
  text.all isPrintable && !hasSpaceBeforeBreak text && !hasPair isBreak (· == ' ') text

/-- The text can be a block. -/
def canBeLiteral (text : List Char) : Bool :=
  text.all isPrintable && !hasSpaceBeforeBreak text && text.getLast? != some ' '

/-- The style in which a text is written. -/
def styleOf (text : String) : WrittenStyle :=
  let chars := text.toList
  if chars.contains '\n' then if canBeLiteral chars then .literal else .double
  else if !Value.needsQuotes text && canBePlain chars then .plain
  else if canBeSingle chars then .single
  else .double

/-- Spaces in front of a line. -/
def indentation (indent : Nat) : List Char :=
  List.replicate indent ' '

/-- A text in lines: each one, apart from empty ones, starts with an indentation. The flag says
that a line starts here. -/
def indentLines (indent : Nat) : Bool → List Char → List Char
  | _, [] => []
  | atStart, c :: rest =>
      if isBreak c then c :: indentLines indent true rest
      else if atStart then indentation indent ++ c :: indentLines indent false rest
      else c :: indentLines indent false rest

/-- The text in single quotes. A quote in it is doubled. -/
def single (indent : Nat) (text : List Char) : List Char :=
  let doubled := text.flatMap fun c => if c = '\'' then ['\'', '\''] else [c]
  '\'' :: indentLines indent false (doubled) ++
    (if text.getLast?.any isBreak then indentation indent else []) ++ ['\'']

/-- Upper-case hexadecimal digits of a number, filled up to a width. -/
def hexDigits (width number : Nat) : List Char :=
  let digits := (Nat.toDigits 16 number).map Char.toUpper
  List.replicate (width - digits.length) '0' ++ digits

/-- The letter of the short escape for a character. -/
def escapeLetter? (c : Char) : Option Char :=
  match c with
  | '\x00' => some '0'
  | '\x07' => some 'a'
  | '\x08' => some 'b'
  | '\t' => some 't'
  | '\n' => some 'n'
  | '\x0b' => some 'v'
  | '\x0c' => some 'f'
  | '\r' => some 'r'
  | '\x1b' => some 'e'
  | '"' => some '"'
  | '\\' => some '\\'
  | '\u0085' => some 'N'
  | '\u2028' => some 'L'
  | '\u2029' => some 'P'
  | _ => none

/-- A character in double quotes. -/
def escaped (c : Char) : List Char :=
  if isPrintable c && !isBreak c && c != '"' && c != '\\' then [c]
  else
    match escapeLetter? c with
    | some letter => ['\\', letter]
    | none =>
        if c.toNat ≤ 0xff then '\\' :: 'x' :: hexDigits 2 c.toNat
        else if c.toNat ≤ 0xffff then '\\' :: 'u' :: hexDigits 4 c.toNat
        else '\\' :: 'U' :: hexDigits 8 c.toNat

/-- The signs at the head of a block: its indentation, if its first line does not show it, and
what becomes of the line ends at its end. -/
def blockSigns (text : List Char) : List Char :=
  let showsIndent := !(text.head?.any fun c => c == ' ' || isBreak c)
  let chomping := match text.reverse with
    | [] => ['-']
    | last :: before =>
        if !isBreak last then ['-']
        else if before.head?.all isBreak then ['+']
        else []
  '|' :: (if showsIndent then [] else ['2']) ++ chomping

/-- The text as a scalar in a block with an indentation, up to the end of its last line. -/
def scalar (indent : Nat) (text : String) : String :=
  let chars := text.toList
  let written := match styleOf text with
    | .plain => chars ++ ['\n']
    | .single => single (indent + 2) chars ++ ['\n']
    | .double => '"' :: chars.flatMap escaped ++ ['"', '\n']
    | .literal =>
        blockSigns chars ++ '\n' :: indentLines (indent + 2) true chars ++
          (if chars.getLast?.any isBreak then [] else ['\n'])
  String.ofList written

/-- The first entry as it is, and the others behind an indentation. -/
def hanging (indent : Nat) : List String → String
  | [] => ""
  | first :: others =>
      first ++ String.join (others.map fun entry => String.ofList (indentation indent) ++ entry)

mutual

/-- Data that stand behind a key or a hyphen in a block with an indentation. Behind a hyphen
further entries start on the same line. -/
def behind (indent : Nat) (afterHyphen : Bool) : Data → String
  | .text value => " " ++ scalar indent value
  | .truth value => if value then " true\n" else " false\n"
  | .number value => " " ++ toString value ++ "\n"
  | .list [] => " []\n"
  | .list (item :: others) =>
      let indent := if afterHyphen then indent + 2 else indent
      let entries := itemEntries indent (item :: others)
      if afterHyphen then " " ++ hanging indent entries
      else "\n" ++ String.ofList (indentation indent) ++ hanging indent entries
  | .record [] => " \x7b\x7d\n"
  | .record (field :: others) =>
      let indent := indent + 2
      let entries := fieldEntries indent (field :: others)
      if afterHyphen then " " ++ hanging indent entries
      else "\n" ++ String.ofList (indentation indent) ++ hanging indent entries

/-- The items of a list. -/
def itemEntries (indent : Nat) : List Data → List String
  | [] => []
  | item :: others => ("-" ++ behind indent true item) :: itemEntries indent others

/-- The fields of a record. -/
def fieldEntries (indent : Nat) : List (String × Data) → List String
  | [] => []
  | (name, value) :: others => (name ++ ":" ++ behind indent false value) ::
      fieldEntries indent others

end

end Printer

/-- The data as text. -/
def print : Data → String
  | .record (field :: others) =>
      Printer.hanging 0 (Printer.fieldEntries 0 (field :: others))
  | data => Printer.behind 0 false data

end TemplateBundle.Yaml

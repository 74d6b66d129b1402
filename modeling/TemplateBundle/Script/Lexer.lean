import TemplateBundle.Script.Token
import TemplateBundle.Text.Replace

/-!
# Reading tokens

`lex` reads the token that comes next at a place. What looks like a division may be a regular
expression, and a closing brace may go on with a template: the grammar decides, and then reads on
from the place where the token started or ended.
-/

namespace TemplateBundle.Script

/-! ## Between tokens -/

/-- What stands between two tokens. -/
inductive Gap where
  | blank
  | lineComment
  /-- A comment that started on the given line. -/
  | blockComment (start : Nat)
  deriving DecidableEq, Repr

/-- Pass over blanks and comments. `newline` says whether a line has ended so far. The signs of
markup comments start comments to the end of the line, the closing one at the start of a line
only. -/
def skipGap : Gap → List Char → Nat → Bool → Scan (Place × Bool)
  | .blockComment start, [], _, _ => .error start
  | .blockComment _, '*' :: '/' :: rest, line, newline => skipGap .blank rest line newline
  | .blockComment start, c :: rest, line, newline =>
      skipGap (.blockComment start) rest (lineBehind c line) (newline || isLineEnd c)
  | _, [], line, newline => .ok (⟨[], line⟩, newline)
  | .lineComment, c :: rest, line, newline =>
      if isLineEnd c then skipGap .blank rest (lineBehind c line) true
      else skipGap .lineComment rest line newline
  | .blank, '/' :: '/' :: rest, line, newline => skipGap .lineComment rest line newline
  | .blank, '/' :: '*' :: rest, line, newline => skipGap (.blockComment line) rest line newline
  | .blank, '<' :: '!' :: '-' :: '-' :: rest, line, newline =>
      skipGap .lineComment rest line newline
  | .blank, c :: rest, line, newline =>
      if isLineEnd c then skipGap .blank rest (lineBehind c line) true
      else if isBlank c then skipGap .blank rest line newline
      else if newline && ['-', '-', '>'].isPrefixOf (c :: rest) then
        skipGap .lineComment rest line newline
      else .ok (⟨c :: rest, line⟩, newline)

/-! ## Escapes -/

/-- The number that exactly `count` hexadecimal digits write, and the text behind them. -/
def hexDigits? : Nat → Nat → List Char → Option (Nat × List Char)
  | 0, value, rest => some (value, rest)
  | count + 1, value, c :: rest =>
      match Text.hexValue? c with
      | some digit => hexDigits? count (16 * value + digit) rest
      | none => none
  | _ + 1, _, [] => none

/-- The greatest code of a character. -/
def greatestCode : Nat := 0x10FFFF

/-- The number between braces, behind the opening one. -/
def bracedHex? : Bool → Nat → List Char → Option (Nat × List Char)
  | _, _, [] => none
  | any, value, c :: rest =>
      if c = '\x7d' then if any then some (value, rest) else none
      else
        match Text.hexValue? c with
        | some digit =>
            let value := 16 * value + digit
            if value ≤ greatestCode then bracedHex? true value rest else none
        | none => none

/-- The code that follows `\u`. -/
def unicodeEscape? : List Char → Option (Nat × List Char)
  | '\x7b' :: rest => bracedHex? false 0 rest
  | rest => hexDigits? 4 0 rest

/-- What an escape is. -/
inductive Escape where
  /-- An escape that all code may use, or a line end, which is left out. -/
  | plain (rest : List Char)
  /-- An escape by digits, which strict code and templates refuse. -/
  | legacy (rest : List Char)
  | invalid
  deriving Repr

/-- The digits that may go on with an octal escape. -/
def isOctal (c : Char) : Bool :=
  '0' ≤ c && c ≤ '7'

/-- The escape behind a backslash. A line end behind the backslash is left to the text, so that
its line is counted there. -/
def escapeAt : List Char → Escape
  | [] => .invalid
  | 'x' :: rest =>
      match hexDigits? 2 0 rest with
      | some (_, rest) => .plain rest
      | none => .invalid
  | 'u' :: rest =>
      match unicodeEscape? rest with
      | some (_, rest) => .plain rest
      | none => .invalid
  | c :: rest =>
      if c = '0' then
        match rest.head? with
        | some digit => if digit.isDigit then .legacy rest else .plain rest
        | none => .plain rest
      else if c.isDigit then .legacy rest
      else .plain rest

/-- The text behind the line end at the front, if there is one, and how many lines it counts. -/
def lineEnd? : List Char → Option (Nat × List Char)
  | '\r' :: '\n' :: rest => some (1, rest)
  | '\n' :: rest => some (1, rest)
  | c :: rest => if isLineEnd c then some (0, rest) else none
  | [] => none

/-! ## Strings and templates -/

/-- The rest of a string literal up to its quote. The bound is on the number of characters. -/
def stringBody (quote : Char) (start : Nat) : Nat → List Char → Nat → Bool → List Char →
    Scan (Token × Place)
  | 0, _, _, _, _ => .error start
  | bound + 1, text, line, legacy, written =>
      match text with
      | [] => .error start
      | '\\' :: rest =>
          match lineEnd? rest with
          | some (lines, behind) =>
              stringBody quote start bound behind (line + lines) legacy ('\\' :: written)
          | none =>
              match escapeAt rest with
              | .plain behind => stringBody quote start bound behind line legacy ('\\' :: written)
              | .legacy behind => stringBody quote start bound behind line true ('\\' :: written)
              | .invalid => .error line
      | c :: rest =>
          if c = quote then .ok (.string written.reverse legacy, ⟨rest, line⟩)
          else if c = '\n' ∨ c = '\r' then .error start
          else stringBody quote start bound rest (lineBehind c line) legacy (c :: written)

/-- How a stretch of template text ends. -/
structure TemplateText where
  /-- A substitution follows; otherwise the template is over. -/
  opens : Bool
  /-- The line of the first escape that only tagged templates may hold. -/
  fault : Option Nat
  after : Place
  deriving Repr

/-- A stretch of template text up to a substitution or the end of the template. The bound is on
the number of characters. -/
def templateText : Nat → List Char → Nat → Option Nat → Scan TemplateText
  | 0, _, line, _ => .error line
  | bound + 1, text, line, fault =>
      match text with
      | [] => .error line
      | '\x60' :: rest => .ok { opens := false, fault := fault, after := ⟨rest, line⟩ }
      | '$' :: '\x7b' :: rest => .ok { opens := true, fault := fault, after := ⟨rest, line⟩ }
      | '\\' :: c :: rest =>
          match escapeAt (c :: rest) with
          | .plain behind =>
              if isLineEnd c then templateText bound rest (lineBehind c line) fault
              else templateText bound behind line fault
          | .legacy behind => templateText bound behind line (fault <|> some line)
          | .invalid => templateText bound rest line (fault <|> some line)
      | c :: rest => templateText bound rest (lineBehind c line) fault

/-! ## Numbers -/

/-- Digits with single underscores between them. `before` says whether a digit stands directly
before the text. -/
def digitRun (isDigit : Char → Bool) : Bool → List Char → Option (Bool × List Char)
  | before, [] => if before then some (true, []) else some (false, [])
  | before, c :: rest =>
      if isDigit c then (digitRun isDigit true rest).map fun (_, behind) => (true, behind)
      else if c = '_' then
        match rest.head? with
        | some next =>
            if before && isDigit next then
              (digitRun isDigit false rest).map fun (_, behind) => (true, behind)
            else none
        | none => none
      else some (before, c :: rest)

/-- Nothing that goes on with a name or a number may follow a number. -/
def endsNumber (rest : List Char) : Bool :=
  match rest with
  | [] => true
  | c :: _ => !(startsName c || c.isDigit || c == '\\')

/-- Pass over the letter that marks big integers. -/
def dropBigMark (rest : List Char) : List Char :=
  match rest with
  | 'n' :: rest => rest
  | _ => rest

/-- The exponent of a number, if there is one. -/
def exponent? (rest : List Char) : Option (List Char) :=
  match rest with
  | c :: behind =>
      if c = 'e' ∨ c = 'E' then
        let digits := match behind with
          | '+' :: digits => digits
          | '-' :: digits => digits
          | _ => behind
        match digitRun Char.isDigit false digits with
        | some (true, behind) => some behind
        | _ => none
      else some rest
  | [] => some rest

/-- The fraction and the exponent of a number. -/
def fraction? (rest : List Char) : Option (List Char) :=
  match rest with
  | '.' :: behind =>
      match digitRun Char.isDigit false behind with
      | some (_, behind) => exponent? behind
      | none => none
  | _ => exponent? rest

/-- A number in another base, behind its letter. -/
def basedNumber? (isDigit : Char → Bool) (rest : List Char) : Option (List Char) :=
  match digitRun isDigit false rest with
  | some (true, behind) => some (dropBigMark behind)
  | _ => none

/-- A number that starts with a digit: whether it is one of the legacy forms, and the text behind
it. -/
def number? (text : List Char) : Option (Bool × List Char) :=
  match text with
  | '0' :: rest =>
      match rest with
      | [] => some (false, [])
      | c :: behind =>
          if c = 'x' ∨ c = 'X' then
            (basedNumber? (fun c => (Text.hexValue? c).isSome) behind).map (false, ·)
          else if c = 'o' ∨ c = 'O' then (basedNumber? isOctal behind).map (false, ·)
          else if c = 'b' ∨ c = 'B' then
            (basedNumber? (fun c => c == '0' || c == '1') behind).map (false, ·)
          else if c.isDigit then
            let digits := rest.takeWhile Char.isDigit
            let behind := rest.dropWhile Char.isDigit
            if digits.all isOctal then some (true, behind)
            else (fraction? behind).map (true, ·)
          else if c = '_' then none
          else if c = 'n' then some (false, behind)
          else (fraction? rest).map (false, ·)
  | _ =>
      match digitRun Char.isDigit false text with
      | some (_, 'n' :: behind) => some (false, behind)
      | some (_, behind) => (fraction? behind).map (false, ·)
      | none => none

/-! ## Names -/

/-- The rest of a name. `first` says that nothing of it was read yet. The bound is on the number
of characters. -/
def nameFrom : Nat → Bool → Bool → List Char → List Char → Option (List Char × Bool × List Char)
  | 0, _, escaped, name, rest => some (name.reverse, escaped, rest)
  | bound + 1, first, escaped, name, rest =>
      let fits := fun (c : Char) => if first then startsName c else continuesName c
      match rest with
      | '\\' :: 'u' :: behind =>
          match unicodeEscape? behind with
          | some (code, behind) =>
              let c := Char.ofNat code
              if code.isValidChar && fits c then nameFrom bound false true (c :: name) behind
              else none
          | none => none
      | '\\' :: _ => none
      | c :: behind =>
          if fits c then nameFrom bound false escaped (c :: name) behind
          else if first then none
          else some (name.reverse, escaped, rest)
      | [] => if first then none else some (name.reverse, escaped, rest)

/-- The name at the front of a text. -/
def name? (text : List Char) : Option (List Char × Bool × List Char) :=
  nameFrom (text.length + 1) true false [] text

/-! ## Tokens -/

/-- The sign at the front of a text. A question mark and a dot before a digit are two signs. -/
def sign? (text : List Char) : Option (String × List Char) :=
  let optionalDot := match text with
    | '?' :: '.' :: c :: _ => !c.isDigit
    | _ => true
  signs.findSome? fun sign =>
    if sign = "?." && !optionalDot then none
    else (Text.after? sign.toList text).map fun rest => (sign, rest)

/-- The token at the front of a text on a line. -/
def tokenAt (text : List Char) (line : Nat) : Scan (Token × Place) :=
  match text with
  | [] => .ok (.stop, ⟨[], line⟩)
  | c :: rest =>
      if c = '"' ∨ c = '\'' then stringBody c line (rest.length + 1) rest line false []
      else if c.isDigit ∨ (c = '.' ∧ (rest.head?.any Char.isDigit)) then
        let read := if c = '.' then (fraction? text).map (false, ·) else number? text
        match read with
        | some (legacy, rest) =>
            if endsNumber rest then .ok (.number legacy, ⟨rest, line⟩) else .error line
        | none => .error line
      else if c = '#' then
        match name? rest with
        | some (name, _, rest) => .ok (.hidden (String.ofList name), ⟨rest, line⟩)
        | none => .error line
      else if startsName c ∨ c = '\\' then
        match name? text with
        | some (name, escaped, rest) => .ok (.name (String.ofList name) escaped, ⟨rest, line⟩)
        | none => .error line
      else
        match sign? text with
        | some (sign, rest) => .ok (.sign sign, ⟨rest, line⟩)
        | none => .error line

/-- The token that comes next at a place. -/
def lex (place : Place) : Scan Lexeme := do
  let (start, newline) ← skipGap .blank place.rest place.line false
  let (token, after) ← tokenAt start.rest start.line
  return { token := token, start := start, newline := newline, after := after }

/-! ## Regular expressions -/

/-- The body of a regular expression, behind its first slash; nothing if a line or the text ends
in it. In brackets a slash does not end it. -/
def regexBody? : Bool → List Char → Option (List Char)
  | _, [] => none
  | inSet, '\\' :: c :: rest => if isLineEnd c then none else regexBody? inSet rest
  | inSet, c :: rest =>
      if isLineEnd c ∨ c = '\\' then none
      else if c = '[' then regexBody? true rest
      else if c = ']' then regexBody? false rest
      else if c = '/' ∧ !inSet then some rest
      else regexBody? inSet rest

/-- The flags of a regular expression: known ones, each once, and not both that set how sets are
read. -/
def validFlags (flags : List Char) : Bool :=
  flags.all ("dgimsuvy".toList.contains ·) && flags.Nodup &&
    !(flags.contains 'u' && flags.contains 'v')

/-- The place behind the regular expression that starts at a place. -/
def regexAt (place : Place) : Scan Place :=
  match regexBody? false place.rest.tail with
  | none => .error place.line
  | some behind =>
      let flags := behind.takeWhile continuesName
      let rest := behind.drop flags.length
      if validFlags flags && rest.head? != some '\\' then .ok ⟨rest, place.line⟩
      else .error place.line

end TemplateBundle.Script

import TemplateBundle.Script.Lexer

/-!
# The values of string literals

What a script has for a string literal when it runs: a sequence of code units, each of sixteen bits.
The characters of the literal stand for themselves, except for escapes behind a backslash.
-/

namespace TemplateBundle.Script

/-- The code units for the code of a character; codes beyond sixteen bits take two. -/
def codeUnits (code : Nat) : List Nat :=
  if code < 0x10000 then [code]
  else [0xD800 + (code - 0x10000) / 0x400, 0xDC00 + (code - 0x10000) % 0x400]

/-- The code units of a text. -/
def unitsOf (text : List Char) : List Nat :=
  text.flatMap fun c => codeUnits c.toNat

/-- The code unit of an escape by a letter. -/
def letterEscape? : Char → Option Nat
  | 'b' => some 0x08
  | 't' => some 0x09
  | 'n' => some 0x0A
  | 'v' => some 0x0B
  | 'f' => some 0x0C
  | 'r' => some 0x0D
  | _ => none

/-- Go on with an octal number by at most `count` digits. -/
def octalNumber : Nat → Nat → List Char → Nat × List Char
  | 0, value, rest => (value, rest)
  | _, value, [] => (value, [])
  | count + 1, value, c :: rest =>
      if isOctal c then octalNumber count (8 * value + (c.toNat - '0'.toNat)) rest
      else (value, c :: rest)

/-- The code units of the escape behind a backslash, and the text behind it. The end of a line is
left out. An octal number has up to three digits and fits into a byte. -/
def escapeUnits? : List Char → Option (List Nat × List Char)
  | [] => none
  | '\r' :: '\n' :: rest => some ([], rest)
  | c :: rest =>
      if isLineEnd c then some ([], rest)
      else if c = 'x' then (hexDigits? 2 0 rest).map fun (value, behind) => ([value], behind)
      else if c = 'u' then
        (unicodeEscape? rest).map fun (value, behind) => (codeUnits value, behind)
      else if isOctal c then
        let (value, behind) := octalNumber (if c ≤ '3' then 2 else 1) (c.toNat - '0'.toNat) rest
        some ([value], behind)
      else some (((letterEscape? c).map ([·])).getD (codeUnits c.toNat), rest)

/-- The code units up to the closing quote, and the text behind it; nothing if the text or the line
ends before. The bound is on the number of characters. -/
def unitsUpTo? (quote : Char) : Nat → List Char → Option (List Nat × List Char)
  | 0, _ => none
  | bound + 1, text =>
      match text with
      | [] => none
      | c :: rest =>
          if c = quote then some ([], rest)
          else if c = '\n' ∨ c = '\r' then none
          else
            let read := if c = '\\' then escapeUnits? rest else some (codeUnits c.toNat, rest)
            match read with
            | some (units, behind) =>
                (unitsUpTo? quote bound behind).map fun (others, behind) =>
                  (units ++ others, behind)
            | none => none

/-- The value of a literal in single quotes, behind the opening one, and the text behind the closing
one. -/
def stringUnits? (text : List Char) : Option (List Nat × List Char) :=
  unitsUpTo? '\'' (text.length + 1) text

end TemplateBundle.Script

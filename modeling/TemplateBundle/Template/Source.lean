import TemplateBundle.Template.Delimiters
import TemplateBundle.Text.CharacterClass
import TemplateBundle.Text.Replace

/-!
# The function of a template

A template becomes the text of a function that collects its output in `__p`. Text turns into
string literals, the code of tags stands between them. Appending nothing is left out again by
three rules, which look at the text of the function and so also find what code tags hold.
-/

namespace TemplateBundle.Template

/-- A character inside a literal in single quotes. -/
def escapeChar (c : Char) : List Char :=
  match c with
  | '\\' => ['\\', '\\']
  | '\'' => ['\\', '\'']
  | '\n' => ['\\', 'n']
  | '\r' => ['\\', 'r']
  | '\t' => ['\\', 't']
  | '\u2028' => "\\u2028".toList
  | '\u2029' => "\\u2029".toList
  | other => [other]

/-- What a piece adds to the statements. Before and behind it a literal is open. -/
def Piece.write : Piece → List Char
  | .text chars => chars.flatMap escapeChar
  | .code .escape chars => "' +\n__e(".toList ++ chars ++ ") +\n'".toList
  | .code .interpolate chars => "' +\n((__t = (".toList ++ chars ++ ")) == null ? '' : __t) +\n'".toList
  | .code .evaluate chars => "';\n".toList ++ chars ++ ";\n__p += '".toList

/-- The piece holds code that is run. -/
def Piece.isStatement : Piece → Bool
  | .code .evaluate _ => true
  | _ => false

/-- The statements for the pieces, one behind the other. -/
def statements (pieces : List Piece) : List Char :=
  "__p += '".toList ++ pieces.flatMap Piece.write ++ "';\n".toList

/-! ## Leaving out empty appends -/

/-- A rule looks at the character before a place and the text from there on. Where it applies it
gives what to write and the text behind. -/
abbrev Rule := Option Char → List Char → Option (List Char × List Char)

/-- Apply a rule from left to right. Every rule ends behind a sign that belongs to no word, so
what follows stands as at the start of a text. The bound is on the number of characters. -/
def Rule.applyFrom (rule : Rule) : Nat → Option Char → List Char → List Char
  | 0, _, text => text
  | _, _, [] => []
  | bound + 1, previous, c :: rest =>
      match rule previous (c :: rest) with
      | some (written, behind) => written ++ applyFrom rule bound none behind
      | none => c :: applyFrom rule bound (some c) rest

/-- Apply a rule wherever it applies. -/
def Rule.apply (rule : Rule) (text : List Char) : List Char :=
  rule.applyFrom text.length none text

/-- No word goes on past the place. -/
def startsWord (previous : Option Char) : Bool :=
  match previous with
  | some c => !Text.isWord c
  | none => true

/-- Drop a statement that appends nothing. -/
def emptyStatement : Rule := fun previous text =>
  if startsWord previous then
    (Text.after? "__p += '';".toList text).map fun behind => ([], behind)
  else none

/-- Drop an empty literal at the start of a sum. -/
def emptyFirst : Rule := fun previous text =>
  if startsWord previous then
    (Text.after? "__p += '' +".toList text).map fun behind => ("__p +=".toList, behind)
  else none

/-- An empty literal that ends a sum. -/
def emptyEnd : List Char := " +\n'';".toList

/-- The end of a call on its line, behind which an empty literal ends the sum: what stands up to
its closing parenthesis, and the text behind the literal. -/
def callBeforeEmpty? : List Char → Option (List Char × List Char)
  | [] => none
  | c :: rest =>
      if c = '\n' then none
      else
        let here := if c = ')' then Text.after? emptyEnd rest else none
        match here with
        | some behind => some ([c], behind)
        | none => (callBeforeEmpty? rest).map fun (call, behind) => (c :: call, behind)

/-- Drop an empty literal at the end of a sum, behind an escaped or an interpolated value. -/
def emptyLast : Rule := fun previous text =>
  let escaped := match Text.after? "__e(".toList text with
    | some rest =>
        (callBeforeEmpty? rest).map fun (call, behind) => ("__e(".toList ++ call ++ [';'], behind)
    | none => none
  let value := if startsWord previous then
      (Text.after? ("__t)".toList ++ emptyEnd) text).map fun behind => ("__t);".toList, behind)
    else none
  escaped <|> value

/-- The statements without empty appends. Whole statements only become empty next to code that
is run. -/
def withoutEmpty (evaluates : Bool) (statements : List Char) : List Char :=
  let kept := if evaluates then Rule.apply emptyStatement statements else statements
  Rule.apply emptyLast (Rule.apply emptyFirst kept)

/-! ## The function -/

/-- The name of the parameter where the settings give none. -/
def standardVariable : String := "obj"

/-- The declarations at the head of the function. Code that is run may call `print`. -/
def declarations (evaluates : Bool) : List Char :=
  "var __t, __p = '', __e = _.escape".toList ++
    (if evaluates then
      ", __j = Array.prototype.join;\nfunction print() \x7b __p += __j.call(arguments, '') \x7d\n".toList
    else ";\n".toList)

/-- The text of the function. Without a variable, the names in the code are those of the fields of
the parameter. -/
def functionText (dataName : Option String) (pieces : List Piece) : List Char :=
  let evaluates := pieces.any Piece.isStatement
  let name := (dataName.getD standardVariable).toList
  let written := statements pieces
  let body := match dataName with
    | some _ => written
    | none => "with (".toList ++ name ++ ") \x7b\n".toList ++ written ++ "\n\x7d\n".toList
  let fallback := match dataName with
    | some _ => []
    | none => name ++ " || (".toList ++ name ++ " = \x7b\x7d);\n".toList
  "function(".toList ++ name ++ ") \x7b\n".toList ++ fallback ++ declarations evaluates ++
    withoutEmpty evaluates body ++ "return __p\n\x7d".toList

end TemplateBundle.Template

import TemplateBundle.Text.CharacterClass
import TemplateBundle.Text.CodePoints

/-!
# Words of a script

Tokens, and which characters and words have a meaning of their own. Lines are counted by line
feeds alone, although three more characters end a line.
-/

namespace TemplateBundle.Script

/-- A place in a script: the text from there on, and its line. -/
structure Place where
  rest : List Char
  line : Nat
  deriving Repr, Inhabited

/-- A token. -/
inductive Token where
  /-- A name or a word; `escaped` if it is not written plainly. -/
  | name (text : String) (escaped : Bool)
  /-- A name behind a number sign. -/
  | hidden (text : String)
  /-- A number; `legacy` if it starts with a zero that strict code refuses. -/
  | number (legacy : Bool)
  /-- A string literal: the characters between the quotes as written, and whether strict code
  refuses one of its escapes. -/
  | string (written : List Char) (legacy : Bool)
  | sign (text : String)
  | stop
  deriving DecidableEq, Repr, Inhabited

/-- A token with its place: where it starts, whether a line ends between it and the token before,
and where the text goes on. -/
structure Lexeme where
  token : Token
  start : Place
  newline : Bool
  after : Place
  deriving Repr, Inhabited

/-- A script is refused, because of what stands on the line. -/
abbrev Scan (α : Type) := Except Nat α

/-- The character ends a line. -/
def isLineEnd (c : Char) : Bool :=
  c == '\n' || c == '\r' || c == '\u2028' || c == '\u2029'

/-- The character is a blank that does not end a line. -/
def isBlank (c : Char) : Bool :=
  c == ' ' || c == '\t' || c == '\x0b' || c == '\x0c' || c == '\u00a0' || c == '\ufeff' ||
    (0x80 ≤ c.toNat && Text.Category.has .spaceSeparator c)

/-- The line behind a character on the given line. -/
def lineBehind (c : Char) (line : Nat) : Nat :=
  if c = '\n' then line + 1 else line

/-- The character may start a name. -/
def startsName (c : Char) : Bool :=
  c.isAlpha || c == '_' || c == '$' || (0x80 ≤ c.toNat && Text.isIdentifierStart c)

/-- The character may go on with a name. -/
def continuesName (c : Char) : Bool :=
  c.isAlphanum || c == '_' || c == '$' || c == '\u200c' || c == '\u200d' ||
    (0x80 ≤ c.toNat && Text.isIdentifierPart c)

/-- Words that are never names. -/
def reservedWords : List String :=
  ["break", "case", "catch", "class", "const", "continue", "debugger", "default", "delete", "do",
    "else", "enum", "export", "extends", "false", "finally", "for", "function", "if", "import",
    "in", "instanceof", "new", "null", "return", "super", "switch", "this", "throw", "true", "try",
    "typeof", "var", "void", "while", "with"]

/-- Words that are no names in strict code. -/
def strictWords : List String :=
  ["implements", "interface", "let", "package", "private", "protected", "public", "static",
    "yield"]

/-- The word is never a name. -/
def isReserved (word : String) : Bool :=
  reservedWords.contains word

/-- Signs, where one that is the start of another comes behind it. -/
def signs : List String :=
  [">>>=", "...", "===", "!==", "**=", "<<=", ">>=", ">>>", "&&=", "||=", "??=", "=>", "==", "!=",
    "<=", ">=", "&&", "||", "??", "?.", "++", "--", "+=", "-=", "*=", "/=", "%=", "&=", "|=", "^=",
    "<<", ">>", "**", "\x7b", "\x7d", "(", ")", "[", "]", ";", ",", "<", ">", "+", "-", "*", "/",
    "%", "&", "|", "^", "!", "~", "?", ":", "=", ".", "\x60"]

end TemplateBundle.Script

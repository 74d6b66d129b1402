import TemplateBundle.Regex.Property
import TemplateBundle.Text.LetterCase

/-!
# Patterns

A pattern describes texts: characters from sets, assertions about the place between two
characters, capture groups, sequence, choice and repetition. Choices and repetitions have an order
of preference, which decides which of several possible matches is taken.
-/

namespace TemplateBundle.Regex

/-- A set of characters. -/
inductive CharSet where
  | empty
  | range (first last : Char)
  | property (members : Property)
  | union (left right : CharSet)
  | intersection (left right : CharSet)
  | complement (members : CharSet)
  /-- The members together with their case variants. -/
  | folded (members : CharSet)
  deriving DecidableEq, Repr, Inhabited

namespace CharSet

/-- The character belongs to the set. -/
def contains : CharSet → Char → Bool
  | .empty, _ => false
  | .range first last, c => first ≤ c && c ≤ last
  | .property members, c => members.has c
  | .union left right, c => left.contains c || right.contains c
  | .intersection left right, c => left.contains c && right.contains c
  | .complement members, c => !members.contains c
  | .folded members, c => (Text.caseVariants c).any fun variant => members.contains variant

/-- The set of one character. -/
def single (c : Char) : CharSet :=
  .range c c

/-- The members of the first set that are not in the second. -/
def difference (left right : CharSet) : CharSet :=
  .intersection left (.complement right)

/-- The members of exactly one of the sets. -/
def symmetricDifference (left right : CharSet) : CharSet :=
  .union (difference left right) (difference right left)

/-- The union of a list of sets. -/
def unions (sets : List CharSet) : CharSet :=
  sets.foldl .union .empty

end CharSet

/-- An assertion about a place in a text. Word boundaries know the characters of words of all
scripts or, in the ASCII forms, of ASCII only. -/
inductive Look where
  | textStart
  | textEnd
  | lineStart
  | lineEnd
  /-- As `lineStart`, with carriage returns as line ends too. -/
  | anyLineStart
  /-- As `lineEnd`, with carriage returns as line ends too. -/
  | anyLineEnd
  | boundary (ascii : Bool)
  | noBoundary (ascii : Bool)
  | wordStart (ascii : Bool)
  | wordEnd (ascii : Bool)
  | wordStartHalf (ascii : Bool)
  | wordEndHalf (ascii : Bool)
  deriving DecidableEq, Repr

/-- A pattern. -/
inductive Node where
  | empty
  | char (members : CharSet)
  | look (assertion : Look)
  /-- A capture group with its number. -/
  | capture (group : Nat) (body : Node)
  | sequence (first second : Node)
  /-- The first alternative is preferred. -/
  | choice (first second : Node)
  /-- From `least` to `most` times, without an upper bound if there is no `most`. A greedy
  repetition prefers more rounds, any other one fewer. -/
  | repeated (least : Nat) (most : Option Nat) (greedy : Bool) (body : Node)
  deriving DecidableEq, Repr, Inhabited

/-- A pattern with the number of its capture groups. -/
structure Pattern where
  node : Node
  groups : Nat
  deriving DecidableEq, Repr, Inhabited

end TemplateBundle.Regex

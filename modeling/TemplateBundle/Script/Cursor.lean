import TemplateBundle.Script.Lexer

/-!
# Reading a script

A parser reads from a cursor, which holds the token that comes next. It fails at the line of the
first token that cannot go on. Faults that leave the grammar intact (a jump to nowhere, a target
that cannot be assigned to) do not stop the reading; the line of the first of them is kept.
-/

namespace TemplateBundle.Script

/-- Lines of expressions that must not stand in the parameters of a function. -/
structure Suspensions where
  yields : Option Nat := none
  awaits : Option Nat := none
  /-- A plain name `await`, which the parameters of an asynchronous function exclude. -/
  awaitNames : Option Nat := none
  deriving Repr, Inhabited

/-- The first of each kind. -/
def Suspensions.merge (first second : Suspensions) : Suspensions :=
  { yields := first.yields <|> second.yields
    awaits := first.awaits <|> second.awaits
    awaitNames := first.awaitNames <|> second.awaitNames }

/-- Where the reading stands. -/
structure Cursor where
  lexeme : Lexeme
  /-- The line of the first fault that does not stop the reading. -/
  early : Option Nat
  seen : Suspensions
  deriving Repr, Inhabited

/-- A parser reads on from a cursor or fails at a line. -/
abbrev Reading := StateT Cursor (Except Nat)

/-- One round of a loop. -/
inductive Round (σ α : Type) where
  | again (state : σ)
  | done (result : α)

namespace Reading

/-- The token that comes next. -/
def current : Reading Token :=
  return (← get).lexeme.token

/-- The line of the token that comes next. -/
def line : Reading Nat :=
  return (← get).lexeme.start.line

/-- A line ends before the token that comes next. -/
def newline : Reading Bool :=
  return (← get).lexeme.newline

/-- Fail at a line. -/
def failAt {α : Type} (line : Nat) : Reading α :=
  throw line

/-- Fail at the token that comes next. -/
def fail {α : Type} : Reading α := do
  failAt (← line)

/-- Keep the line of a fault and go on. -/
def report (line : Nat) : Reading Unit :=
  modify fun cursor => { cursor with early := cursor.early <|> some line }

/-- Keep the line of a fault, if there is one, and go on. -/
def reportAny (line : Option Nat) : Reading Unit :=
  line.forM report

/-- Go on with the token at a place. -/
def resume (place : Place) : Reading Unit := do
  let lexeme ← lex place
  modify fun cursor => { cursor with lexeme := lexeme }

/-- Go on with the next token. -/
def next : Reading Unit := do
  resume (← get).lexeme.after

/-- The token behind the one that comes next. Where a parser looks at it, all ways pass over the
token that comes next, so a text that is no token there is a fault in any case. -/
def peek : Reading Lexeme := do
  lex (← get).lexeme.after

/-- The sign comes next. -/
def sees (sign : String) : Reading Bool :=
  return (← current) == .sign sign

/-- The word, written plainly, comes next. -/
def seesWord (word : String) : Reading Bool :=
  return (← current) == .name word false

/-- Pass over the sign if it comes next. -/
def accepts (sign : String) : Reading Bool := do
  if ← sees sign then
    next
    pure true
  else pure false

/-- Pass over the word if it comes next. -/
def acceptsWord (word : String) : Reading Bool := do
  if ← seesWord word then
    next
    pure true
  else pure false

/-- Pass over the sign, which has to come next. -/
def expect (sign : String) : Reading Unit := do
  unless ← accepts sign do
    fail

/-- Pass over the word, which has to come next. -/
def expectWord (word : String) : Reading Unit := do
  unless ← acceptsWord word do
    fail

/-- The end of a statement: a semicolon, which may be left out at the end of a line, before a
closing brace and at the end of the script. -/
def semicolon : Reading Unit := do
  unless ← accepts ";" do
    unless (← newline) || (← sees "\x7d") || (← current) == .stop do
      fail

/-- Repeat a step until it is done. The bound is on the number of rounds. -/
def repeatUpTo {σ α : Type} (step : σ → Reading (Round σ α)) : Nat → σ → Reading α
  | 0, _ => fail
  | bound + 1, state => do
      match ← step state with
      | .again state => repeatUpTo step bound state
      | .done result => pure result

/-- Run a parser with no suspension seen, and give those that it met. -/
def apart {α : Type} (parser : Reading α) : Reading (α × Suspensions) := do
  let before := (← get).seen
  modify fun cursor => { cursor with seen := {} }
  let result ← parser
  let seen := (← get).seen
  modify fun cursor => { cursor with seen := before }
  pure (result, seen)

/-- Keep suspensions that were met. -/
def keep (seen : Suspensions) : Reading Unit :=
  modify fun cursor => { cursor with seen := cursor.seen.merge seen }

end Reading

/-- What stands around a part of a script. -/
structure Context where
  /-- A bound on the number of tokens. -/
  bound : Nat
  strict : Bool := false
  /-- The word `yield` is an operator. -/
  generator : Bool := false
  /-- The word `await` is an operator. -/
  asynchronous : Bool := false
  /-- The operator `in` may be used. -/
  allowsIn : Bool := true
  allowsReturn : Bool := false
  inLoop : Bool := false
  inSwitch : Bool := false
  /-- The labels around, and whether each names a loop. -/
  labels : List (String × Bool) := []
  /-- The labels directly before the statement. -/
  pending : List String := []
  /-- Inside a function other than an arrow, or a part of a class that is run like one. -/
  inFunction : Bool := false
  /-- Inside a method or a part of a class that is run like one, where fields of the parent are
  in reach. -/
  inMethod : Bool := false
  /-- The name `arguments` is refused. -/
  refusesArguments : Bool := false
  /-- The name `await` is refused. -/
  refusesAwait : Bool := false
  deriving Repr, Inhabited

/-- Where a statement stands. -/
inductive StatementPlace where
  /-- Among other statements. -/
  | list
  /-- As the body of a loop or the like. -/
  | body
  /-- As a branch of a choice. -/
  | branch
  /-- Behind a label among other statements. -/
  | labelled
  deriving DecidableEq, Repr

/-- A name that a pattern binds. -/
structure BoundName where
  text : String
  line : Nat
  deriving Repr, Inhabited

/-- The kind of an expression, as far as the rules ask for it. -/
inductive Form where
  | name (text : String)
  /-- A field of a value; `hidden` if its name stands behind a number sign. -/
  | field (hidden : Bool)
  /-- An array or object in brackets or braces, which may turn out to be a pattern. -/
  | literal
  | assignment
  | coalesce
  | logical
  | unary
  | arrow
  | string (written : List Char) (legacy : Bool)
  | other
  deriving DecidableEq, Repr, Inhabited

/-- What is known of an expression or a pattern: its line and kind, whether it can be assigned
to, the line at which it fails to be a pattern for assignment or for binding, the names that it
binds as a pattern, and the line of a part that only patterns may have. -/
structure Term where
  line : Nat
  form : Form
  isTarget : Bool
  patternFault : Option Nat
  bindingFault : Option Nat
  names : List BoundName
  coverFault : Option Nat
  deriving Repr, Inhabited

namespace Term

/-- An expression that is no pattern. -/
def plain (line : Nat) (form : Form) : Term :=
  { line := line, form := form, isTarget := false, patternFault := some line,
    bindingFault := some line, names := [], coverFault := none }

/-- An expression without special properties. -/
def other (line : Nat) : Term :=
  plain line .other

/-- A field of a value, which can be assigned to. -/
def field (line : Nat) (hidden : Bool) : Term :=
  { plain line (.field hidden) with isTarget := true, patternFault := none }

/-- The names that strict code does not assign to. -/
def isRestricted (name : String) : Bool :=
  name == "eval" || name == "arguments"

/-- A name. -/
def ofName (strict : Bool) (text : String) (line : Nat) : Term :=
  let free := !(strict && isRestricted text)
  { line := line, form := .name text, isTarget := free,
    patternFault := if free then none else some line, bindingFault := none,
    names := [⟨text, line⟩], coverFault := none }

/-- An expression that turned out to be no pattern: a part that only patterns may have is a
fault. -/
def settle (term : Term) : Reading Unit :=
  Reading.reportAny term.coverFault

/-- A term between parentheses can be assigned to like the term itself, but is no pattern. -/
def parenthesised (line : Nat) (term : Term) : Term :=
  { plain line .other with
    isTarget := term.isTarget
    patternFault := if term.isTarget then none else some line }

end Term

/-- The parts of a script that hold each other. -/
inductive Goal where
  | assignment (context : Context)
  | unary (context : Context)
  /-- An expression without operators; without calls it is what `new` takes. -/
  | operand (context : Context) (calls : Bool)
  | statement (context : Context) (place : StatementPlace)
  /-- A name or pattern to bind. -/
  | binding (context : Context)

/-- How to read the parts that a part holds. -/
abbrev Recur := Goal → Reading Term

end TemplateBundle.Script

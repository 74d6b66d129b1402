import TemplateBundle.Regex.Syntax

/-!
# Matching

How a pattern matches a text. `Node.run` tries the ways in which a pattern can match at a place in
the order of preference and hands each to a continuation, until one leads to a result. A round of a
repetition that matches nothing is only taken as the first one, and ends the repetition. Of all
places the first one where the pattern matches is taken.
-/

namespace TemplateBundle.Regex

/-- A stretch of a text, from `start` up to, but not including, `stop`. -/
structure Span where
  start : Nat
  stop : Nat
  deriving DecidableEq, Repr, Inhabited

/-- What the capture groups hold, by number. -/
abbrev Captures := Array (Option Span)

/-- The character belongs to a word, of ASCII only or of any script. -/
def isWordChar (ascii : Bool) (c : Char) : Bool :=
  if ascii then c.isAlphanum || c == '_' else Text.isWord c

namespace Look

/-- The character before the place is in a word. -/
def wordBefore (text : Array Char) (ascii : Bool) (place : Nat) : Bool :=
  match place with
  | 0 => false
  | before + 1 => match text[before]? with
    | some c => isWordChar ascii c
    | none => false

/-- The character behind the place is in a word. -/
def wordAfter (text : Array Char) (ascii : Bool) (place : Nat) : Bool :=
  match text[place]? with
  | some c => isWordChar ascii c
  | none => false

/-- The character before the place. -/
def before? (text : Array Char) (place : Nat) : Option Char :=
  match place with
  | 0 => none
  | before + 1 => text[before]?

/-- The assertion holds at the place. -/
def holds (text : Array Char) (place : Nat) : Look → Bool
  | .textStart => place == 0
  | .textEnd => place == text.size
  | .lineStart => place == 0 || before? text place == some '\n'
  | .lineEnd => place == text.size || text[place]? == some '\n'
  | .anyLineStart =>
      place == 0 || before? text place == some '\n' ||
        (before? text place == some '\r' && text[place]? != some '\n')
  | .anyLineEnd =>
      place == text.size || text[place]? == some '\r' ||
        (text[place]? == some '\n' && before? text place != some '\r')
  | .boundary ascii => wordBefore text ascii place != wordAfter text ascii place
  | .noBoundary ascii => wordBefore text ascii place == wordAfter text ascii place
  | .wordStart ascii => !wordBefore text ascii place && wordAfter text ascii place
  | .wordEnd ascii => wordBefore text ascii place && !wordAfter text ascii place
  | .wordStartHalf ascii => !wordBefore text ascii place
  | .wordEndHalf ascii => !wordAfter text ascii place

end Look

/-- One way of going on from a place with what is captured so far. -/
abbrev Continue (α : Type) := Nat → Captures → Option α

/-- A step of matching: where it starts, what is captured, and how to go on. -/
abbrev Step (α : Type) := Nat → Captures → Continue α → Option α

namespace Step

variable {α : Type}

/-- The step a fixed number of times. -/
def times (step : Step α) : Nat → Step α
  | 0, place, captures, next => next place captures
  | count + 1, place, captures, next =>
      step place captures fun place captures => times step count place captures next

/-- The step up to a number of times. -/
def upTo (step : Step α) (greedy : Bool) : Nat → Step α
  | 0, place, captures, next => next place captures
  | count + 1, place, captures, next =>
      let more := fun (_ : Unit) =>
        step place captures fun place captures => upTo step greedy count place captures next
      if greedy then more () <|> next place captures
      else next place captures <|> more ()

/-- Further rounds of a step, each of which has to get on. The bound is the number of characters
left. -/
def further (step : Step α) (greedy : Bool) : Nat → Step α
  | 0, place, captures, next => next place captures
  | bound + 1, place, captures, next =>
      let more := fun (_ : Unit) =>
        step place captures fun after captures =>
          if after = place then none else further step greedy bound after captures next
      if greedy then more () <|> next place captures
      else next place captures <|> more ()

/-- The step once or more often. -/
def onceOrMore (step : Step α) (greedy : Bool) (size : Nat) : Step α :=
  fun place captures next =>
    step place captures fun after captures =>
      if after = place then next after captures
      else further step greedy (size - after) after captures next

/-- The step any number of times. -/
def any (step : Step α) (greedy : Bool) (size : Nat) : Step α :=
  fun place captures next =>
    let more := fun (_ : Unit) => onceOrMore step greedy size place captures next
    if greedy then more () <|> next place captures
    else next place captures <|> more ()

/-- The step from `least` to `most` times. -/
def repeated (step : Step α) (least : Nat) (most : Option Nat) (greedy : Bool) (size : Nat) :
    Step α :=
  match most, least with
  | some most, _ => fun place captures next =>
      times step least place captures fun place captures =>
        upTo step greedy (most - least) place captures next
  | none, 0 => any step greedy size
  | none, least + 1 => fun place captures next =>
      times step least place captures fun place captures =>
        onceOrMore step greedy size place captures next

end Step

namespace Node

/-- The greatest number of a capture group in the pattern. Groups that a repetition without rounds
leaves out keep their numbers, so it may be greater than the number of groups. -/
def lastGroup : Node → Nat
  | .capture group body => max group body.lastGroup
  | .sequence first second => max first.lastGroup second.lastGroup
  | .choice first second => max first.lastGroup second.lastGroup
  | .repeated _ _ _ body => body.lastGroup
  | .empty | .char _ | .look _ => 0

/-- Match the pattern at a place and go on, in the order of preference. -/
def run {α : Type} (text : Array Char) : Node → Step α
  | .empty, place, captures, next => next place captures
  | .char members, place, captures, next =>
      match text[place]? with
      | some c => if members.contains c then next (place + 1) captures else none
      | none => none
  | .look assertion, place, captures, next =>
      if assertion.holds text place then next place captures else none
  | .capture group body, place, captures, next =>
      run text body place captures fun stop captures =>
        next stop (captures.setIfInBounds group (some { start := place, stop := stop }))
  | .sequence first second, place, captures, next =>
      run text first place captures fun place captures => run text second place captures next
  | .choice first second, place, captures, next =>
      run text first place captures next <|> run text second place captures next
  | .repeated least most greedy body, place, captures, next =>
      Step.repeated (run text body) least most greedy text.size place captures next

end Node

/-- A match: the stretch that the whole pattern took, and what its groups hold. -/
structure Match where
  span : Span
  captures : Captures
  deriving Repr

/-- What a group holds. -/
def Match.group? (found : Match) (group : Nat) : Option Span :=
  (found.captures[group]?).join

namespace Pattern

/-- The preferred match at a place. -/
def matchAt? (pattern : Pattern) (text : Array Char) (place : Nat) : Option Match :=
  let unset := Array.replicate (pattern.node.lastGroup + 1) none
  pattern.node.run text place unset fun stop captures =>
    some { span := { start := place, stop := stop }, captures := captures }

/-- The preferred match at the first place from `place` on, at most `count` places further. -/
def search? (pattern : Pattern) (text : Array Char) : Nat → Nat → Option Match
  | place, 0 => pattern.matchAt? text place
  | place, count + 1 =>
      match pattern.matchAt? text place with
      | some found => some found
      | none => search? pattern text (place + 1) count

/-- The first match from a place on. -/
def find? (pattern : Pattern) (text : Array Char) (place : Nat) : Option Match :=
  if place ≤ text.size then pattern.search? text place (text.size - place) else none

/-- The first match from a place on, where an empty match at the end of the one before it does
not count. -/
def findNext? (pattern : Pattern) (text : Array Char) (place : Nat) (previous : Option Nat) :
    Option Match :=
  match pattern.find? text place with
  | none => none
  | some found =>
      if found.span.start = found.span.stop ∧ previous = some found.span.stop then
        pattern.find? text (place + 1)
      else some found

/-- Matches one behind the other. The bound is on their number. -/
def matchesFrom (pattern : Pattern) (text : Array Char) : Nat → Nat → Option Nat → List Match
  | 0, _, _ => []
  | bound + 1, place, previous =>
      match pattern.findNext? text place previous with
      | none => []
      | some found =>
          found :: matchesFrom pattern text bound found.span.stop (some found.span.stop)

/-- All matches, one behind the other: there is at most one empty and one other match to start
at each place. -/
def findAll (pattern : Pattern) (text : Array Char) : List Match :=
  pattern.matchesFrom text (2 * text.size + 2) 0 none

end Pattern

end TemplateBundle.Regex

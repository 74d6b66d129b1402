import TemplateBundle.Options.Basic
import TemplateBundle.Regex.Match
import TemplateBundle.Regex.Reader
import TemplateBundle.Template.Fault

/-!
# Delimiters

Tags with code stand in the text of a template, and patterns with one capture group each say how
tags look. All of them are joined to one choice; where more than one fits at a place, the order
escape, interpolate, evaluate decides. Cutting a template at its tags gives its pieces.
-/

namespace TemplateBundle.Template

open Regex

/-- What happens to the code of a tag. -/
inductive Tag where
  /-- Its value is written with markup characters escaped. -/
  | escape
  /-- Its value is written. -/
  | interpolate
  /-- It is run. -/
  | evaluate
  deriving DecidableEq, Repr

/-- A part of a template: text, or the code of a tag. -/
inductive Piece where
  | text (chars : List Char)
  | code (tag : Tag) (chars : List Char)
  deriving DecidableEq, Repr

/-- How a kind of tag looks, with the name of its setting. -/
structure Delimiter where
  tag : Tag
  name : String
  pattern : String
  deriving Repr

def standardEscape : String := "<%-([\\s\\S]+?)%>"

def standardEvaluate : String := "<%([\\s\\S]+?)%>"

def standardInterpolate : String := "<%=([\\s\\S]+?)%>"

/-- Code between braces behind a dollar sign; a backslash keeps the character behind it from
closing the tag. -/
def bracedInterpolate : String :=
  "\\$\\\x7b([^\\\\\x7d]*(?:\\\\.[^\\\\\x7d]*)*)\\\x7d"

/-- The delimiters that the settings ask for. Braces mark code only beside the standard look of
interpolation. -/
def delimitersOf (settings : TemplateSettings) : List Delimiter :=
  let interpolate := settings.interpolate.getD standardInterpolate
  [{ tag := .escape, name := "escape", pattern := settings.escape.getD standardEscape },
    { tag := .interpolate, name := "interpolate", pattern := interpolate }] ++
  (if interpolate = standardInterpolate then
    [{ tag := .interpolate, name := "es_template", pattern := bracedInterpolate }]
  else []) ++
  [{ tag := .evaluate, name := "evaluate", pattern := settings.evaluate.getD standardEvaluate }]

/-- A delimiter is a pattern with exactly one capture group. -/
def Delimiter.check (delimiter : Delimiter) : Except CompileFault Unit :=
  match Pattern.ofText? delimiter.pattern with
  | none => .error (.invalidDelimiter delimiter.name)
  | some pattern =>
      if pattern.groups = 1 then .ok ()
      else .error (.delimiterGroups delimiter.name pattern.groups)

/-- All delimiters as one pattern, whose groups belong to the tags in order. -/
structure TagPattern where
  pattern : Pattern
  tags : List Tag
  deriving Repr

/-- The pattern for all tags under the settings. -/
def TagPattern.ofSettings (settings : TemplateSettings) : Except CompileFault TagPattern := do
  let delimiters := delimitersOf settings
  delimiters.forM Delimiter.check
  let alternatives := delimiters.map fun delimiter => "(?:" ++ delimiter.pattern ++ ")"
  match Pattern.ofText? ("|".intercalate alternatives) with
  | some pattern => pure { pattern := pattern, tags := delimiters.map Delimiter.tag }
  | none => throw (.invalidDelimiter "combined")

/-- The characters of a stretch. -/
def slice (text : Array Char) (start stop : Nat) : List Char :=
  (text.extract start stop).toList

/-- The tag whose group takes part in a match, with its code. The groups are numbered from
`group` on. -/
def tagOf? (text : Array Char) (found : Match) : Nat → List Tag → Option (Tag × List Char)
  | _, [] => none
  | group, tag :: others =>
      match found.group? group with
      | some span => some (tag, slice text span.start span.stop)
      | none => tagOf? text found (group + 1) others

/-- The piece of a match. A tag without code is none. -/
def pieceOf? (text : Array Char) (tags : List Tag) (found : Match) : Option Piece :=
  match tagOf? text found 1 tags with
  | some (tag, code) => if code.isEmpty then none else some (.code tag code)
  | none => none

/-- The pieces from a place on, given the matches behind it. -/
def piecesFrom (text : Array Char) (tags : List Tag) (place : Nat) : List Match → List Piece
  | [] => [.text (slice text place text.size)]
  | found :: others =>
      .text (slice text place found.span.start) ::
        ((pieceOf? text tags found).toList ++ piecesFrom text tags found.span.stop others)

/-- Cut a template into its pieces. -/
def pieces (tags : TagPattern) (template : String) : List Piece :=
  let text := template.toList.toArray
  piecesFrom text tags.tags 0 (tags.pattern.findAll text)

end TemplateBundle.Template

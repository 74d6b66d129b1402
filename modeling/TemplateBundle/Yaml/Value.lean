import TemplateBundle.Text.CodePoints
import TemplateBundle.Text.Decimal
import TemplateBundle.Text.Shown
import TemplateBundle.Yaml.Token

/-!
# Values of scalars

What a scalar stands for. A plain scalar may be a number, a truth value or nothing at all; a quoted
one is always a text, unless a tag says otherwise.
-/

namespace TemplateBundle.Yaml

/-- What a scalar stands for. -/
inductive Value where
  | nothing
  | truth (value : Bool)
  | integer (value : Int)
  /-- A number that is no integer, in its shown form. -/
  | fractional (shown : String)
  | text (value : String)
  deriving DecidableEq, Repr

namespace Value

/-- The spellings of nothing. -/
def isNothing (text : String) : Bool :=
  ["null", "Null", "NULL", "~"].contains text

/-- The spellings of the two truth values. -/
def truth? (text : String) : Option Bool :=
  if ["true", "True", "TRUE"].contains text then some true
  else if ["false", "False", "FALSE"].contains text then some false
  else none

/-- A digit of a number in a base. -/
def digit? (base : Nat) (c : Char) : Option Nat :=
  (Text.hexValue? c).filter (· < base)

/-- The number that digits write in a base. -/
def natural? (base : Nat) (digits : List Char) : Option Nat :=
  if digits.isEmpty then none
  else digits.foldl (fun value c => do return base * (← value) + (← digit? base c)) (some 0)

/-- Digits with a zero in front of others. They write no number. -/
def hasLeadingZero (text : List Char) : Bool :=
  match (match text with
    | '-' :: rest => rest
    | '+' :: rest => rest
    | _ => text) with
  | '0' :: rest => !rest.isEmpty && rest.all Char.isDigit
  | _ => false

/-- The number behind its sign, in the base that its first characters tell. -/
def magnitude? (text : List Char) : Option Nat :=
  match text with
  | '0' :: 'x' :: digits => natural? 16 digits
  | '0' :: 'o' :: digits => natural? 8 digits
  | '0' :: 'b' :: digits => natural? 2 digits
  | _ => natural? 10 text

/-- The integer that a text writes, between the bounds that are kept. -/
def integer? (text : List Char) : Option Int :=
  if hasLeadingZero text then none
  else
    match text with
    | '-' :: rest =>
        (magnitude? rest).bind fun size => if size ≤ Nat.pow 2 127 then some (-size) else none
    | '+' :: rest =>
        (magnitude? rest).bind fun size => if size < Nat.pow 2 128 then some size else none
    | _ => (magnitude? text).bind fun size => if size < Nat.pow 2 128 then some size else none

/-- The number with a point or a power of ten that a text writes, in its shown form. -/
def fractional? (text : List Char) : Option String :=
  let (unsigned, hasPlus) := match text with
    | '+' :: rest => (rest, true)
    | _ => (text, false)
  if hasPlus && (unsigned.head? == some '+' || unsigned.head? == some '-') then none
  else if [".inf", ".Inf", ".INF"].contains (String.ofList unsigned) then some "inf"
  else if ["-.inf", "-.Inf", "-.INF"].contains (String.ofList text) then some "-inf"
  else if [".nan", ".NaN", ".NAN"].contains (String.ofList text) then some "NaN"
  else if hasLeadingZero text then none
  else (Text.Decimal.ofText? unsigned).bind Text.Decimal.shortest?

/-- What a plain scalar stands for. -/
def ofPlain (text : String) : Value :=
  if text.isEmpty || isNothing text then .nothing
  else
    match truth? text with
    | some value => .truth value
    | none =>
        match integer? text.toList with
        | some value => .integer value
        | none =>
            match fractional? text.toList with
            | some shown => .fractional shown
            | none => .text text

/-- What is in front of the names of the usual tags. -/
def usualTag (name : String) : String :=
  "tag:yaml.org,2002:" ++ name

/-- What a scalar stands for. With a tag for numbers, truth values or nothing the text has to
write such a thing, in whatever way the scalar is written; the error names what it fails to be. -/
def ofScalar (text : String) (style : ScalarStyle) (tag : Option String) : Except String Value :=
  let isPlain := style == .plain
  let tagged := fun (value : Option Value) (wanted : String) =>
    match value with
    | some value => .ok value
    | none => .error wanted
  match tag with
  | none => .ok (if isPlain then ofPlain text else .text text)
  | some tag =>
      if tag = usualTag "bool" then tagged ((truth? text).map .truth) "a boolean"
      else if tag = usualTag "int" then tagged ((integer? text.toList).map .integer) "an integer"
      else if tag = usualTag "float" then
        tagged ((fractional? text.toList).map .fractional) "a float"
      else if tag = usualTag "null" then
        if isNothing text then .ok .nothing else .error "null"
      else if isPlain && tag.startsWith "!" then .ok (ofPlain text)
      else .ok (.text text)

/-- A text that stands for something else, or looks like a number, when it is plain. -/
def needsQuotes (text : String) : Bool :=
  match ofPlain text with
  | .text _ => hasLeadingZero text.toList
  | _ => true

/-- How a value is named in messages. -/
def shown : Value → String
  | .nothing => "unit value"
  | .truth value => "boolean \x60" ++ (if value then "true" else "false") ++ "\x60"
  | .integer value =>
      "integer \x60" ++ toString value ++ "\x60" ++
        (if value < -Nat.pow 2 63 then " as i128"
        else if Nat.pow 2 64 ≤ value then " as u128" else "")
  | .fractional shown => "floating point \x60" ++ shown ++ "\x60"
  | .text value => "string " ++ Text.shown value

end Value

end TemplateBundle.Yaml

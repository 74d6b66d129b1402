/-!
# Patterns for paths

`?` stands for any character, `*` for any text, `[..]` for one of some characters and `[!..]` for
any other one. `**` fills a whole component of a path and stands for any number of components.
-/

namespace TemplateBundle.Glob

/-- The characters from one to another. -/
structure CharRange where
  first : Char
  last : Char
  deriving DecidableEq, Repr, Inhabited

/-- The character lies in the range. -/
def CharRange.contains (range : CharRange) (c : Char) : Bool :=
  range.first ≤ c && c ≤ range.last

/-- A part of a pattern. -/
inductive Token where
  | char (c : Char)
  | anyChar
  | anyText
  | anyComponents
  | oneOf (ranges : List CharRange)
  | noneOf (ranges : List CharRange)
  deriving DecidableEq, Repr, Inhabited

/-- What is wrong with a pattern. -/
inductive PatternFaultKind where
  | tooManyStars
  | brokenComponents
  | invalidRange
  deriving DecidableEq, Repr

/-- What is wrong with a pattern, and at which character. -/
structure PatternFault where
  position : Nat
  kind : PatternFaultKind
  deriving DecidableEq, Repr

/-- The words for a fault. -/
def PatternFault.message (fault : PatternFault) : String :=
  "Pattern syntax error near position " ++ toString fault.position ++ ": " ++
    match fault.kind with
    | .tooManyStars => "wildcards are either regular \x60*\x60 or recursive \x60**\x60"
    | .brokenComponents => "recursive wildcards must form a single path component"
    | .invalidRange => "invalid range pattern"

/-- A pattern as the list of its parts. -/
abbrev Pattern := List Token

/-! ## Reading -/

/-- The ranges between brackets. A hyphen between two characters makes a range of them. -/
def rangesOf : List Char → List CharRange
  | first :: '-' :: last :: rest => ⟨first, last⟩ :: rangesOf rest
  | c :: rest => ⟨c, c⟩ :: rangesOf rest
  | [] => []

/-- The characters up to a closing bracket, of which the first one may itself be a bracket, and
the text behind it. -/
def bracketBody? : List Char → Option (List Char × List Char)
  | [] => none
  | first :: rest =>
      let body := rest.takeWhile (· ≠ ']')
      match rest.drop body.length with
      | _ :: behind => some (first :: body, behind)
      | [] => none

/-- A set of characters behind its opening bracket, and the text behind it. -/
def bracket? (text : List Char) : Option (Token × List Char) :=
  match text with
  | '!' :: rest =>
      (bracketBody? rest).map fun (body, behind) => (.noneOf (rangesOf body), behind)
  | _ => (bracketBody? text).map fun (body, behind) => (.oneOf (rangesOf body), behind)

/-- Read the parts of a pattern from a position on. `previous` is the character before it. The
bound is on the number of characters. -/
def tokensFrom : Nat → Nat → Option Char → List Char → Except PatternFault Pattern
  | 0, _, _, _ => .ok []
  | _, _, _, [] => .ok []
  | bound + 1, position, previous, '*' :: rest =>
      let stars := rest.takeWhile (· == '*')
      let behind := rest.drop stars.length
      let stop := position + 1 + stars.length
      match stars with
      | [] => (tokensFrom bound stop (some '*') behind).map (.anyText :: ·)
      | [_] =>
          if previous = none ∨ previous = some '/' then
            match behind with
            | [] => .ok [.anyComponents]
            | '/' :: behind =>
                (tokensFrom bound (stop + 1) (some '/') behind).map (.anyComponents :: ·)
            | _ => .error ⟨stop, .brokenComponents⟩
          else .error ⟨position - 1, .brokenComponents⟩
      | _ => .error ⟨position + 2, .tooManyStars⟩
  | bound + 1, position, _, '[' :: rest =>
      match bracket? rest with
      | some (token, behind) =>
          let stop := position + 1 + (rest.length - behind.length)
          (tokensFrom bound stop (some ']') behind).map (token :: ·)
      | none => .error ⟨position, .invalidRange⟩
  | bound + 1, position, _, '?' :: rest =>
      (tokensFrom bound (position + 1) (some '?') rest).map (.anyChar :: ·)
  | bound + 1, position, _, c :: rest =>
      (tokensFrom bound (position + 1) (some c) rest).map (.char c :: ·)

/-- Read a pattern. -/
def Pattern.ofText (text : String) : Except PatternFault Pattern :=
  tokensFrom text.length 0 none text.toList

/-! ## Matching -/

/-- The token stands for the character. -/
def Token.fits (token : Token) (c : Char) : Bool :=
  match token with
  | .char expected => expected == c
  | .anyChar => true
  | .oneOf ranges => ranges.any (·.contains c)
  | .noneOf ranges => !ranges.any (·.contains c)
  | .anyText | .anyComponents => false

/-- A text and all its ends, longest first. -/
def suffixes : List Char → List (List Char)
  | [] => [[]]
  | c :: rest => (c :: rest) :: suffixes rest

/-- The ends of a text that start behind a separator. -/
def suffixesBehindSeparator : List Char → List (List Char)
  | [] => []
  | c :: rest =>
      if c = '/' then rest :: suffixesBehindSeparator rest else suffixesBehindSeparator rest

/-- The pattern stands for the whole text. -/
def Pattern.fits : Pattern → List Char → Bool
  | [], text => text.isEmpty
  | .anyText :: rest, text => (suffixes text).any fun suffix => fits rest suffix
  | .anyComponents :: rest, text =>
      (text :: suffixesBehindSeparator text ++ [[]]).any fun suffix => fits rest suffix
  | token :: rest, text =>
      match text with
      | [] => false
      | c :: text => token.fits c && fits rest text

/-- The pattern stands for a text. -/
def Pattern.matches (pattern : Pattern) (text : String) : Bool :=
  Pattern.fits pattern text.toList

/-- The pattern stands for any number of components. -/
def Pattern.isRecursive (pattern : Pattern) : Bool :=
  pattern.contains .anyComponents

/-- The character that a token stands for alone. -/
def Token.char? : Token → Option Char
  | .char c => some c
  | _ => none

/-- The text that a pattern without special characters stands for. -/
def Pattern.literal? (pattern : Pattern) : Option String :=
  (pattern.mapM Token.char?).map String.ofList

/-- The pattern starts with a dot. -/
def Pattern.startsWithDot (pattern : Pattern) : Bool :=
  pattern.head? == some (.char '.')

end TemplateBundle.Glob

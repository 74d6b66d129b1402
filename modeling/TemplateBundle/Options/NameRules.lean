/-!
# Rules for template names

How the name of a template follows from the path of its file: a leading text is dropped, then the
extension of the file, then a text is put in front.
-/

namespace TemplateBundle

/-- The rules by which a path becomes a name. -/
structure NameRules where
  /-- Dropped once from the front of the path, where the path starts with it. -/
  leading : Option String := none
  /-- Drop the extension of the file. -/
  dropExtension : Bool := false
  /-- Put in front of what the other rules leave. -/
  inFront : Option String := none
  deriving DecidableEq, Repr, Inhabited

namespace NameRules

/-- No rule is set. -/
def isIdentity (rules : NameRules) : Bool :=
  rules == {}

/-- The text without `leading` at its front. -/
def dropLeading (leading text : List Char) : List Char :=
  (leading.isPrefixOf? text).getD text

/-- The path without the last dot of its last segment and what follows it. A dot at the start of
the segment begins no extension. -/
def withoutExtension (path : List Char) : List Char :=
  match path.reverse.dropWhile fun c => c != '.' && c != '/' with
  | '.' :: before =>
      match before with
      | [] => path
      | c :: _ => if c = '/' then path else before.reverse
  | _ => path

/-- The name that the rules give to a path. -/
def apply (rules : NameRules) (path : String) : String :=
  let chars := path.toList
  let chars := match rules.leading with
    | some leading => dropLeading leading.toList chars
    | none => chars
  let chars := if rules.dropExtension then withoutExtension chars else chars
  match rules.inFront with
  | some text => text ++ String.ofList chars
  | none => String.ofList chars

end NameRules

end TemplateBundle

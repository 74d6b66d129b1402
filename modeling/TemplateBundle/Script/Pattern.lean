import TemplateBundle.Script.Cursor

/-!
# Names and patterns

Names as they are used and bound, keys, and patterns of names. Expressions in them are read
through `Recur`.
-/

namespace TemplateBundle.Script

open Reading

/-- Check the use of a word as a name. -/
def checkName (context : Context) (text : String) (line : Nat) : Reading Unit := do
  if isReserved text then failAt line
  if context.strict && strictWords.contains text then report line
  if text == "yield" && context.generator then report line
  if text == "await" then
    if context.asynchronous || context.refusesAwait then report line
    keep { awaitNames := some line }
  if text == "arguments" && context.refusesArguments then report line

/-- A name in use. -/
def reference (context : Context) : Reading Term := do
  match ← current with
  | .name text _ =>
      let line ← line
      checkName context text line
      next
      pure (Term.ofName context.strict text line)
  | _ => fail

/-- A name to bind. -/
def bindingName (context : Context) : Reading Term := do
  let term ← reference context
  if !term.isTarget then report term.line
  pure term

/-- An expression up to a comma, which is no pattern. -/
def value (recur : Recur) (context : Context) : Reading Term := do
  let term ← recur (.assignment context)
  term.settle
  pure term

/-- A value behind an equals sign, if there is one. -/
def initializer? (recur : Recur) (context : Context) : Reading Bool := do
  if ← accepts "=" then
    let _ ← value recur context
    pure true
  else pure false

/-- The name of a field, as far as it is known. -/
structure Key where
  text? : Option String
  hidden : Bool
  line : Nat
  /-- The key is a plain name, which can stand for itself. -/
  isName : Bool

/-- A key of a field; a hidden one only in classes. -/
def key (recur : Recur) (context : Context) (inClass : Bool) : Reading Key := do
  let line ← line
  match ← current with
  | .name text _ =>
      next
      pure { text? := some text, hidden := false, line := line, isName := true }
  | .string written _ =>
      next
      pure { text? := some (String.ofList written), hidden := false, line := line, isName := false }
  | .number legacy =>
      if legacy && context.strict then report line
      next
      pure { text? := none, hidden := false, line := line, isName := false }
  | .hidden text =>
      if inClass then
        next
        pure { text? := some text, hidden := true, line := line, isName := false }
      else fail
  | .sign "[" =>
      next
      let _ ← value recur { context with allowsIn := true }
      expect "]"
      pure { text? := none, hidden := false, line := line, isName := false }
  | _ => fail

/-- A name or pattern with a value to fall back to. -/
def bindingElement (recur : Recur) (context : Context) : Reading Term := do
  let target ← recur (.binding context)
  let _ ← initializer? recur { context with allowsIn := true }
  pure target

/-- A pattern that binds the names. -/
def boundPattern (line : Nat) (names : List BoundName) : Term :=
  { line := line, form := .literal, isTarget := false, patternFault := none, bindingFault := none,
    names := names, coverFault := none }

/-- The rest of a pattern for arrays behind its opening bracket. -/
def arrayPattern (recur : Recur) (context : Context) (line : Nat) : Reading Term :=
  repeatUpTo (fun (names : List BoundName) => do
    if ← accepts "]" then return .done (boundPattern line names)
    if ← accepts "," then return .again names
    if ← accepts "..." then
      let rest ← recur (.binding context)
      expect "]"
      return .done (boundPattern line (names ++ rest.names))
    let element ← bindingElement recur context
    unless ← sees "]" do
      expect ","
    return .again (names ++ element.names)) context.bound []

/-- A field of a pattern for objects. -/
def fieldPattern (recur : Recur) (context : Context) : Reading Term := do
  let field ← key recur context false
  if field.isName && !(← sees ":") then
    let text := field.text?.getD ""
    checkName context text field.line
    let name := Term.ofName context.strict text field.line
    if !name.isTarget then report field.line
    let _ ← initializer? recur { context with allowsIn := true }
    pure name
  else
    expect ":"
    bindingElement recur context

/-- The rest of a pattern for objects behind its opening brace. -/
def objectPattern (recur : Recur) (context : Context) (line : Nat) : Reading Term :=
  repeatUpTo (fun (names : List BoundName) => do
    if ← accepts "\x7d" then return .done (boundPattern line names)
    if ← accepts "..." then
      let rest ← bindingName context
      expect "\x7d"
      return .done (boundPattern line (names ++ rest.names))
    let field ← fieldPattern recur context
    unless ← sees "\x7d" do
      expect ","
    return .again (names ++ field.names)) context.bound []

/-- A name or pattern to bind. -/
def binding (recur : Recur) (context : Context) : Reading Term := do
  let line ← line
  if ← accepts "[" then arrayPattern recur context line
  else if ← accepts "\x7b" then objectPattern recur context line
  else bindingName context

/-- The first name that stands twice. -/
def repeatedName? : List BoundName → Option BoundName
  | [] => none
  | name :: others =>
      match others.find? fun other => other.text == name.text with
      | some other => some other
      | none => repeatedName? others

end TemplateBundle.Script

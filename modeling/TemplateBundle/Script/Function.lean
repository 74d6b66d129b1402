import TemplateBundle.Script.Pattern

/-!
# Functions and classes

Parameters, bodies, methods, arrow functions and classes. A body that opens with the directive
for strict code is strict, and so are its parameters and its name.
-/

namespace TemplateBundle.Script

open Reading

/-- What a function is. -/
structure FunctionKind where
  generator : Bool := false
  asynchronous : Bool := false
  deriving Repr, Inhabited

/-- The parameters of a function. -/
structure Parameters where
  names : List BoundName
  /-- All parameters are plain names. -/
  simple : Bool
  count : Nat
  hasRest : Bool
  line : Nat
  deriving Repr, Inhabited

/-- The parameters between the parentheses. -/
def parameters (recur : Recur) (context : Context) : Reading Parameters := do
  let line ← line
  expect "("
  repeatUpTo (fun (read : Parameters) => do
    if ← accepts ")" then return .done read
    if ← accepts "..." then
      let rest ← recur (.binding context)
      expect ")"
      return .done { read with
        names := read.names ++ rest.names, simple := false, count := read.count + 1,
        hasRest := true }
    let target ← recur (.binding context)
    let hasInitializer ← initializer? recur context
    unless ← sees ")" do
      expect ","
    let isName := match target.form with
      | .name _ => true
      | _ => false
    return .again { read with
      names := read.names ++ target.names, simple := read.simple && isName && !hasInitializer,
      count := read.count + 1 })
    context.bound { names := [], simple := true, count := 0, hasRest := false, line := line }

/-- The directive for strict code as written. -/
def strictDirective : List Char :=
  "use strict".toList

/-- What is known at the start of a body: whether directives may still follow, whether the code
is strict, the line of the directive that says so, and the line of an escape that strict code
refuses. -/
structure Prologue where
  isOpen : Bool
  strict : Bool
  directive : Option Nat
  legacy : Option Nat

/-- The statements of a body up to its closing brace; the line of the directive for strict code,
if there is one. -/
def functionBody (recur : Recur) (context : Context) : Reading (Option Nat) := do
  expect "\x7b"
  repeatUpTo (fun (prologue : Prologue) => do
    if ← accepts "\x7d" then return .done prologue.directive
    let term ← recur (.statement { context with strict := prologue.strict } .list)
    match prologue.isOpen, term.form with
    | true, .string written legacy =>
        let legacyLine := prologue.legacy <|> if legacy then some term.line else none
        if written = strictDirective then
          reportAny legacyLine
          return .again { prologue with strict := true, directive := some term.line }
        else
          return .again { prologue with legacy := legacyLine }
    | _, _ => return .again { prologue with isOpen := false }) context.bound
    { isOpen := true, strict := context.strict, directive := none, legacy := none }

/-- Names that code which turned out to be strict does not bind. -/
def checkStrictNames (names : List BoundName) : Reading Unit :=
  names.forM fun name => do
    if Term.isRestricted name.text || strictWords.contains name.text then report name.line

/-- Check parameters once the body is known. -/
def checkParameters (context : Context) (unique : Bool) (read : Parameters)
    (directive : Option Nat) : Reading Unit := do
  let strict := context.strict || directive.isSome
  if !read.simple then reportAny directive
  if strict then checkStrictNames read.names
  if strict || unique || !read.simple then
    reportAny ((repeatedName? read.names).map BoundName.line)

/-- What stands around the body of a function. -/
def Context.ofFunction (context : Context) (kind : FunctionKind) (isMethod : Bool) : Context :=
  { bound := context.bound, strict := context.strict, generator := kind.generator,
    asynchronous := kind.asynchronous, allowsReturn := true, inFunction := true,
    inMethod := isMethod }

/-- The parameters and the body of a function; the line of the directive for strict code. -/
def functionRest (recur : Recur) (context : Context) (kind : FunctionKind) (isMethod : Bool) :
    Reading (Parameters × Option Nat) := do
  let inner := context.ofFunction kind isMethod
  let ((read, directive), _) ← apart do
    let (read, seen) ← apart (parameters recur inner)
    reportAny (seen.yields <|> seen.awaits)
    pure (read, ← functionBody recur inner)
  checkParameters context isMethod read directive
  pure (read, directive)

/-- The accessors among methods. -/
inductive Accessor where
  | getter
  | setter
  deriving DecidableEq, Repr

/-- The parameters and the body of a method. -/
def method (recur : Recur) (context : Context) (kind : FunctionKind) (accessor : Option Accessor) :
    Reading Unit := do
  let (read, _) ← functionRest recur context kind true
  match accessor with
  | some .getter => if read.count ≠ 0 then report read.line
  | some .setter => if read.count ≠ 1 || read.hasRest then report read.line
  | none => pure ()

/-- A function from the word `function` on. A declaration has to have a name, which belongs to
the code around it; the name of an expression belongs to the function. -/
def function (recur : Recur) (context : Context) (asynchronous isDeclaration : Bool) :
    Reading Unit := do
  expectWord "function"
  let kind : FunctionKind := { generator := ← accepts "*", asynchronous := asynchronous }
  let naming := if isDeclaration then context else
    { context with
      generator := kind.generator, asynchronous := kind.asynchronous, refusesAwait := false
      refusesArguments := false }
  let name ← if !isDeclaration && (← sees "(") then pure none else some <$> bindingName naming
  let (_, directive) ← functionRest recur context kind false
  if directive.isSome then
    checkStrictNames (name.elim [] Term.names)

/-! ## Arrow functions -/

/-- An item between the parentheses of a call or of the parameters of an arrow function. -/
structure Item where
  spread : Bool
  term : Term
  deriving Repr, Inhabited

/-- The items between two parentheses. -/
structure Items where
  items : List Item
  /-- A comma stands behind the last item. -/
  trailing : Bool
  /-- The lines of the parentheses. -/
  first : Nat
  last : Nat
  deriving Repr, Inhabited

/-- Items from the opening to the closing parenthesis. -/
def items (recur : Recur) (context : Context) : Reading Items := do
  let first ← line
  expect "("
  repeatUpTo (fun ((read, trailing) : List Item × Bool) => do
    let line ← line
    if ← accepts ")" then
      return .done { items := read.reverse, trailing := trailing, first := first, last := line }
    let spread ← accepts "..."
    let term ← recur (.assignment { context with allowsIn := true })
    let item : Item :=
      { spread := spread, term := if spread then { term with line := line } else term }
    if ← accepts "," then return .again (item :: read, true)
    unless ← sees ")" do
      fail
    return .again (item :: read, false)) context.bound ([], false)

/-- Check that an item can be a parameter. -/
def Item.checkParameter (item : Item) (isLast : Bool) : Reading Unit := do
  item.term.bindingFault.forM failAt
  if item.spread && (!isLast || item.term.form == .assignment) then failAt item.term.line

/-- Items turn out to be parameters. -/
def Items.toParameters (read : Items) (context : Context) : Reading Parameters := do
  let count := read.items.length
  read.items.zipIdx.forM fun (item, index) =>
    item.checkParameter (index + 1 == count && !read.trailing)
  let names := read.items.flatMap fun item => item.term.names
  if context.strict then checkStrictNames names
  let isPlain := fun (item : Item) => match item.term.form with
    | .name _ => !item.spread
    | _ => false
  pure
    { names := names, simple := read.items.all isPlain, count := count
      hasRest := read.items.any Item.spread, line := read.first }

/-- The arrow and the body of an arrow function. -/
def arrowRest (recur : Recur) (context : Context) (asynchronous : Bool) (read : Parameters)
    (seen : Suspensions) : Reading Term := do
  if ← newline then fail
  expect "=>"
  reportAny (seen.yields <|> seen.awaits <|> if asynchronous then seen.awaitNames else none)
  let inner : Context :=
    { context with
      generator := false, asynchronous := asynchronous, allowsReturn := true, inLoop := false
      inSwitch := false, labels := [], pending := [] }
  let (directive, _) ← apart do
    if ← sees "\x7b" then
      functionBody recur { inner with allowsIn := true }
    else
      let _ ← value recur { inner with allowsReturn := context.allowsReturn }
      pure none
  checkParameters context true read directive
  pure (Term.plain read.line .arrow)

/-! ## Classes -/

/-- A word at the head of a method is a modifier unless it is the key itself. -/
def isModifier (word : String) (sameLine : Bool) : Reading Bool := do
  if ← seesWord word then
    let lexeme ← peek
    let ends := match lexeme.token with
      | .sign text => ["(", ",", ":", "\x7d", "=", ";"].contains text
      | .stop => true
      | _ => false
    pure (!ends && !(sameLine && lexeme.newline))
  else pure false

/-- The word is a modifier that another sign than a star follows. -/
def isAccessor (word : String) : Reading Bool := do
  if ← isModifier word false then return (← peek).token != .sign "*"
  else pure false

/-- What stands before the key of a method. -/
structure MethodHead where
  kind : FunctionKind
  accessor : Option Accessor

/-- The method has something before its key. -/
def MethodHead.isMarked (head : MethodHead) : Bool :=
  head.kind.generator || head.kind.asynchronous || head.accessor.isSome

/-- The modifiers of a method. -/
def methodHead : Reading MethodHead := do
  if ← isAccessor "get" then
    next
    return { kind := {}, accessor := some .getter }
  if ← isAccessor "set" then
    next
    return { kind := {}, accessor := some .setter }
  let asynchronous ← isModifier "async" true
  if asynchronous then next
  let generator ← accepts "*"
  return { kind := { generator := generator, asynchronous := asynchronous }, accessor := none }

/-- What stands around the value of a field or a static block: code that is run like a
function. -/
def Context.ofField (context : Context) : Context :=
  { bound := context.bound, strict := true, inFunction := true, inMethod := true,
    refusesArguments := true }

/-- Statements up to the closing brace. -/
def statementsToBrace (recur : Recur) (context : Context) : Reading Unit :=
  repeatUpTo (fun (_ : Unit) => do
    if ← accepts "\x7d" then return .done ()
    let _ ← recur (.statement context .list)
    return .again ()) context.bound ()

/-- The method is the one that makes the objects of the class. -/
def isConstructor (isStatic : Bool) (field : Key) : Bool :=
  !isStatic && !field.hidden && field.text? == some "constructor"

/-- Check the name of a method of a class. -/
def checkMethodName (isStatic : Bool) (head : MethodHead) (field : Key) (hasConstructor : Bool) :
    Reading Unit := do
  if isConstructor isStatic field && (head.isMarked || hasConstructor) then report field.line
  if field.hidden && field.text? == some "constructor" then report field.line
  if isStatic && !field.hidden && field.text? == some "prototype" then report field.line

/-- Check the name of a field of a class. -/
def checkFieldName (isStatic : Bool) (field : Key) : Reading Unit := do
  if field.text? == some "constructor" then report field.line
  if isStatic && !field.hidden && field.text? == some "prototype" then report field.line

/-- An element of a class. The answer says whether the class has a constructor now. -/
def classElement (recur : Recur) (context : Context) (hasConstructor : Bool) : Reading Bool := do
  let isStatic ← isModifier "static" false
  if isStatic then next
  if isStatic && (← sees "\x7b") then
    next
    let _ ← apart (statementsToBrace recur { context.ofField with refusesAwait := true })
    return hasConstructor
  let head ← methodHead
  let field ← key recur context true
  if ← sees "(" then
    checkMethodName isStatic head field hasConstructor
    method recur context head.kind head.accessor
    return hasConstructor || isConstructor isStatic field
  if head.isMarked then fail
  checkFieldName isStatic field
  let _ ← apart (initializer? recur context.ofField)
  semicolon
  return hasConstructor

/-- A class from the word `class` on. All code in it is strict. -/
def classFrom (recur : Recur) (context : Context) (needsName : Bool) : Reading Unit := do
  expectWord "class"
  let context := { context with strict := true }
  let hasName := needsName || !((← sees "\x7b") || (← seesWord "extends"))
  if hasName then
    let _ ← bindingName context
  if ← acceptsWord "extends" then
    let parent ← recur (.operand context true)
    parent.settle
  expect "\x7b"
  repeatUpTo (fun (hasConstructor : Bool) => do
    if ← accepts "\x7d" then return .done ()
    if ← accepts ";" then return .again hasConstructor
    return .again (← classElement recur context hasConstructor)) context.bound false

end TemplateBundle.Script

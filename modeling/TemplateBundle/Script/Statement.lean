import TemplateBundle.Script.Expression

/-!
# Statements

Declarations, control flow and blocks. Declaring a name twice and a constant without a value are
no faults here; jumps need a loop, a switch or a label to jump to.
-/

namespace TemplateBundle.Script

open Reading

/-! ## Declarations -/

/-- How names are declared. -/
inductive Declaration where
  | variable
  /-- By `let` or `const`. -/
  | lexical
  deriving DecidableEq, Repr

/-- Check the names of a declaration: `let` is no name for `let`. -/
def checkDeclared (kind : Declaration) (target : Term) : Reading Unit := do
  if kind == .lexical then
    target.names.forM fun name => do
      if name.text == "let" then report name.line

/-- The value of a declared name or pattern; a pattern has to have one. -/
def declaredValue (recur : Recur) (context : Context) (target : Term) : Reading Bool := do
  let hasValue ← initializer? recur context
  if !hasValue && target.form == .literal then fail
  pure hasValue

/-- A declared name or pattern with its value. -/
def declarator (recur : Recur) (context : Context) (kind : Declaration) : Reading Unit := do
  let target ← recur (.binding context)
  checkDeclared kind target
  let _ ← declaredValue recur context target

/-- Further names and patterns behind commas. -/
def moreDeclarators (recur : Recur) (context : Context) (kind : Declaration) : Reading Unit :=
  repeatUpTo (fun (_ : Unit) => do
    if ← accepts "," then
      declarator recur context kind
      return .again ()
    return .done ()) context.bound ()

/-- Names and patterns behind the word that declares them. -/
def declarations (recur : Recur) (context : Context) (kind : Declaration) : Reading Unit := do
  declarator recur context kind
  moreDeclarators recur context kind

/-- The word `let` comes next and declares names: a name, a bracket or a brace follows. -/
def seesLet : Reading Bool := do
  if ← seesWord "let" then
    match (← peek).token with
    | .name text _ => pure (!isReserved text)
    | .sign sign => pure (sign == "[" || sign == "\x7b")
    | _ => pure false
  else pure false

/-- The kind of declaration whose word comes next. -/
def seesDeclaration? : Reading (Option Declaration) := do
  if ← seesWord "var" then pure (some .variable)
  else if (← seesWord "const") || (← seesLet) then pure (some .lexical)
  else pure none

/-! ## Loops -/

/-- An expression in parentheses. -/
def condition (recur : Recur) (context : Context) : Reading Unit := do
  expect "("
  let _ ← innerExpression recur context
  expect ")"

/-- What stands around the body of a loop. The labels directly before it name it. -/
def Context.ofLoop (context : Context) : Context :=
  { context with
    inLoop := true
    labels := context.labels.map fun (name, isLoop) =>
      (name, isLoop || context.pending.contains name)
    pending := [] }

/-- The body of a loop. -/
def loopBody (recur : Recur) (context : Context) : Reading Unit := do
  let _ ← recur (.statement context.ofLoop .body)

/-- The rest of the head of a loop with a condition and a step, behind the first semicolon. -/
def countingRest (recur : Recur) (context : Context) : Reading Unit := do
  unless ← sees ";" do
    let _ ← innerExpression recur context
  expect ";"
  unless ← sees ")" do
    let _ ← innerExpression recur context
  expect ")"

/-- The rest of the head of a loop over values, or over keys, behind what takes them. -/
def rangeRest (recur : Recur) (context : Context) (values : Bool) : Reading Unit := do
  next
  if values then
    let _ ← value recur context
  else
    let _ ← innerExpression recur context
  expect ")"

/-- The loop goes over values. -/
def seesOf : Reading Bool :=
  seesWord "of"

/-- The head of a loop that declares names, from the word that declares them on. -/
def declaringHead (recur : Recur) (context : Context) (kind : Declaration) (awaits : Bool) :
    Reading Unit := do
  let inner := { context with allowsIn := false }
  next
  let target ← recur (.binding inner)
  checkDeclared kind target
  if (← seesOf) || (!awaits && (← seesWord "in")) then
    rangeRest recur context (← seesOf)
  else if awaits then fail
  else
    let hasValue ← initializer? recur inner
    if (← seesOf) || (← seesWord "in") then
      let values ← seesOf
      if values || kind == .lexical || context.strict || target.form == .literal then
        report target.line
      rangeRest recur context values
    else
      if !hasValue && target.form == .literal then fail
      moreDeclarators recur inner kind
      expect ";"
      countingRest recur context

/-- Check what a loop assigns its values to. -/
def checkLoopTarget (target : Term) : Reading Unit := do
  if target.form == .literal then target.patternFault.forM failAt else checkTarget target

/-- The head of a loop that starts with an expression. -/
def expressionHead (recur : Recur) (context : Context) (awaits : Bool) : Reading Unit := do
  let startsWithLet ← seesWord "let"
  let startsWithAsync ← seesWord "async"
  let first ← expression recur { context with allowsIn := false }
  if ← seesOf then
    let isAsync := startsWithAsync && !awaits && first.form == .name "async"
    if startsWithLet || isAsync then fail
    checkLoopTarget first
    rangeRest recur context true
  else if awaits then fail
  else if ← seesWord "in" then
    checkLoopTarget first
    rangeRest recur context false
  else
    first.settle
    expect ";"
    countingRest recur context

/-- A loop from the word `for` on. -/
def forLoop (recur : Recur) (context : Context) : Reading Unit := do
  next
  let awaits ← if context.asynchronous then acceptsWord "await" else pure false
  expect "("
  if !awaits && (← accepts ";") then countingRest recur context
  else
    match ← seesDeclaration? with
    | some kind => declaringHead recur context kind awaits
    | none => expressionHead recur context awaits
  loopBody recur context

/-! ## Jumps -/

/-- The label of a jump, if there is one. -/
def jumpLabel? : Reading (Option String) := do
  if ← newline then pure none
  else
    match ← current with
    | .name text _ =>
        if isReserved text then fail
        next
        pure (some text)
    | _ => pure none

/-- A jump out of a statement. -/
def breakStatement (context : Context) : Reading Unit := do
  let line ← line
  next
  match ← jumpLabel? with
  | some label => unless context.labels.any (·.1 == label) do report line
  | none => unless context.inLoop || context.inSwitch do report line
  semicolon

/-- A jump to the next round of a loop. -/
def continueStatement (context : Context) : Reading Unit := do
  let line ← line
  next
  match ← jumpLabel? with
  | some label => unless context.labels.contains (label, true) do report line
  | none => unless context.inLoop do report line
  semicolon

/-- A jump out of a function. -/
def returnStatement (recur : Recur) (context : Context) : Reading Unit := do
  if !context.allowsReturn then report (← line)
  next
  unless (← newline) || (← sees ";") || (← sees "\x7d") || (← current) == .stop do
    let _ ← innerExpression recur context
  semicolon

/-- An exception; its value has to start on the same line. -/
def throwStatement (recur : Recur) (context : Context) : Reading Unit := do
  next
  if ← newline then fail
  let _ ← innerExpression recur context
  semicolon

/-! ## Other statements -/

/-- A choice from the word `if` on. -/
def ifStatement (recur : Recur) (context : Context) : Reading Unit := do
  next
  condition recur context
  let _ ← recur (.statement context .branch)
  if ← acceptsWord "else" then
    let _ ← recur (.statement context .branch)

/-- A loop that tests its condition behind its body. -/
def doLoop (recur : Recur) (context : Context) : Reading Unit := do
  next
  loopBody recur context
  expectWord "while"
  condition recur context
  let _ ← accepts ";"

/-- The statements of a case of a switch. -/
def caseBody (recur : Recur) (context : Context) : Reading Unit :=
  repeatUpTo (fun (_ : Unit) => do
    if (← sees "\x7d") || (← seesWord "case") || (← seesWord "default") then return .done ()
    let _ ← recur (.statement context .list)
    return .again ()) context.bound ()

/-- A switch; it has at most one default case. -/
def switchStatement (recur : Recur) (context : Context) : Reading Unit := do
  next
  condition recur context
  expect "\x7b"
  let inner := { context with inSwitch := true }
  repeatUpTo (fun (hasDefault : Bool) => do
    let line ← line
    if ← accepts "\x7d" then return .done ()
    let isDefault ← seesWord "default"
    if isDefault then
      next
      if hasDefault then report line
    else
      expectWord "case"
      let _ ← innerExpression recur context
    expect ":"
    caseBody recur inner
    return .again (hasDefault || isDefault)) context.bound false

/-- A block from its opening brace on. -/
def block (recur : Recur) (context : Context) : Reading Unit := do
  expect "\x7b"
  statementsToBrace recur context

/-- A block whose exceptions are handled, and the blocks that handle them. -/
def tryStatement (recur : Recur) (context : Context) : Reading Unit := do
  next
  block recur context
  let catches ← acceptsWord "catch"
  if catches then
    if ← accepts "(" then
      let _ ← recur (.binding context)
      expect ")"
    block recur context
  if ← acceptsWord "finally" then block recur context
  else unless catches do fail

/-- A statement whose names are looked up in an object first, which strict code refuses. -/
def withStatement (recur : Recur) (context : Context) : Reading Unit := do
  if context.strict then report (← line)
  next
  condition recur context
  let _ ← recur (.statement context .body)

/-- A function among statements. A single one may only stand behind a label or in a branch, if
the code is not strict. -/
def functionStatement (recur : Recur) (context : Context) (place : StatementPlace) :
    Reading Unit := do
  match place with
  | .list => function recur context false true
  | .body => fail
  | .branch | .labelled =>
      if context.strict then fail
      if (← peek).token == .sign "*" then fail
      function recur context false true

/-- A label with its statement. A function may only follow where the label is one of a list of
statements. -/
def labelledStatement (recur : Recur) (context : Context) (pending : List String)
    (place : StatementPlace) (text : String) : Reading Unit := do
  let line ← line
  checkName context text line
  if context.labels.any (·.1 == text) then report line
  next
  expect ":"
  let inner :=
    { context with labels := (text, false) :: context.labels, pending := text :: pending }
  let behind := match place with
    | .list | .labelled => StatementPlace.labelled
    | .body | .branch => StatementPlace.body
  let _ ← recur (.statement inner behind)

/-- An expression as a statement. -/
def expressionStatement (recur : Recur) (context : Context) : Reading Term := do
  let term ← innerExpression recur context
  semicolon
  pure term

/-- Declarations among statements. -/
def declarationStatement (recur : Recur) (context : Context) (kind : Declaration)
    (place : StatementPlace) : Reading Unit := do
  if kind == .lexical && place != .list then fail
  next
  declarations recur context kind
  semicolon

/-- The word is a label: it may be a name, and a colon follows. -/
def seesLabel (word : String) : Reading Bool := do
  if isReserved word then pure false else return (← peek).token == .sign ":"

/-- A statement that starts with a name or a word. `pending` are the labels directly before it. -/
def wordStatement (recur : Recur) (outer : Context) (place : StatementPlace) (word : String) :
    Reading Term := do
  let context := { outer with pending := [] }
  let line ← line
  let behind := fun (parser : Reading Unit) => do
    parser
    pure (Term.other line)
  match word with
  | "var" => behind (declarationStatement recur context .variable place)
  | "const" => behind (declarationStatement recur context .lexical place)
  | "if" => behind (ifStatement recur context)
  | "for" => behind (forLoop recur outer)
  | "while" => behind do
      next
      condition recur context
      loopBody recur outer
  | "do" => behind (doLoop recur outer)
  | "continue" => behind (continueStatement context)
  | "break" => behind (breakStatement context)
  | "return" => behind (returnStatement recur context)
  | "with" => behind (withStatement recur context)
  | "switch" => behind (switchStatement recur context)
  | "throw" => behind (throwStatement recur context)
  | "try" => behind (tryStatement recur context)
  | "debugger" => behind do
      next
      semicolon
  | "function" => behind (functionStatement recur context place)
  | "class" => behind do
      if place != .list then fail
      classFrom recur context true
  | _ =>
      if ← seesLabel word then
        behind (labelledStatement recur context outer.pending place word)
      else if ← seesAsyncFunction then
        behind do
          if place != .list then fail
          next
          function recur context true true
      else if ← seesLet then
        if place == .list then behind (declarationStatement recur context .lexical place)
        else
          if (← peek).token == .sign "[" then fail
          expressionStatement recur context
      else expressionStatement recur context

/-- A statement. -/
def statement (recur : Recur) (outer : Context) (place : StatementPlace) : Reading Term := do
  let context := { outer with pending := [] }
  let line ← line
  match ← current with
  | .sign "\x7b" =>
      block recur context
      pure (Term.other line)
  | .sign ";" =>
      next
      pure (Term.other line)
  | .name word escaped =>
      if escaped then
        if ← seesLabel word then
          labelledStatement recur context outer.pending place word
          pure (Term.other line)
        else expressionStatement recur context
      else wordStatement recur outer place word
  | _ => expressionStatement recur context

end TemplateBundle.Script

import TemplateBundle.Script.Function

/-!
# Expressions

Literals, operands, operators and assignments. What stands between parentheses, brackets or
braces may turn out to be a pattern, so its `Term` keeps why it would or would not be one.
-/

namespace TemplateBundle.Script

open Reading

/-- An expression in which operators and commas may stand. -/
def expression (recur : Recur) (context : Context) : Reading Term := do
  let first ← recur (.assignment context)
  if ← sees "," then
    first.settle
    repeatUpTo (fun (_ : Unit) => do
      if ← accepts "," then
        let _ ← value recur context
        return .again ()
      return .done (Term.other first.line)) context.bound ()
  else pure first

/-- An expression between brackets or the like, where `in` may be used. -/
def innerExpression (recur : Recur) (context : Context) : Reading Term := do
  let term ← expression recur { context with allowsIn := true }
  term.settle
  pure term

/-- A template from its opening mark on. Only a tagged one may hold any escape. -/
def template (recur : Recur) (context : Context) (tagged : Bool) : Reading Unit :=
  repeatUpTo (fun (_ : Unit) => do
    let place := (← get).lexeme.after
    let read ← templateText (place.rest.length + 1) place.rest place.line none
    if !tagged then read.fault.forM failAt
    resume read.after
    if read.opens then
      let _ ← innerExpression recur context
      unless ← sees "\x7d" do
        fail
      return .again ()
    return .done ()) context.bound ()

/-- The arguments of a call. -/
def callArguments (recur : Recur) (context : Context) : Reading Unit := do
  let read ← items recur context
  read.items.forM fun item => item.term.settle

/-! ## Arrays and objects -/

/-- The first of two faults. -/
def firstFault (first second : Option Nat) : Option Nat :=
  first <|> second

/-- Add a part to an array or object. -/
def Term.withPart (whole part : Term) : Term :=
  { whole with
    patternFault := firstFault whole.patternFault part.patternFault
    bindingFault := firstFault whole.bindingFault part.bindingFault
    names := whole.names ++ part.names
    coverFault := firstFault whole.coverFault part.coverFault }

/-- The rest of a pattern, which has to come last and has no value to fall back to. -/
def Term.asRest (term : Term) (line : Nat) (isLast : Bool) : Term :=
  if isLast && term.form != .assignment then term
  else { term with patternFault := some line, bindingFault := some line }

/-- The rest of the fields of an object, which has to be a target of its own. -/
def Term.asFieldRest (term : Term) (line : Nat) (isLast : Bool) : Term :=
  let term := term.asRest line isLast
  let isName := match term.form with
    | .name _ => true
    | _ => false
  { term with
    patternFault := if term.isTarget then term.patternFault else some line
    bindingFault := if isName then term.bindingFault else some line }

/-- An array or object without parts. -/
def Term.emptyLiteral (line : Nat) : Term :=
  { line := line, form := .literal, isTarget := false, patternFault := none, bindingFault := none,
    names := [], coverFault := none }

/-- An array from its opening bracket on. -/
def arrayLiteral (recur : Recur) (context : Context) : Reading Term := do
  let line ← line
  let context := { context with allowsIn := true }
  expect "["
  repeatUpTo (fun (whole : Term) => do
    if ← accepts "]" then return .done whole
    if ← accepts "," then return .again whole
    let start ← Reading.line
    let spread ← accepts "..."
    let term ← recur (.assignment context)
    let isLast ← sees "]"
    unless isLast do
      expect ","
    return .again (whole.withPart (if spread then term.asRest start isLast else term)))
    context.bound (Term.emptyLiteral line)

/-- A value that belongs to a name, which only patterns may have. -/
def coveredName (recur : Recur) (context : Context) (name : Term) : Reading Term := do
  if ← initializer? recur context then pure { name with coverFault := some name.line }
  else pure name

/-- A field of an object. -/
def objectField (recur : Recur) (context : Context) : Reading Term := do
  let start ← line
  let head ← methodHead
  let field ← key recur context false
  if ← sees "(" then
    method recur context head.kind head.accessor
    pure (Term.other start)
  else if head.isMarked then fail
  else if ← accepts ":" then recur (.assignment context)
  else if field.isName then
    let text := field.text?.getD ""
    checkName context text field.line
    coveredName recur context (Term.ofName context.strict text field.line)
  else fail

/-- An object from its opening brace on. -/
def objectLiteral (recur : Recur) (context : Context) : Reading Term := do
  let line ← line
  let context := { context with allowsIn := true }
  expect "\x7b"
  repeatUpTo (fun (whole : Term) => do
    if ← accepts "\x7d" then return .done whole
    let start ← Reading.line
    let part ← do
      if ← accepts "..." then
        let term ← recur (.assignment context)
        pure (term.asFieldRest start (← sees "\x7d"))
      else objectField recur context
    unless ← sees "\x7d" do
      expect ","
    return .again (whole.withPart part)) context.bound (Term.emptyLiteral line)

/-! ## Operands -/

/-- Items in parentheses turn out to be an expression: at least one, none of them spread, and no
comma behind the last one. -/
def Items.toTerm (read : Items) : Reading Term := do
  read.items.forM fun item => do
    if item.spread then failAt item.term.line
    item.term.settle
  if read.trailing then failAt read.last
  match read.items with
  | [] => if (← current) == .stop then fail else failAt read.first
  | [item] => pure (Term.parenthesised read.first item.term)
  | _ => pure (Term.other read.first)

/-- A string literal, a number and the like. -/
def literal (context : Context) : Reading Term := do
  let line ← line
  match ← current with
  | .number legacy =>
      if legacy && context.strict then report line
      next
      pure (Term.other line)
  | .string written legacy =>
      if legacy && context.strict then report line
      next
      pure (Term.plain line (.string written legacy))
  | _ => fail

/-- A regular expression, whose first sign was read as a division. -/
def regularExpression : Reading Term := do
  let place := (← get).lexeme.start
  resume (← regexAt place)
  pure (Term.other place.line)

/-- What `super` stands for: a field of the parent, in methods, or its constructor, in any
function. -/
def superOperand (context : Context) (calls : Bool) : Reading Term := do
  let line ← line
  expectWord "super"
  if (← sees ".") || (← sees "[") then
    if !context.inMethod then failAt line
  else
    unless calls && (← sees "(") do
      fail
    if !context.inFunction then report line
  pure (Term.other line)

/-- An import while the script runs. A script has no properties of its own module. -/
def importOperand (recur : Recur) (context : Context) (calls : Bool) : Reading Term := do
  let line ← line
  expectWord "import"
  unless calls && (← sees "(") do
    failAt line
  let read ← items recur context
  read.items.forM fun item => do
    if item.spread then failAt item.term.line
    item.term.settle
  if read.items.isEmpty || 2 < read.items.length then failAt read.last
  pure (Term.other line)

/-- The function `new` was called on, or a new value. -/
def creation (recur : Recur) (context : Context) : Reading Term := do
  let line ← line
  expectWord "new"
  if ← accepts "." then
    expectWord "target"
    if !context.inFunction then report line
    pure (Term.other line)
  else
    let callee ← recur (.operand context false)
    callee.settle
    if ← sees "?." then fail
    if ← sees "(" then callArguments recur context
    pure (Term.other line)

/-- A function that starts with the word `async` comes next. -/
def seesAsyncFunction : Reading Bool := do
  if ← seesWord "async" then
    let lexeme ← peek
    pure (lexeme.token == .name "function" false && !lexeme.newline)
  else pure false

/-- A word that stands for a value or starts an operand, or a name. -/
def wordOperand (recur : Recur) (context : Context) (calls : Bool) (word : String) :
    Reading Term := do
  let line ← line
  match word with
  | "this" | "null" | "true" | "false" =>
      next
      pure (Term.other line)
  | "function" =>
      function recur context false false
      pure (Term.other line)
  | "class" =>
      classFrom recur context false
      pure (Term.other line)
  | "new" => creation recur context
  | "super" => superOperand context calls
  | "import" => importOperand recur context calls
  | _ =>
      if ← seesAsyncFunction then
        next
        function recur context true false
        pure (Term.other line)
      else reference context

/-- An operand without anything behind it. -/
def primary (recur : Recur) (context : Context) (calls : Bool) : Reading Term := do
  let line ← line
  match ← current with
  | .name word false => wordOperand recur context calls word
  | .name _ true => reference context
  | .number _ | .string _ _ => literal context
  | .sign "(" =>
      let (read, seen) ← apart (items recur context)
      keep seen
      read.toTerm
  | .sign "[" => arrayLiteral recur context
  | .sign "\x7b" => objectLiteral recur context
  | .sign "\x60" =>
      template recur context false
      pure (Term.other line)
  | .sign "/" | .sign "/=" => regularExpression
  | _ => fail

/-- The name of a field behind a dot. -/
def fieldName (line : Nat) : Reading Term := do
  match ← current with
  | .name _ _ =>
      next
      pure (Term.field line false)
  | .hidden _ =>
      next
      pure (Term.field line true)
  | _ => fail

/-- What may follow an optional dot. -/
def optionalField (recur : Recur) (context : Context) (line : Nat) : Reading Unit := do
  match ← current with
  | .sign "(" => callArguments recur context
  | .sign "[" =>
      next
      let _ ← innerExpression recur context
      expect "]"
  | _ =>
      let _ ← fieldName line

/-- An operand, and whether an optional dot stands in it. -/
structure Chain where
  term : Term
  optional : Bool

/-- One field, call or tagged template behind an operand. -/
def subscript (recur : Recur) (context : Context) (calls : Bool) (chain : Chain) :
    Reading (Round Chain Term) := do
  let line := chain.term.line
  let result := fun (term : Term) =>
    Round.again (α := Term)
      { chain with term := if chain.optional then Term.plain line term.form else term }
  match ← current with
  | .sign "." =>
      chain.term.settle
      next
      return result (← fieldName line)
  | .sign "[" =>
      chain.term.settle
      next
      let _ ← innerExpression recur context
      expect "]"
      return result (Term.field line false)
  | .sign "\x60" =>
      chain.term.settle
      if chain.optional then fail
      template recur context true
      return result (Term.other line)
  | .sign "(" =>
      if calls then
        chain.term.settle
        callArguments recur context
        return result (Term.other line)
      else return .done chain.term
  | .sign "?." =>
      if calls then
        chain.term.settle
        next
        if ← sees "\x60" then fail
        optionalField recur context line
        return .again { term := Term.other line, optional := true }
      else return .done chain.term
  | _ => return .done chain.term

/-- All that follows an operand directly. -/
def subscripts (recur : Recur) (context : Context) (calls : Bool) (first : Term) : Reading Term :=
  repeatUpTo (subscript recur context calls) context.bound { term := first, optional := false }

/-- An operand with its fields and calls. -/
def operand (recur : Recur) (context : Context) (calls : Bool) : Reading Term := do
  subscripts recur context calls (← primary recur context calls)

/-! ## Operators -/

/-- Check that an operand can be assigned to. -/
def checkTarget (term : Term) : Reading Unit := do
  if !term.isTarget then report term.line

/-- A step up or down behind an operand. -/
def postfixStep (term : Term) : Reading Term := do
  if ((← sees "++") || (← sees "--")) && !(← newline) then
    checkTarget term
    next
    pure (Term.other term.line)
  else pure term

/-- The operators that stand before their operand. -/
def isPrefixSign (sign : String) : Bool :=
  ["+", "-", "!", "~"].contains sign

/-- The words that stand before their operand. -/
def isPrefixWord (word : String) : Bool :=
  ["delete", "typeof", "void"].contains word

/-- Check what is deleted: no hidden field, and no name in strict code. -/
def checkDeleted (context : Context) (operand : Term) : Reading Unit := do
  match operand.form with
  | .field true => report operand.line
  | .name _ => if context.strict then report operand.line
  | _ => pure ()

/-- The operand of an operator that stands before it. -/
def prefixed (recur : Recur) (context : Context) : Reading Term := do
  let line ← line
  next
  let operand ← recur (.unary context)
  operand.settle
  pure { operand with line := line }

/-- An operand with the operators directly around it. -/
def unary (recur : Recur) (context : Context) : Reading Term := do
  let line ← line
  match ← current with
  | .sign sign =>
      if isPrefixSign sign then
        let _ ← prefixed recur context
        pure (Term.plain line .unary)
      else if sign = "++" ∨ sign = "--" then
        next
        let operand ← recur (.unary context)
        checkTarget operand
        pure (Term.other line)
      else postfixStep (← operand recur context true)
  | .name word false =>
      if isPrefixWord word then
        next
        let operand ← recur (.unary context)
        operand.settle
        if word = "delete" then checkDeleted context operand
        pure (Term.plain line .unary)
      else if word = "await" && context.asynchronous then
        keep { awaits := some line }
        let _ ← prefixed recur context
        pure (Term.plain line .unary)
      else postfixStep (← operand recur context true)
  | _ => postfixStep (← operand recur context true)

/-- An operator between two operands with how tightly it binds. -/
def binaryOperators : List (String × Nat) :=
  [("??", 1), ("||", 1), ("&&", 2), ("|", 3), ("^", 4), ("&", 5), ("==", 6), ("!=", 6), ("===", 6),
    ("!==", 6), ("<", 7), (">", 7), ("<=", 7), (">=", 7), ("<<", 8), (">>", 8), (">>>", 8),
    ("+", 9), ("-", 9), ("*", 10), ("/", 10), ("%", 10), ("**", 11)]

/-- How tightly comparisons bind. -/
def comparisonRank : Nat := 7

/-- How tightly the operator for powers binds, which groups from the right. -/
def powerRank : Nat := 11

/-- The operator that comes next. -/
def binaryOperator? (context : Context) : Reading (Option (String × Nat)) := do
  match ← current with
  | .sign sign => return binaryOperators.find? fun entry => entry.1 == sign
  | .name "instanceof" false => return some ("instanceof", comparisonRank)
  | .name "in" false => return if context.allowsIn then some ("in", comparisonRank) else none
  | _ => return none

/-- Operands that wait for what stands behind their operator; the last one comes first. -/
abbrev Waiting := List (Term × String × Nat)

/-- The term that an operator makes. The operator for missing values does not mix with the
logical ones. -/
def combine (left : Term) (operator : String) (right : Term) : Reading Term := do
  left.settle
  right.settle
  let refuse := fun (form : Form) => do
    if left.form == form then report left.line
    if right.form == form then report right.line
  if operator = "??" then
    refuse .logical
    pure (Term.plain left.line .coalesce)
  else if operator = "||" ∨ operator = "&&" then
    refuse .coalesce
    pure (Term.plain left.line .logical)
  else pure (Term.other left.line)

/-- Combine the last operand with those that wait for it and bind at least as tightly. -/
def reduce (rank : Nat) : Waiting → Term → Reading (Waiting × Term)
  | [], right => pure ([], right)
  | (left, operator, leftRank) :: waiting, right => do
      if rank < leftRank || (rank == leftRank && rank != powerRank) then
        reduce rank waiting (← combine left operator right)
      else pure ((left, operator, leftRank) :: waiting, right)

/-- An operand behind an operator. The name of a hidden field can be looked up in an object, where
nothing binds it more tightly. -/
def rightOperand (recur : Recur) (context : Context) (rank : Nat) : Reading Term := do
  match ← current with
  | .hidden _ =>
      let line ← line
      next
      unless rank < comparisonRank && context.allowsIn && (← seesWord "in") do
        fail
      pure (Term.other line)
  | _ => unary recur context

/-- Operators and operands behind a first operand. -/
def binary (recur : Recur) (context : Context) (first : Term) : Reading Term :=
  repeatUpTo (fun ((waiting, last) : Waiting × Term) => do
    match ← binaryOperator? context with
    | none => return .done (← reduce 0 waiting last).2
    | some (operator, rank) =>
        if operator = "**" && last.form == .unary then fail
        let (waiting, left) ← reduce rank waiting last
        next
        let right ← rightOperand recur context rank
        return .again ((left, operator, rank) :: waiting, right)) context.bound ([], first)

/-- A choice between two values behind its condition. -/
def conditional (recur : Recur) (context : Context) (condition : Term) : Reading Term := do
  if ← accepts "?" then
    condition.settle
    let _ ← value recur { context with allowsIn := true }
    expect ":"
    let _ ← value recur context
    pure (Term.other condition.line)
  else pure condition

/-! ## Assignments -/

/-- The operators that assign the result of another operator. -/
def updateOperators : List String :=
  ["+=", "-=", "*=", "/=", "%=", "**=", "<<=", ">>=", ">>>=", "&=", "|=", "^=", "&&=", "||=",
    "??="]

/-- An assignment behind its left side. -/
def assignmentRest (recur : Recur) (context : Context) (left : Term) : Reading Term := do
  match ← current with
  | .sign "=" =>
      if left.form == .literal then left.patternFault.forM failAt else checkTarget left
      next
      let _ ← value recur context
      pure { left with form := .assignment, isTarget := false, coverFault := none }
  | .sign sign =>
      if updateOperators.contains sign then
        left.settle
        checkTarget left
        next
        let _ ← value recur context
        pure (Term.other left.line)
      else pure left
  | _ => pure left

/-- The word `yield` with its value, which may be missing. -/
def suspension (recur : Recur) (context : Context) : Reading Term := do
  let line ← line
  keep { yields := some line }
  next
  let ends ← do
    match ← current with
    | .sign sign => pure ([")", "]", "\x7d", ",", ";", ":"].contains sign)
    | .name "in" false => pure true
    | .stop => pure true
    | _ => pure false
  if (← newline) || ends then pure (Term.other line)
  else
    let _ ← accepts "*"
    let _ ← value recur context
    pure (Term.other line)

/-- An asynchronous arrow function with one plain parameter comes next, behind its first word. -/
def seesAsyncParameter : Reading Bool := do
  if ← seesWord "async" then
    let lexeme ← peek
    match lexeme.token with
    | .name text _ => pure (!lexeme.newline && !isReserved text)
    | _ => pure false
  else pure false

/-- The parameters of an arrow function with a single name. -/
def singleParameter (context : Context) (name : Term) : Reading Parameters := do
  if context.strict then checkStrictNames name.names
  pure
    { names := name.names, simple := true, count := 1, hasRest := false, line := name.line }

/-- An arrow function, or an operand with its fields and calls, where an arrow function may
stand. -/
def arrowOrOperand (recur : Recur) (context : Context) : Reading Term := do
  let line ← line
  let isAsync ← seesWord "async"
  if ← sees "(" then
    let (read, seen) ← apart (items recur context)
    if ← sees "=>" then
      arrowRest recur context false (← read.toParameters context) seen
    else
      keep seen
      subscripts recur context true (← read.toTerm)
  else if ← seesAsyncParameter then
    next
    let (name, seen) ← apart (reference context)
    unless ← sees "=>" do
      fail
    arrowRest recur context true { ← singleParameter context name with line := line } seen
  else
    let name ← primary recur context true
    match name.form with
    | .name _ =>
        if ← sees "=>" then
          arrowRest recur context false (← singleParameter context name) {}
        else if isAsync && (← sees "(") && !(← newline) then
          let (read, seen) ← apart (items recur context)
          if ← sees "=>" then
            let read ← read.toParameters context
            arrowRest recur context true { read with line := line } seen
          else
            keep seen
            read.items.forM fun item => item.term.settle
            subscripts recur context true (Term.other line)
        else subscripts recur context true name
    | _ => subscripts recur context true name

/-- The token may start an operand behind which an arrow may stand. -/
def mayStartArrow (context : Context) (token : Token) : Bool :=
  match token with
  | .sign sign => sign == "("
  | .name word escaped =>
      escaped || !(isPrefixWord word || (word == "await" && context.asynchronous))
  | _ => false

/-- An expression up to a comma. -/
def assignment (recur : Recur) (context : Context) : Reading Term := do
  if context.generator && (← seesWord "yield") then suspension recur context
  else
    let first ← do
      if mayStartArrow context (← current) then
        let term ← arrowOrOperand recur context
        if term.form == .arrow then return term
        postfixStep term
      else rightOperand recur context 0
    let whole ← conditional recur context (← binary recur context first)
    assignmentRest recur context whole

end TemplateBundle.Script

import TemplateBundle.Script.Check

/-!
# Parts of parsers

The parsers for items, bodies of functions and operands, cut into what comes before and behind the
parts that they hold.
-/

namespace TemplateBundle.Script

open Reading

variable {recur : Recur} {context : Context}

/-- What may follow an item between parentheses. -/
def behindItem (read : List Item) (item : Item) : Reading (Round (List Item × Bool) Items) := do
  if ← accepts "," then return .again (item :: read, true)
  unless ← sees ")" do
    fail
  return .again (item :: read, false)

/-- An item between parentheses, or the closing one. -/
def itemRound (recur : Recur) (context : Context) (first : Nat) (state : List Item × Bool) :
    Reading (Round (List Item × Bool) Items) := do
  let line ← line
  if ← accepts ")" then
    return .done { items := state.1.reverse, trailing := state.2, first := first, last := line }
  let spread ← accepts "..."
  let term ← recur (.assignment { context with allowsIn := true })
  behindItem state.1
    { spread := spread, term := if spread then { term with line := line } else term }

theorem items_eq : items recur context = (do
    let first ← line
    expect "("
    repeatUpTo (itemRound recur context first) context.bound ([], false)) :=
  rfl

/-- Items between parentheses as an operand, or as the parameters of an arrow function. -/
def groupOrArrow (recur : Recur) (context : Context) : Reading Term := do
  let (read, seen) ← apart (items recur context)
  if ← sees "=>" then
    arrowRest recur context false (← read.toParameters context) seen
  else
    keep seen
    subscripts recur context true (← read.toTerm)

/-- What may follow an operand that is no group. A name may be the parameter of an arrow function. -/
def nameOrArrow (recur : Recur) (context : Context) (line : Nat) (isAsync : Bool) (name : Term) :
    Reading Term := do
  match name.form with
  | .name _ =>
      if ← sees "=>" then
        arrowRest recur context false (← singleParameter context name) {}
      else if isAsync && (← sees "(") && !(← newline) then
        let (read, seen) ← apart (items recur context)
        if ← sees "=>" then
          let read ← read.toParameters context
          arrowRest recur context true { read with line := line } seen
        else
          keep seen
          read.items.forM fun item => item.term.settle
          subscripts recur context true (Term.other line)
      else subscripts recur context true name
  | _ => subscripts recur context true name

theorem arrow_or_operand_eq : arrowOrOperand recur context = (do
    let line ← line
    let isAsync ← seesWord "async"
    if ← sees "(" then groupOrArrow recur context
    else if ← seesAsyncParameter then
      next
      let (name, seen) ← apart (reference context)
      unless ← sees "=>" do
        fail
      arrowRest recur context true { ← singleParameter context name with line := line } seen
    else nameOrArrow recur context line isAsync (← primary recur context true)) :=
  rfl

/-- What follows an operand in an expression: operators, a choice or an assignment. -/
def behindOperand (recur : Recur) (context : Context) (first : Term) : Reading Term := do
  let whole ← conditional recur context (← binary recur context first)
  assignmentRest recur context whole

theorem assignment_eq : assignment recur context = (do
    if context.generator && (← seesWord "yield") then suspension recur context
    else if mayStartArrow context (← current) then
      let term ← arrowOrOperand recur context
      if term.form == .arrow then pure term
      else behindOperand recur context (← postfixStep term)
    else behindOperand recur context (← rightOperand recur context 0)) := by
  rfl

/-- What is known behind a statement of a body. -/
def behindStatement (prologue : Prologue) (term : Term) :
    Reading (Round Prologue (Option Nat)) := do
  match prologue.isOpen, term.form with
  | true, .string written legacy =>
      let legacyLine := prologue.legacy <|> if legacy then some term.line else none
      if written = strictDirective then
        reportAny legacyLine
        return .again { prologue with strict := true, directive := some term.line }
      else
        return .again { prologue with legacy := legacyLine }
  | _, _ => return .again { prologue with isOpen := false }

/-- A statement of the body of a function, or the closing brace. -/
def bodyRound (recur : Recur) (context : Context) (prologue : Prologue) :
    Reading (Round Prologue (Option Nat)) := do
  if ← accepts "\x7d" then return .done prologue.directive
  let term ← recur (.statement { context with strict := prologue.strict } .list)
  behindStatement prologue term

theorem function_body_eq : functionBody recur context = (do
    expect "\x7b"
    repeatUpTo (bodyRound recur context) context.bound
      { isOpen := true, strict := context.strict, directive := none, legacy := none }) :=
  rfl

/-- A statement of a script, or its end. -/
def scriptRound (size : Nat) : Reading (Round Unit Unit) := do
  if (← current) == .stop then return .done ()
  let _ ← read (3 * size + 3) (.statement { bound := size + 2 } .list)
  return .again ()

theorem script_eq (size : Nat) :
    script size = repeatUpTo (fun _ => scriptRound size) (size + 2) () :=
  rfl

end TemplateBundle.Script

import TemplateBundle.Script.Statement

/-!
# Checking the syntax of a script

`check` reads the text of a function as an expression between parentheses and says at which line
its syntax is wrong, if it is. Where the grammar stops fitting wins over faults that leave it
intact.
-/

namespace TemplateBundle.Script

open Reading

/-- Read a part of a script. The bound is on how deep parts hold each other. -/
def read : Nat → Goal → Reading Term
  | 0, _ => fail
  | depth + 1, goal =>
      match goal with
      | .assignment context => assignment (read depth) context
      | .unary context => unary (read depth) context
      | .operand context calls => operand (read depth) context calls
      | .statement context place => statement (read depth) context place
      | .binding context => binding (read depth) context

/-- A whole script. Each token opens at most three parts. -/
def script (size : Nat) : Reading Unit :=
  let context : Context := { bound := size + 2 }
  repeatUpTo (fun (_ : Unit) => do
    if (← current) == .stop then return .done ()
    let _ ← read (3 * size + 3) (.statement context .list)
    return .again ()) context.bound ()

/-- The text in which a function stands as an expression. The closing parenthesis has a line of
its own, so that a comment at the end of the function does not reach it. -/
def wrap (source : List Char) : List Char :=
  '(' :: source ++ ['\n', ')']

/-- A bound on the number of tokens: each has a character of its own, and none a line feed
alone. -/
def extent (text : List Char) : Nat :=
  text.countP (· ≠ '\n')

/-- The line at which the syntax of a script is wrong, if it is. -/
def fault? (text : List Char) : Option Nat :=
  match lex ⟨text, 1⟩ with
  | .error line => some line
  | .ok lexeme =>
      match (script (extent text)).run { lexeme := lexeme, early := none, seen := {} } with
      | .error line => some line
      | .ok (_, cursor) => cursor.early

/-- Check the text of a function: the line at which it is wrong, if it is. -/
def check (source : String) : Option Nat :=
  fault? (wrap source.toList)

end TemplateBundle.Script

/-!
# Decimal numbers

Decimal numbers as they are written, the binary number of 53 digits nearest to one, and the fewest
decimal digits that lead back to that binary number.
-/

namespace TemplateBundle.Text

/-- A number written as digits with a power of ten. -/
structure Decimal where
  negative : Bool
  digits : Nat
  exponent : Int
  deriving DecidableEq, Repr

/-- A positive number written as a whole number with a power of two. -/
structure Binary where
  digits : Nat
  exponent : Int
  deriving DecidableEq, Repr

namespace Decimal

/-- The number that decimal digits write. -/
def numberOf (digits : List Char) : Nat :=
  digits.foldl (fun value c => 10 * value + (c.toNat - '0'.toNat)) 0

/-- A sign in front of a number: whether it is a minus, and the rest. -/
def sign (text : List Char) : Bool × List Char :=
  match text with
  | '-' :: rest => (true, rest)
  | '+' :: rest => (false, rest)
  | _ => (false, text)

/-- The power of ten behind the digits of a number. -/
def exponentOf? : List Char → Option Int
  | [] => some 0
  | letter :: rest =>
      let (negative, digits) := sign rest
      if (letter = 'e' ∨ letter = 'E') ∧ !digits.isEmpty ∧ digits.all Char.isDigit then
        some (if negative then -(numberOf digits : Int) else numberOf digits)
      else none

/-- Read a number with an optional sign, an optional point and an optional power of ten. -/
def ofText? (text : List Char) : Option Decimal := do
  let (negative, rest) := sign text
  let whole := rest.takeWhile Char.isDigit
  let rest := rest.drop whole.length
  let (fraction, rest) := match rest with
    | '.' :: rest =>
        let fraction := rest.takeWhile Char.isDigit
        (fraction, rest.drop fraction.length)
    | _ => ([], rest)
  if whole.isEmpty ∧ fraction.isEmpty then none
  let exponent ← exponentOf? rest
  return {
    negative := negative
    digits := numberOf (whole ++ fraction)
    exponent := exponent - fraction.length }

/-- How many decimal digits a number has. -/
def width (number : Nat) : Nat :=
  (Nat.toDigits 10 number).length

/-- The quotient of two numbers, rounded to the nearest whole number, and to an even one in the
middle. -/
def roundedQuotient (number divisor : Nat) : Nat :=
  let quotient := number / divisor
  let twice := 2 * (number % divisor)
  if twice < divisor ∨ (twice = divisor ∧ quotient % 2 = 0) then quotient else quotient + 1

/-- A power with the whole number as its exponent, or one if that is negative. -/
def power (base : Nat) (exponent : Int) : Nat :=
  Nat.pow base exponent.toNat

/-- The largest and the smallest exponent of a binary number. -/
def exponentBounds : Int × Int := (971, -1074)

/-- The binary number of 53 digits nearest to a quotient. -/
def nearestBinary (number divisor : Nat) : Binary :=
  let size : Int := number.log2 - divisor.log2 - 53
  let scaled := fun exponent : Int =>
    (number * power 2 (-exponent), divisor * power 2 exponent)
  let size := if (scaled size).1 < power 2 53 * (scaled size).2 then size else size + 1
  let exponent := max size exponentBounds.2
  let digits := roundedQuotient (scaled exponent).1 (scaled exponent).2
  if digits = power 2 53 then ⟨power 2 52, exponent + 1⟩ else ⟨digits, exponent⟩

/-- The binary number nearest to the size of a decimal number, or none if it is too large. -/
def toBinary? (decimal : Decimal) : Option Binary :=
  let magnitude := (width decimal.digits : Int) + decimal.exponent
  if decimal.digits = 0 ∨ magnitude < -330 then some ⟨0, 0⟩
  else if 310 < magnitude then none
  else
    let binary := nearestBinary (decimal.digits * power 10 decimal.exponent)
      (power 10 (-decimal.exponent))
    if exponentBounds.1 < binary.exponent then none else some binary

/-- Among the two multiples of a power of ten around a binary number, the nearest one that leads
back to it. -/
def digitsAt? (binary : Binary) (exponent : Int) : Option Nat :=
  let unit := power 2 (binary.exponent - 2) * power 10 (-exponent)
  let step := power 10 exponent * power 2 (2 - binary.exponent)
  let value := 4 * binary.digits * unit
  let below := if binary.digits = power 2 52 ∧ exponentBounds.2 < binary.exponent then unit
    else 2 * unit
  let leadsBack := fun count : Nat =>
    let low := value - below
    let high := value + 2 * unit
    let place := count * step
    (low < place && place < high) ||
      (binary.digits % 2 == 0 && (place == low || place == high))
  let count := value / step
  match leadsBack count, leadsBack (count + 1) with
  | true, true =>
      if 2 * (value - count * step) ≤ step then some count else some (count + 1)
  | true, false => some count
  | false, true => some (count + 1)
  | false, false => none

/-- The fewest digits that lead back to a binary number, with their power of ten. The search goes
down from a power of ten and ends after a number of steps. -/
def shortestFrom (binary : Binary) : Nat → Int → Nat × Int
  | 0, exponent => (0, exponent)
  | bound + 1, exponent =>
      match digitsAt? binary exponent with
      | some digits => (digits, exponent)
      | none => shortestFrom binary bound (exponent - 1)

/-- Digits with a power of ten, written with a point and no power of ten. -/
def positional (digits : Nat) (exponent : Int) : String :=
  let written := Nat.toDigits 10 digits
  let zeros := fun count : Nat => List.replicate count '0'
  let places := (-exponent).toNat
  let written := written ++ zeros exponent.toNat
  let written := zeros (places + 1 - written.length) ++ written
  let whole := written.take (written.length - places)
  let fraction := written.drop (written.length - places)
  String.ofList (whole ++ '.' :: (if fraction.isEmpty then ['0'] else fraction))

/-- The number as the nearest binary number is written with the fewest digits, or none if it is
too large. -/
def shortest? (decimal : Decimal) : Option String := do
  let binary ← decimal.toBinary?
  let magnitude := if binary.digits = 0 then 0
    else (width decimal.digits : Int) + decimal.exponent
  let (digits, exponent) := if binary.digits = 0 then (0, 0)
    else shortestFrom binary 20 (magnitude + 1)
  return (if decimal.negative then "-" else "") ++ positional digits exponent

end Decimal

end TemplateBundle.Text

import TemplateBundle.Diff.Edit

/-!
# Shortest edits

Few edits that turn one sequence of lines into another. A stretch of agreeing lines in the middle
of a shortest way is looked for from both ends at once, and splits the sequences into two smaller
pairs.

A way is a walk in a grid, a step along one axis for each deleted line, a step along the other for
each inserted line, and a step across for each line that is kept. The diagonal `k` holds the points
`(x, y)` with `x - y = k`.
-/

namespace TemplateBundle.Diff

/-- A range of old and a range of new lines. -/
structure Range where
  oldStart : Nat
  oldStop : Nat
  newStart : Nat
  newStop : Nat
  deriving DecidableEq, Repr

namespace Range

/-- The number of old lines. -/
def oldCount (range : Range) : Nat := range.oldStop - range.oldStart

/-- The number of new lines. -/
def newCount (range : Range) : Nat := range.newStop - range.newStart

/-- The difference of both numbers: the diagonal on which every way ends. -/
def lastDiagonal (range : Range) : Int := (range.oldCount : Int) - range.newCount

/-- How many steps from each end are enough to meet. -/
def stepBound (range : Range) : Nat := (range.oldCount + range.newCount + 1) / 2 + 1

end Range

/-- How far each diagonal was reached. -/
structure Reach where
  offset : Nat
  values : Array Nat

namespace Reach

/-- Nothing was reached beyond the start. The diagonals lie between the bounds on both sides. -/
def start (bound : Nat) : Reach :=
  { offset := bound, values := Array.replicate (2 * bound + 2) 0 }

/-- How far a diagonal was reached. -/
def at? (reach : Reach) (diagonal : Int) : Nat :=
  reach.values.getD (diagonal + reach.offset).toNat 0

/-- Reach further on a diagonal. -/
def update (reach : Reach) (diagonal : Int) (value : Nat) : Reach :=
  { reach with values := reach.values.setIfInBounds (diagonal + reach.offset).toNat value }

/-- The best place on a diagonal after one more step. -/
def next (reach : Reach) (steps : Nat) (diagonal : Int) : Nat :=
  if diagonal = -steps ∨
      (diagonal ≠ steps ∧ reach.at? (diagonal - 1) < reach.at? (diagonal + 1)) then
    reach.at? (diagonal + 1)
  else reach.at? (diagonal - 1) + 1

end Reach

/-- The diagonals that a number of steps leads to, the outermost ones first and last. -/
def diagonals (steps : Nat) : List Int :=
  (List.range (steps + 1)).map fun (index : Nat) => (steps : Int) - 2 * index

/-- Go one step further from the start on each diagonal. A meeting with the ways from the end
gives the point where the stretch of agreeing lines starts. -/
def goForward (pair : Pair) (range : Range) (steps : Nat) (back : Reach) :
    List Int → Reach → Reach × Option (Nat × Nat)
  | [], reach => (reach, none)
  | diagonal :: others, reach =>
      let x := reach.next steps diagonal
      let y := ((x : Int) - diagonal).toNat
      let advance := pair.commonStart (range.oldStart + x) range.oldStop (range.newStart + y)
        range.newStop
      let reached := x + advance
      let reach := reach.update diagonal reached
      let opposite := range.lastDiagonal - diagonal
      if range.lastDiagonal % 2 ≠ 0 ∧ opposite.natAbs + 1 ≤ steps ∧
          range.oldCount ≤ reached + back.at? opposite then
        (reach, some (range.oldStart + x, range.newStart + y))
      else goForward pair range steps back others reach

/-- Go one step further from the end on each diagonal. A meeting with the ways from the start gives
the point where the stretch of agreeing lines starts. -/
def goBack (pair : Pair) (range : Range) (steps : Nat) (forth : Reach) :
    List Int → Reach → Reach × Option (Nat × Nat)
  | [], reach => (reach, none)
  | diagonal :: others, reach =>
      let x := reach.next steps diagonal
      let y := ((x : Int) - diagonal).toNat
      let advance :=
        if x < range.oldCount ∧ y < range.newCount then
          pair.commonEnd range.oldStart (range.oldStop - x) range.newStart (range.newStop - y)
        else 0
      let reached := x + advance
      let reach := reach.update diagonal reached
      let opposite := range.lastDiagonal - diagonal
      if range.lastDiagonal % 2 = 0 ∧ opposite.natAbs ≤ steps ∧
          range.oldCount ≤ reached + forth.at? opposite then
        (reach, some (range.oldStop - reached, range.newStop - (y + advance)))
      else goBack pair range steps forth others reach

/-- Where the ways from both ends meet. The bound is on the steps that are left. -/
def meeting? (pair : Pair) (range : Range) :
    Nat → Nat → Reach → Reach → Option (Nat × Nat)
  | 0, _, _, _ => none
  | bound + 1, steps, forth, back =>
      match goForward pair range steps back (diagonals steps) forth with
      | (_, some point) => some point
      | (forth, none) =>
          match goBack pair range steps forth (diagonals steps) back with
          | (_, some point) => some point
          | (back, none) => meeting? pair range bound (steps + 1) forth back

/-- Delete the old lines and insert the new ones. -/
def exchange (range : Range) : List Edit :=
  [.delete range.oldStart range.oldCount range.newStart,
    .insert range.oldStart range.newStart range.newCount]

/-- The edits for a range. The bound is on the depth of splitting. -/
def editsIn (pair : Pair) : Nat → Range → List Edit
  | 0, range => exchange range
  | bound + 1, range =>
      let start := pair.commonStart range.oldStart range.oldStop range.newStart range.newStop
      let kept := if start = 0 then [] else [Edit.keep range.oldStart range.newStart start]
      let range := { range with
        oldStart := range.oldStart + start, newStart := range.newStart + start }
      let count := pair.commonEnd range.oldStart range.oldStop range.newStart range.newStop
      let range := { range with
        oldStop := range.oldStop - count, newStop := range.newStop - count }
      let keptLast := if count = 0 then [] else [Edit.keep range.oldStop range.newStop count]
      let between :=
        if range.oldCount = 0 ∧ range.newCount = 0 then []
        else if range.newCount = 0 then
          [.delete range.oldStart range.oldCount range.newStart]
        else if range.oldCount = 0 then
          [.insert range.oldStart range.newStart range.newCount]
        else
          let reach := Reach.start range.stepBound
          match meeting? pair range range.stepBound 0 reach reach with
          | some (oldMiddle, newMiddle) =>
              editsIn pair bound { range with oldStop := oldMiddle, newStop := newMiddle } ++
                editsIn pair bound { range with oldStart := oldMiddle, newStart := newMiddle }
          | none => exchange range
      kept ++ between ++ keptLast

/-- The edits that turn the old lines into the new ones. -/
def shortestEdits (pair : Pair) : List Edit :=
  editsIn pair (pair.size + 1) {
    oldStart := 0
    oldStop := pair.old.size
    newStart := 0
    newStop := pair.new.size }

end TemplateBundle.Diff

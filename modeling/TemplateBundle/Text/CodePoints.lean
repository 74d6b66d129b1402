/-!
# Sets of code points

The form in which the tables of the character database are kept: runs of code points in increasing
order, written in hexadecimal. `0041-005A` is a range, `00AA` a single code point, and
`0100-0136/2` every second code point from the first to the last.
-/

namespace TemplateBundle.Text

/-- Every `step`-th code point from `first` to `last`. -/
structure CodePointRun where
  first : Nat
  last : Nat
  step : Nat
  deriving Repr, Inhabited

/-- The code point belongs to the run. -/
def CodePointRun.contains (run : CodePointRun) (code : Nat) : Bool :=
  run.first ≤ code && code ≤ run.last && (code - run.first) % run.step == 0

/-- The value of a hexadecimal digit in either case. -/
def hexValue? (c : Char) : Option Nat :=
  if '0' ≤ c ∧ c ≤ '9' then some (c.toNat - '0'.toNat)
  else if 'a' ≤ c ∧ c ≤ 'f' then some (c.toNat - 'a'.toNat + 10)
  else if 'A' ≤ c ∧ c ≤ 'F' then some (c.toNat - 'A'.toNat + 10)
  else none

/-- The number that hexadecimal digits write; other characters are passed over. -/
def hexNumber (digits : List Char) : Nat :=
  digits.foldl (fun value c => match hexValue? c with
    | some digit => 16 * value + digit
    | none => value) 0

/-- The entries of a table, with blanks and line ends between them. -/
def tableEntries (table : String) : List (List Char) :=
  ((table.toList.map fun c => if c = '\n' then ' ' else c).splitOn ' ').filter (!·.isEmpty)

/-- Read one run as written in a table. -/
def CodePointRun.ofWritten (written : List Char) : CodePointRun :=
  let (bounds, step) := match written.splitOn '/' with
    | [bounds, step] => (bounds, hexNumber step)
    | _ => (written, 1)
  match bounds.splitOn '-' with
  | [first, last] => { first := hexNumber first, last := hexNumber last, step := step }
  | _ => { first := hexNumber bounds, last := hexNumber bounds, step := 1 }

/-- A set of code points as runs in increasing order. -/
structure CodePointSet where
  runs : Array CodePointRun
  deriving Inhabited

namespace CodePointSet

/-- Read a table of runs. -/
def ofTable (table : String) : CodePointSet :=
  ⟨((tableEntries table).map CodePointRun.ofWritten).toArray⟩

/-- Look for the code point among the runs from `low` up to, but not including, `high`. -/
def search (runs : Array CodePointRun) (code low high : Nat) : Bool :=
  if low < high then
    let middle := (low + high) / 2
    match runs[middle]? with
    | none => false
    | some run =>
        if code < run.first then search runs code low middle
        else if run.last < code then search runs code (middle + 1) high
        else run.contains code
  else false
  termination_by high - low

/-- The character belongs to the set. -/
def contains (set : CodePointSet) (c : Char) : Bool :=
  search set.runs c.toNat 0 set.runs.size

end CodePointSet

end TemplateBundle.Text

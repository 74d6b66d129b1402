/-!
# Edits

How one sequence of lines becomes another: stretches that are kept, deleted, inserted or replaced,
each with its range in both sequences.
-/

namespace TemplateBundle.Diff

/-- What an edit does. -/
inductive EditKind where
  | keep
  | delete
  | insert
  | replace
  deriving DecidableEq, Repr

/-- An edit: its ranges of lines in the old and in the new sequence. -/
structure Edit where
  kind : EditKind
  oldStart : Nat
  oldCount : Nat
  newStart : Nat
  newCount : Nat
  deriving DecidableEq, Repr

namespace Edit

/-- A stretch that is kept. -/
def keep (oldStart newStart count : Nat) : Edit :=
  ⟨.keep, oldStart, count, newStart, count⟩

/-- A stretch that is deleted. -/
def delete (oldStart oldCount newStart : Nat) : Edit :=
  ⟨.delete, oldStart, oldCount, newStart, 0⟩

/-- A stretch that is inserted. -/
def insert (oldStart newStart newCount : Nat) : Edit :=
  ⟨.insert, oldStart, 0, newStart, newCount⟩

/-- The first old line behind the edit. -/
def oldStop (edit : Edit) : Nat := edit.oldStart + edit.oldCount

/-- The first new line behind the edit. -/
def newStop (edit : Edit) : Nat := edit.newStart + edit.newCount

/-- The edit covers no line. -/
def isEmpty (edit : Edit) : Bool := edit.oldCount = 0 && edit.newCount = 0

end Edit

/-- Two sequences of lines that are compared. -/
structure Pair where
  old : Array String
  new : Array String

namespace Pair

/-- The number of lines of both. -/
def size (pair : Pair) : Nat := pair.old.size + pair.new.size

/-- An old and a new line are the same. -/
def agree (pair : Pair) (oldIndex newIndex : Nat) : Bool :=
  match pair.old[oldIndex]?, pair.new[newIndex]? with
  | some oldLine, some newLine => oldLine == newLine
  | _, _ => false

/-- How many lines agree from the starts of two ranges on. -/
def commonStart (pair : Pair) (oldStart oldStop newStart newStop : Nat) : Nat :=
  if oldStart < oldStop ∧ newStart < newStop ∧ pair.agree oldStart newStart then
    commonStart pair (oldStart + 1) oldStop (newStart + 1) newStop + 1
  else 0
  termination_by oldStop - oldStart

/-- How many lines agree from the ends of two ranges back. -/
def commonEnd (pair : Pair) (oldStart oldStop newStart newStop : Nat) : Nat :=
  if oldStart < oldStop ∧ newStart < newStop ∧ pair.agree (oldStop - 1) (newStop - 1) then
    commonEnd pair oldStart (oldStop - 1) newStart (newStop - 1) + 1
  else 0
  termination_by oldStop - oldStart

end Pair

end TemplateBundle.Diff

import TemplateBundle.Diff.Shortest

/-!
# Fewer edits

Edits are moved up and then down past lines that stay the same, so that edits of one kind meet and
become one. What is deleted and what is inserted at one place becomes a replacement.
-/

namespace TemplateBundle.Diff

/-- An edit in its place: those before it, last one first, and those behind it. -/
structure Spot where
  before : List Edit
  edit : Edit
  after : List Edit

namespace Spot

/-- The number of edits and lines around: a bound on how often the edit can be moved. -/
def bound (pair : Pair) (spot : Spot) : Nat :=
  pair.size + spot.before.length + spot.after.length + 1

/-- The edits with a kept stretch that starts some lines earlier, or with a new one. -/
def keepEarlier (count oldStart newStart : Nat) : List Edit → List Edit
  | next :: others =>
      if next.kind = .keep then
        Edit.keep (next.oldStart - count) (next.newStart - count) (next.oldCount + count) :: others
      else .keep oldStart newStart count :: next :: others
  | [] => [.keep oldStart newStart count]

/-- The edits, last one first, with a kept stretch that ends some lines later, or with a new
one. -/
def keepLater (count oldStart newStart : Nat) : List Edit → List Edit
  | previous :: others =>
      if previous.kind = .keep then
        Edit.keep previous.oldStart previous.newStart (previous.oldCount + count) :: others
      else .keep oldStart newStart count :: previous :: others
  | [] => [.keep oldStart newStart count]

/-- The edits with one in front, unless that covers no line. -/
def consNonempty (edit : Edit) (others : List Edit) : List Edit :=
  if edit.isEmpty then others else edit :: others

/-- An edit that covers the lines of another one of its kind as well. -/
def joined (first second : Edit) : Edit :=
  { first with
    oldCount := first.oldCount + second.oldCount
    newCount := first.newCount + second.newCount }

/-- The edit with its starts moved. -/
def movedUp (edit : Edit) (count : Nat) : Edit :=
  { edit with oldStart := edit.oldStart - count, newStart := edit.newStart - count }

/-- The edit with its starts moved. -/
def movedDown (edit : Edit) (count : Nat) : Edit :=
  { edit with oldStart := edit.oldStart + count, newStart := edit.newStart + count }

/-- Move the edit up past the one before it, if it can be. -/
def up? (pair : Pair) (spot : Spot) : Option Spot :=
  let edit := spot.edit
  match spot.before with
  | [] => none
  | previous :: before =>
      if previous.kind = .keep then
        let count := pair.commonEnd previous.oldStart previous.oldStop edit.newStart edit.newStop
        if count = 0 then
          if previous.isEmpty then some { spot with before := before } else none
        else
          let kept := Edit.keep previous.oldStart previous.newStart (previous.oldCount - count)
          some {
            before := consNonempty kept before
            edit := movedUp edit count
            after := keepEarlier count (previous.oldStop - count) (edit.newStop - count)
              spot.after }
      else if previous.kind = edit.kind then
        some { spot with before := before, edit := joined previous edit }
      else some { before := before, edit := edit, after := previous :: spot.after }

/-- Move the edit down past the one behind it, if it can be. -/
def down? (pair : Pair) (spot : Spot) : Option Spot :=
  let edit := spot.edit
  match spot.after with
  | [] => none
  | next :: after =>
      if next.kind = .keep then
        let count := pair.commonStart next.oldStart next.oldStop edit.newStart edit.newStop
        if count = 0 then
          if next.isEmpty then some { spot with after := after } else none
        else
          let kept := Edit.keep (next.oldStart + count) (next.newStart + count)
            (next.oldCount - count)
          some {
            before := keepLater count next.oldStart edit.newStart spot.before
            edit := movedDown edit count
            after := consNonempty kept after }
      else if next.kind = edit.kind then
        some { spot with edit := joined edit next, after := after }
      else some { before := next :: spot.before, edit := edit, after := after }

/-- Repeat a move as often as it can be made, up to a bound. -/
def repeated (move : Spot → Option Spot) : Nat → Spot → Spot
  | 0, spot => spot
  | bound + 1, spot =>
      match move spot with
      | some spot => repeated move bound spot
      | none => spot

/-- Move the edit up and then down, as far as it can be. -/
def settle (pair : Pair) (spot : Spot) : Spot :=
  let spot := repeated (up? pair) (spot.bound pair) spot
  repeated (down? pair) (spot.bound pair) spot

end Spot

/-- Settle the edits of a kind one after the other. The edits before the current one come last one
first, and the bound is on the number of edits that are looked at. -/
def settleAll (pair : Pair) (kind : EditKind) : Nat → List Edit → List Edit → List Edit
  | 0, before, after => before.reverse ++ after
  | _, before, [] => before.reverse
  | bound + 1, before, edit :: after =>
      if edit.kind = kind then
        let spot := Spot.settle pair { before := before, edit := edit, after := after }
        settleAll pair kind bound (spot.edit :: spot.before) spot.after
      else settleAll pair kind bound (edit :: before) after

/-- Edits that are being joined: a kept stretch, or a deletion and an insertion. -/
structure Pending where
  kept : Option Edit := none
  deleted : Option Edit := none
  inserted : Option Edit := none

namespace Pending

/-- The edits that pend. -/
def edits (pending : Pending) : List Edit :=
  pending.kept.toList ++
    match pending.deleted, pending.inserted with
    | some deleted, some inserted =>
        [⟨.replace, deleted.oldStart, deleted.oldCount, inserted.newStart, inserted.newCount⟩]
    | some deleted, none => [deleted]
    | none, some inserted => [inserted]
    | none, none => []

/-- An edit behind one of its kind that pends. -/
def extend (pending : Option Edit) (edit : Edit) : Option Edit :=
  match pending with
  | some first => some (Spot.joined first edit)
  | none => some edit

end Pending

/-- Join what follows one another: kept stretches, and what is deleted and inserted between
them. -/
def join : Pending → List Edit → List Edit
  | pending, [] => pending.edits
  | pending, edit :: others =>
      match edit.kind, pending.kept with
      | .keep, some _ => join { pending with kept := Pending.extend pending.kept edit } others
      | .keep, none => pending.edits ++ join { kept := some edit } others
      | .insert, some _ => pending.edits ++ join { inserted := some edit } others
      | .insert, none =>
          join { pending with inserted := Pending.extend pending.inserted edit } others
      | _, some _ => pending.edits ++ join { deleted := some edit } others
      | _, none => join { pending with deleted := Pending.extend pending.deleted edit } others

/-- The edits that turn the old lines into the new ones, as few as moving them allows. -/
def edits (pair : Pair) : List Edit :=
  let start := shortestEdits pair
  let bound := (start.length + 1) * (pair.size + start.length + 1)
  let settled := settleAll pair .insert bound []
    (settleAll pair .delete bound [] start)
  join {} settled

end TemplateBundle.Diff

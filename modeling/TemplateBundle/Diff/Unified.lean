import TemplateBundle.Diff.Compact

/-!
# Unified differences

The edits between two texts as hunks with some lines around every change. Lines keep their ends, so
the hunks say all that is needed to get from one text to the other.
-/

namespace TemplateBundle.Diff

/-- The lines of a text with their ends, behind a line that has been started; that one comes last
character first. -/
def linesFrom : List Char → List Char → List String
  | started, [] => if started.isEmpty then [] else [String.ofList started.reverse]
  | started, '\r' :: '\n' :: rest =>
      String.ofList ('\n' :: '\r' :: started).reverse :: linesFrom [] rest
  | started, c :: rest =>
      if c = '\n' ∨ c = '\r' then String.ofList (c :: started).reverse :: linesFrom [] rest
      else linesFrom (c :: started) rest

/-- The lines of a text with their ends. -/
def lines (text : String) : Array String :=
  (linesFrom [] text.toList).toArray

/-- How many lines are shown on both sides of a change. -/
def contextSize : Nat := 3

/-- The edits with less of the first kept stretch: only its last lines are near a change. -/
def trimFirst : List Edit → List Edit
  | edit :: others =>
      if edit.kind = .keep then
        let dropped := edit.oldCount - contextSize
        .keep (edit.oldStart + dropped) (edit.newStart + dropped) (edit.oldCount - dropped) ::
          others
      else edit :: others
  | [] => []

/-- The edits with less of the last kept stretch: only its first lines are near a change. -/
def trimLast : List Edit → List Edit
  | [] => []
  | [edit] =>
      if edit.kind = .keep then
        [.keep edit.oldStart edit.newStart (min edit.oldCount contextSize)]
      else [edit]
  | edit :: others => edit :: trimLast others

/-- Part the edits where a kept stretch is longer than what both its ends show. The edits of the
current group come last one first. -/
def groupsFrom : List Edit → List Edit → List (List Edit)
  | group, [] =>
      match group with
      | [] => []
      | [edit] => if edit.kind = .keep then [] else [[edit]]
      | _ => [group.reverse]
  | group, edit :: others =>
      if edit.kind = .keep ∧ 2 * contextSize < edit.oldCount then
        let dropped := edit.oldCount - contextSize
        (Edit.keep edit.oldStart edit.newStart contextSize :: group).reverse ::
          groupsFrom [.keep (edit.oldStart + dropped) (edit.newStart + dropped) contextSize] others
      else groupsFrom (edit :: group) others

/-- The edits in groups, each of them a hunk. -/
def groups (edits : List Edit) : List (List Edit) :=
  groupsFrom [] (trimLast (trimFirst edits))

/-- A range of lines: its first line, counted from one, and its length if that is not one. An
empty range is named by the line before it. -/
def rangeText (start stop : Nat) : String :=
  let count := stop - start
  if count = 1 then toString (start + 1)
  else if count = 0 then toString start ++ ",0"
  else toString (start + 1) ++ "," ++ toString count

/-- A line with its sign, and a note if it does not end. -/
def lineText (sign line : String) : String :=
  let ends := match line.toList.getLast? with
    | some c => c == '\n' || c == '\r'
    | none => false
  sign ++ line ++ (if ends then "" else "\n\\ No newline at end of file\n")

/-- Lines of a range with their sign. -/
def linesText (sign : String) (lines : Array String) (start stop : Nat) : String :=
  String.join ((lines.toList.drop start |>.take (stop - start)).map (lineText sign))

/-- The lines of an edit: kept ones, or deleted ones before inserted ones. -/
def editText (pair : Pair) (edit : Edit) : String :=
  match edit.kind with
  | .keep => linesText " " pair.old edit.oldStart edit.oldStop
  | _ =>
      linesText "-" pair.old edit.oldStart edit.oldStop ++
        linesText "+" pair.new edit.newStart edit.newStop

/-- The text of a hunk. -/
def hunkText (pair : Pair) (hunk : List Edit) : String :=
  match hunk, hunk.getLast? with
  | first :: _, some last =>
      "@@ -" ++ rangeText first.oldStart last.oldStop ++ " +" ++
        rangeText first.newStart last.newStop ++ " @@\n" ++ String.join (hunk.map (editText pair))
  | _, _ => ""

/-- The difference of two texts under the names of both. Equal texts have none. -/
def unified (oldName newName old new : String) : String :=
  let pair : Pair := { old := lines old, new := lines new }
  match groups (edits pair) with
  | [] => ""
  | hunks =>
      "--- " ++ oldName ++ "\n+++ " ++ newName ++ "\n" ++
        String.join (hunks.map (hunkText pair))

end TemplateBundle.Diff

import TemplateBundle.Text.Width

/-!
# Tables

Rows of cells below a row of headings, in a frame with round corners. A cell may have several
lines; all the cells of a row are as high as its highest one, and all those of a column as wide as
its widest line.
-/

namespace TemplateBundle.Table

/-- The lines of a cell. -/
def cellLines (cell : String) : List String :=
  (cell.toList.splitOn '\n').map String.ofList

/-- The width of a cell. -/
def cellWidth (cell : String) : Nat :=
  (((cellLines cell).map Text.width).max?).getD 0

/-- The number of lines of a row. -/
def height (row : List String) : Nat :=
  ((row.map fun cell => (cellLines cell).length).max?).getD 0

/-- The width of the widest cell of every column. -/
def widths : List (List String) → List Nat
  | [] => []
  | [row] => row.map cellWidth
  | row :: others => (row.zip (widths others)).map fun (cell, width) => max (cellWidth cell) width

/-- A text repeated some times. -/
def repeated (text : String) (count : Nat) : String :=
  String.join (List.replicate count text)

/-- A line of the frame, with its left end, its crossings and its right end. -/
def ruler (left crossing right : String) (widths : List Nat) : String :=
  left ++ crossing.intercalate (widths.map fun width => repeated "─" (width + 2)) ++ right ++ "\n"

/-- A line of text filled up with spaces. -/
def filled (line : String) (width : Nat) : String :=
  line ++ repeated " " (width - Text.width line)

/-- A row, line by line. -/
def rowText (widths : List Nat) (row : List String) : String :=
  String.join ((List.range (height row)).map fun index =>
    "│" ++ String.join ((row.zip widths).map fun (cell, width) =>
      " " ++ filled ((cellLines cell)[index]?.getD "") width ++ " │") ++ "\n")

/-- The table with its headings. -/
def print (headings : List String) (rows : List (List String)) : String :=
  let widths := widths (headings :: rows)
  ruler "╭" "┬" "╮" widths ++ rowText widths headings ++ ruler "├" "┼" "┤" widths ++
    String.join (rows.map (rowText widths)) ++ ruler "╰" "┴" "╯" widths

end TemplateBundle.Table

import TemplateBundle.Data
import TemplateBundle.Text.Quoted

/-!
# Data in brackets

Data as nested brackets, with an item on every line and two spaces for every level.
-/

namespace TemplateBundle.Data.Json

/-- The start of a line at a level. -/
def newLine (level : Nat) : String :=
  String.ofList ('\n' :: List.replicate (2 * level) ' ')

/-- Entries between brackets. -/
def enclosed (opening closing : String) (level : Nat) (entries : List String) : String :=
  if entries.isEmpty then opening ++ closing
  else
    opening ++ newLine (level + 1) ++ ("," ++ newLine (level + 1)).intercalate entries ++
      newLine level ++ closing

mutual

/-- The data at a level. -/
def printAt (level : Nat) : Data → String
  | .text value => Text.quote value
  | .truth value => if value then "true" else "false"
  | .number value => toString value
  | .list items => enclosed "[" "]" level (printItems (level + 1) items)
  | .record fields => enclosed "\x7b" "\x7d" level (printFields (level + 1) fields)

/-- The items of a list. -/
def printItems (level : Nat) : List Data → List String
  | [] => []
  | item :: others => printAt level item :: printItems level others

/-- The fields of a record. -/
def printFields (level : Nat) : List (String × Data) → List String
  | [] => []
  | (name, value) :: others =>
      (Text.quote name ++ ": " ++ printAt level value) :: printFields level others

end

/-- The data as text. -/
def print (data : Data) : String :=
  printAt 0 data

end TemplateBundle.Data.Json

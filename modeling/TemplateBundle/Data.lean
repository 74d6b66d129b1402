/-!
# Data to be written

Plain data of texts, truth values, numbers, lists and records, which the printers of the formats
take.
-/

namespace TemplateBundle

/-- Plain data. The fields of a record keep their order. -/
inductive Data where
  | text (value : String)
  | truth (value : Bool)
  | number (value : Nat)
  | list (items : List Data)
  | record (fields : List (String × Data))
  deriving Inhabited

/-- A field that is written only if there is something to write. -/
def Data.optional (name : String) (value : Option Data) : List (String × Data) :=
  match value with
  | some value => [(name, value)]
  | none => []

end TemplateBundle

import TemplateBundle.Text.Replace

/-!
# Character references

Attribute values write a few characters by reference. A value is decoded by replacing each known
reference in turn, the ampersand's own last, so that what a reference stands for is not taken for
the start of another one.
-/

namespace TemplateBundle.Document.Entity

/-- The known references with the characters they stand for, in the order of decoding. -/
def references : List (List Char × Char) :=
  [(['&', 'l', 't', ';'], '<'), (['&', 'g', 't', ';'], '>'),
   (['&', 'q', 'u', 'o', 't', ';'], '"'), (['&', '#', '3', '9', ';'], '\''),
   (['&', '#', 'x', '2', '7', ';'], '\''), (['&', 'a', 'm', 'p', ';'], '&')]

/-- The value with its references decoded. -/
def decode (value : List Char) : List Char :=
  references.foldl (fun text reference => Text.replaceAll reference.1 [reference.2] text) value

end TemplateBundle.Document.Entity

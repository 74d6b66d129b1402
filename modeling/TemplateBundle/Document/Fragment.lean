import TemplateBundle.Document.Attribute
import TemplateBundle.Document.Element

/-!
# Templates in a document

A script element whose type is the template type marks a region of the document. A region with an
identifier is a fragment: one template of the document.
-/

namespace TemplateBundle.Document

/-- A marked region: the value of its `id` attribute, if it has one, and its text. -/
structure Region where
  id : Option String
  body : String
  deriving DecidableEq, Repr

/-- A region with an identifier. -/
structure Fragment where
  id : String
  text : String
  deriving DecidableEq, Repr

/-- The type that marks templates where no other is given. -/
def standardType : String := "text/template"

/-- The region that an element marks, if its type is the template type. -/
def Region.ofElement? (templateType : String) (element : Element) : Option Region :=
  let attributes := Attribute.readAll element.attributes
  if Attribute.first? attributes "type" = some templateType then
    some { id := Attribute.first? attributes "id", body := String.ofList element.body }
  else none

/-- The marked regions of a document, in order. -/
def regions (templateType : String) (document : String) : List Region :=
  (elements document.toList).filterMap (Region.ofElement? templateType)

/-- The fragment that a region is; a region without an identifier or with an empty one is none. -/
def Fragment.ofRegion? (region : Region) : Option Fragment :=
  match region.id with
  | none => none
  | some id => if id = "" then none else some { id := id, text := region.body }

/-- The fragments of a document, in order. -/
def fragments (templateType : String) (document : String) : List Fragment :=
  (regions templateType document).filterMap Fragment.ofRegion?

end TemplateBundle.Document

import TemplateBundle.Project.Misfit
import TemplateBundle.Yaml.Node

/-!
# Reading data from nodes

Texts, truth values, lists and records with known fields. Nodes are read in the order in which they
stand in the text, and the first misfit counts; where the text makes no sense from some place on, a
misfit before that place still counts.
-/

namespace TemplateBundle.Project

open Yaml (Node Document Value)

/-- Reads data from the node at a place. -/
abbrev NodeDecoder (α : Type) := NodePlace → Node → Except ReadFault α

namespace NodeDecoder

/-- A misfit at a place. -/
def refuse {α : Type} (place : NodePlace) (misfit : Misfit) : Except ReadFault α :=
  .error (.misfit { place := place, misfit := misfit })

/-- The node is not of the kind that is asked for. -/
def refuseNode {α : Type} (place : NodePlace) (wanted : String) : Node → Except ReadFault α
  | .scalar text style tag =>
      match Value.ofScalar text style tag with
      | .ok value => refuse place (.wrongKind (.value value) wanted)
      | .error wanted => refuse place (.wrongTag text wanted)
  | .list _ => refuse place (.wrongKind .list wanted)
  | .mapping _ => refuse place (.wrongKind .mapping wanted)
  | .cycle isList => refuse place (.wrongKind (if isList then .list else .mapping) wanted)
  | .broken => .error .malformed

/-- Any scalar, as the text it is. -/
def textWanted (wanted : String) : NodeDecoder String := fun place node =>
  match node with
  | .scalar text _ _ => .ok text
  | _ => refuseNode place wanted node

/-- A text. -/
def text : NodeDecoder String := textWanted "a string"

/-- A path. -/
def path : NodeDecoder String := textWanted "path string"

/-- A text that may be left out. -/
def optionalText : NodeDecoder (Option String) := fun place node =>
  match node with
  | .scalar text .plain none =>
      .ok (if text.isEmpty || Value.isNothing text then none else some text)
  | .scalar text .plain (some tag) =>
      if tag = Value.usualTag "null" then
        if Value.isNothing text then .ok none else refuse place (.wrongTag text "null")
      else .ok (some text)
  | _ => (NodeDecoder.text place node).map some

/-- A truth value. -/
def truth : NodeDecoder Bool := fun place node =>
  let wrong := refuseNode place "a boolean" node
  match node with
  | .scalar text style tag =>
      if style = .plain ∨ (style = .literal ∧ tag = some (Value.usualTag "bool")) then
        match Value.truth? text with
        | some value => .ok value
        | none => wrong
      else wrong
  | _ => wrong

/-- The items of a list, the first of which has a number. -/
def items {α : Type} (decoder : NodeDecoder α) (place : NodePlace) :
    Nat → List Node → Except ReadFault (List α)
  | _, [] => .ok []
  | index, node :: others => do
      let item ← decoder (place ++ [.item index]) node
      return item :: (← items decoder place (index + 1) others)

/-- A list. Nothing at all is an empty list. -/
def list {α : Type} (decoder : NodeDecoder α) : NodeDecoder (List α) := fun place node =>
  match node with
  | .list nodes => items decoder place 0 nodes
  | .scalar "" .plain _ => .ok []
  | .cycle true => .error .malformed
  | _ => refuseNode place "a sequence" node

end NodeDecoder

/-- A field of a record: its name, and how what is read from its node is put into the record. -/
structure RecordField (α : Type) where
  name : String
  read : α → NodeDecoder α

/-- The field with a decoder for what it holds. -/
def RecordField.of {α β : Type} (name : String) (decoder : NodeDecoder β) (put : α → β → α) :
    RecordField α :=
  { name := name, read := fun record place node => (decoder place node).map (put record) }

/-- The shape of a record. -/
structure RecordShape (α : Type) where
  /-- What messages call the record. -/
  name : String
  fields : List (RecordField α)
  /-- Other fields are refused. -/
  isClosed : Bool
  /-- Fields that may not be left out. -/
  required : List String
  /-- The record before anything is read. -/
  start : α

namespace RecordShape

variable {α : Type}

/-- The names of the fields. -/
def names (shape : RecordShape α) : List String :=
  shape.fields.map fun field => field.name

/-- Read the fields one after the other. `seen` holds the names of those that were read. -/
def readPairs (shape : RecordShape α) (place : NodePlace) :
    List (Node × Node) → List String → α → Except ReadFault α
  | [], seen, record =>
      match shape.required.find? fun name => !seen.contains name with
      | some name => NodeDecoder.refuse place (.missingField name)
      | none => .ok record
  | (key, node) :: others, seen, record => do
      let name ← NodeDecoder.textWanted "field identifier" place key
      match shape.fields.find? fun field => field.name == name with
      | none =>
          if shape.isClosed then NodeDecoder.refuse place (.unknownField name shape.names)
          else if node.isWhole then readPairs shape place others seen record
          else .error .malformed
      | some field =>
          if seen.contains name then NodeDecoder.refuse place (.repeatedField name)
          else
            let record ← field.read record (place ++ [.field name]) node
            readPairs shape place others (name :: seen) record

/-- Read a record. Nothing at all is a record without fields. -/
def read (shape : RecordShape α) : NodeDecoder α := fun place node =>
  match node with
  | .mapping pairs => shape.readPairs place pairs [] shape.start
  | .scalar "" .plain _ => shape.readPairs place [] [] shape.start
  | .cycle false => .error .malformed
  | _ => NodeDecoder.refuseNode place ("struct " ++ shape.name) node

end RecordShape

/-- Read what a text describes. It has to make sense to its end. -/
def readText {α : Type} (decoder : NodeDecoder α) (text : String) : Except ReadFault α := do
  let document := Document.ofText text
  let value ← decoder [] (document.root.getD .empty)
  if document.endsThere then return value else throw .malformed

end TemplateBundle.Project

import TemplateBundle.Yaml.Value

/-!
# Misfits

Why a node does not have the shape that is asked for, and where it stands.
-/

namespace TemplateBundle.Project

open Yaml (Value)

/-- A step from a node to a part of it. -/
inductive PlaceStep where
  | field (name : String)
  | item (index : Nat)
  deriving DecidableEq, Repr

/-- Where a node stands: the steps that lead to it from the whole. -/
abbrev NodePlace := List PlaceStep

/-- The place as it is shown in front of a message. -/
def NodePlace.shown : NodePlace → String
  | [] => ""
  | first :: steps =>
      let written := fun (step : PlaceStep) => match step with
        | .field name => "." ++ name
        | .item index => "[" ++ toString index ++ "]"
      let start := match first with
        | .field name => name
        | .item index => "[" ++ toString index ++ "]"
      start ++ String.join (steps.map written) ++ ": "

/-- What stands at a place. -/
inductive Found where
  | value (found : Value)
  | list
  | mapping
  deriving DecidableEq, Repr

/-- The words for what stands at a place. -/
def Found.shown : Found → String
  | .value found => found.shown
  | .list => "sequence"
  | .mapping => "map"

/-- Why a node does not have the shape that is asked for. -/
inductive Misfit where
  | missingField (name : String)
  | unknownField (name : String) (known : List String)
  | repeatedField (name : String)
  | wrongKind (found : Found) (wanted : String)
  /-- The text does not write what its tag says. -/
  | wrongTag (text wanted : String)
  /-- A namespace is switched on without a name. -/
  | namelessNamespace
  /-- A namespace is neither a name nor switched off. -/
  | oddNamespace
  /-- A namespace has a tag of its own. -/
  | taggedNamespace
  deriving DecidableEq, Repr

/-- The known names, as an alternative. -/
def alternatives (known : List String) : String :=
  let quoted := known.map fun name => "\x60" ++ name ++ "\x60"
  match quoted with
  | [first, second] => first ++ " or " ++ second
  | [first] => first
  | _ => "one of " ++ ", ".intercalate quoted

/-- The words for a misfit. -/
def Misfit.message : Misfit → String
  | .missingField name => "missing field \x60" ++ name ++ "\x60"
  | .unknownField name known =>
      "unknown field \x60" ++ name ++ "\x60, expected " ++ alternatives known
  | .repeatedField name => "duplicate field \x60" ++ name ++ "\x60"
  | .wrongKind found wanted => "invalid type: " ++ found.shown ++ ", expected " ++ wanted
  | .wrongTag text wanted =>
      "invalid value: string " ++ Text.shown text ++ ", expected " ++ wanted
  | .namelessNamespace =>
      "invalid namespace true; expected a dotted name or \x60false\x60"
  | .oddNamespace => "data did not match any variant of untagged enum NamespaceRepr"
  | .taggedNamespace => "untagged and internally tagged enums do not support enum input"

/-- A misfit and its place. -/
structure PlacedMisfit where
  place : NodePlace
  misfit : Misfit
  deriving DecidableEq, Repr

/-- The words for a misfit, behind its place. -/
def PlacedMisfit.message (placed : PlacedMisfit) : String :=
  placed.place.shown ++ placed.misfit.message

/-- Why nothing can be read from a node. -/
inductive ReadFault where
  /-- The text makes no sense somewhere. -/
  | malformed
  | misfit (placed : PlacedMisfit)
  deriving DecidableEq, Repr

end TemplateBundle.Project

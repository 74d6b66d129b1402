import TemplateBundle.Text.WhiteSpace
import TemplateBundle.Text.Quoted

/-!
# Namespaces

Compiled templates hang from an object that a dotted name reaches from `this`. Resolving the name
gives the statements that make sure every object on the way exists, each guarded so that bundles
built apart can share parts of a name, and the expression for the last object.
-/

namespace TemplateBundle

/-- Where the templates of a bundle are attached: below a dotted name, or nowhere, in which case
the single template is what the module returns. -/
inductive Namespace where
  | named (name : String)
  | disabled
  deriving DecidableEq, Repr

/-- The ways in which a bundle has no usable namespace. -/
inductive NamespaceFault where
  /-- The name is blank. -/
  | blank
  /-- A segment of the name, which is kept as written, is blank. -/
  | blankSegment (written : String)
  /-- The namespace is disabled outside a module definition. -/
  | disabledOutsideModule
  deriving DecidableEq, Repr

/-- The message for a fault. -/
def NamespaceFault.message : NamespaceFault → String
  | .blank => "namespace must contain at least one segment"
  | .blankSegment written => "namespace '" ++ written ++ "' contains an empty segment"
  | .disabledOutsideModule => "`namespace: false` is only valid together with `amd: true`"

/-- A resolved name: the statements that declare its objects, and the object itself. -/
structure ResolvedNamespace where
  declaration : String
  expression : String
  deriving DecidableEq, Repr

namespace Namespace

/-- The object from which all names start. A segment of this name stays where it is. -/
def rootObject : String := "this"

/-- The namespace of a bundle that names none. -/
def standard : Namespace := .named "JST"

instance : Inhabited Namespace := ⟨standard⟩

/-- The name is shown as it is, a disabled namespace as `false`. -/
def shown : Namespace → String
  | .named name => name
  | .disabled => "false"

/-- The templates are attached to an object. -/
def isEnabled : Namespace → Bool
  | .named _ => true
  | .disabled => false

/-- The segments of a name, each without surrounding white space. -/
def segmentsOf (name : String) : List String :=
  ((Text.trim name).toList.splitOn '.').map fun segment => Text.trim (String.ofList segment)

/-- The statement that makes sure that the object exists. -/
def guardStatement (object : String) : String :=
  object ++ " = " ++ object ++ " || \x7b\x7d;"

/-- Walk from an object along segments: the last object, and a guard for every object entered. -/
def walk (object : String) : List String → String × List String
  | [] => (object, [])
  | segment :: rest =>
      if segment = rootObject then walk object rest
      else
        let entered := object ++ "[" ++ Text.quote segment ++ "]"
        let (last, guards) := walk entered rest
        (last, guardStatement entered :: guards)

/-- Resolve a dotted name. A blank name and a name with a blank segment have no meaning. -/
def resolve (name : String) : Except NamespaceFault ResolvedNamespace :=
  if Text.isBlank name then .error .blank
  else
    let segments := segmentsOf name
    if segments.contains "" then .error (.blankSegment name)
    else
      let (last, guards) := walk rootObject segments
      .ok { declaration := "\n".intercalate guards, expression := last }

end Namespace

end TemplateBundle

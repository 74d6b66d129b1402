import TemplateBundle.Namespace
import TemplateBundle.Options.NameRules
import TemplateBundle.Options.ContentRules

/-!
# Options of a bundle

Everything that shapes one bundle apart from its sources and its destination.
-/

namespace TemplateBundle

/-- The delimiters of a template language and the name of its data object. A delimiter is a
pattern with one capture group; one that is not set has its standard pattern. -/
structure TemplateSettings where
  escape : Option String := none
  evaluate : Option String := none
  interpolate : Option String := none
  /-- The parameter of the compiled function. With a name the template sees its data only through
  it; without one the properties of the data are in scope. -/
  dataName : Option String := none
  deriving DecidableEq, Repr, Inhabited

/-- Nothing is set. -/
def TemplateSettings.isStandard (settings : TemplateSettings) : Bool :=
  settings == {}

/-- How a source file is turned into templates. -/
inductive Mode where
  /-- The whole file is one template. -/
  | single
  /-- The file is a document that holds templates in its script elements. -/
  | multiple
  deriving DecidableEq, Repr

/-- The options of one bundle. -/
structure Options where
  home : Namespace := Namespace.standard
  settings : TemplateSettings := {}
  nameRules : NameRules := {}
  contentRules : ContentRules := {}
  /-- What stands between the entries of the bundle. -/
  separator : Option String := none
  /-- Sources are documents that hold templates. -/
  multiple : Bool := false
  /-- Compiled templates have no line breaks, and entries of a module are indented. -/
  prettify : Bool := false
  /-- The bundle is a module definition. -/
  amd : Bool := false
  deriving DecidableEq, Repr, Inhabited

namespace Options

/-- The separator of a bundle that sets none. -/
def standardSeparator : String := "\n\n"

/-- What stands between the entries. -/
def separatorText (options : Options) : String :=
  options.separator.getD standardSeparator

/-- How sources are read. -/
def mode (options : Options) : Mode :=
  if options.multiple then .multiple else .single

/-- Resolve the namespace. Only a module can do without one, since it can return its template. -/
def resolveNamespace (options : Options) : Except NamespaceFault (Option ResolvedNamespace) :=
  match options.home with
  | .named name => (Namespace.resolve name).map some
  | .disabled => if options.amd then .ok none else .error .disabledOutsideModule

end Options

end TemplateBundle

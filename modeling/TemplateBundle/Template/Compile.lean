import TemplateBundle.Script.Check
import TemplateBundle.Template.Source

/-!
# Compiling templates

A compiler turns the text of a template into the text of a function. Its settings can be checked
before any template is read.
-/

namespace TemplateBundle

namespace Template

/-- The name may stand for a variable. -/
def isVariableName (name : String) : Bool :=
  let isFirst := fun (c : Char) => c.isAlpha || c == '_' || c == '$'
  match name.toList with
  | [] => false
  | first :: others => isFirst first && others.all fun c => isFirst c || c.isDigit

/-- The variable that the settings name; an empty name is none. -/
def variableOf? (settings : TemplateSettings) : Except CompileFault (Option String) :=
  match settings.dataName with
  | none => .ok none
  | some name =>
      if name = "" then .ok none
      else if isVariableName name then .ok (some name)
      else .error (.invalidVariable name)

/-- The function of a template, if its syntax is right. -/
def compile (settings : TemplateSettings) (template : String) : Except CompileFault String := do
  let tags ← TagPattern.ofSettings settings
  let dataName ← variableOf? settings
  let source := String.ofList (functionText dataName (pieces tags template))
  match Script.check source with
  | none => pure source
  | some line => throw (.invalidScript line)

end Template

/-- How templates are compiled. -/
structure Compiler where
  /-- Check the settings. -/
  validate : TemplateSettings → Except CompileFault Unit := fun _ => .ok ()
  /-- The function of a template. -/
  source : TemplateSettings → String → Except CompileFault String
  /-- The size of a function is reported. -/
  reportsSize : Bool := false

namespace Compiler

/-- Templates are compiled by the rules for tags. -/
def tags : Compiler where
  validate := fun settings => do
    let _ ← Template.TagPattern.ofSettings settings
    let _ ← Template.variableOf? settings
  source := Template.compile
  reportsSize := true

/-- A template is taken for the function as it is. -/
def verbatim : Compiler where
  source := fun _ template => .ok template

/-- A function without line breaks, if `prettify`. -/
def finish (prettify : Bool) (source : String) : String :=
  if prettify then String.ofList (source.toList.filter (· ≠ '\n')) else source

/-- Compile a template, on one line if `prettify`. -/
def compile (compiler : Compiler) (settings : TemplateSettings) (prettify : Bool)
    (template : String) : Except CompileFault String :=
  (compiler.source settings template).map (finish prettify)

end Compiler

end TemplateBundle

import TemplateBundle.Bundle.Fault
import TemplateBundle.Document.Fragment
import TemplateBundle.Log
import TemplateBundle.Template.Compile

/-!
# Compiled files

A source file is one template, or a document with templates in it. Compiling it gives the
functions of its templates under the names by which the bundle will hold them.
-/

namespace TemplateBundle

/-- The function of a template with the name that it goes by. -/
structure CompiledTemplate where
  id : String
  source : String
  deriving DecidableEq, Repr, Inhabited

/-- The function leaves nothing to keep. -/
def CompiledTemplate.isBlank (template : CompiledTemplate) : Bool :=
  Text.isBlank template.source

/-- What a source file contributes. -/
inductive CompiledFile where
  | single (template : CompiledTemplate)
  | multiple (name : String) (templates : List CompiledTemplate)
  deriving DecidableEq, Repr, Inhabited

/-- The templates of a file. -/
def CompiledFile.templates : CompiledFile → List CompiledTemplate
  | .single template => [template]
  | .multiple _ templates => templates

/-- What a build works with: the compiler, and how the templates in documents are found. -/
structure Toolchain where
  compiler : Compiler := .tags
  /-- The type that marks templates in script elements. -/
  templateType : String := Document.standardType
  /-- The regions of a document that hold templates. -/
  regions : String → List Document.Region := Document.regions templateType

namespace Toolchain

open Reporting

/-- Report that a source does not compile. What exactly is wrong with a script is not said. -/
def refuse {α : Type} (path : Path) (fragment : Option String) (fault : CompileFault) :
    Reporting BuildFault α := do
  log .error fault.message
  log .error ("JST \"" ++ path.text ++ "\" failed to compile.")
  throw (.template path fragment fault)

/-- Report how much was compiled. -/
def reportSize (toolchain : Toolchain) (source : String) : Reporting BuildFault Unit :=
  if toolchain.compiler.reportsSize then
    log .trace ("compiled template bytes=" ++ toString source.utf8ByteSize)
  else pure ()

/-- Compile one template of a source. -/
def compileTemplate (toolchain : Toolchain) (options : Options) (path : Path)
    (fragment : Option String) (text : String) : Reporting BuildFault String := do
  match toolchain.compiler.source options.settings text with
  | .ok source =>
      toolchain.reportSize source
      pure (Compiler.finish options.prettify source)
  | .error fault => refuse path fragment fault

/-- Compile the fragments of a document. -/
def compileFragments (toolchain : Toolchain) (options : Options) (path : Path)
    (fragments : List Document.Fragment) : Reporting BuildFault (List CompiledTemplate) :=
  fragments.mapM fun fragment => do
    let source ← toolchain.compileTemplate options path (some fragment.id) fragment.text
    pure { id := fragment.id, source := source }

/-- Compile a source file. -/
def compileFile (toolchain : Toolchain) (options : Options) (path : Path) (raw : String) :
    Reporting BuildFault CompiledFile := do
  let content := options.contentRules.apply raw
  let name := options.nameRules.apply path.display
  match options.mode with
  | .single =>
      return .single { id := name, source := ← toolchain.compileTemplate options path none content }
  | .multiple =>
      let fragments := (toolchain.regions content).filterMap Document.Fragment.ofRegion?
      let templates ← toolchain.compileFragments options path fragments
      log .debug (path.text ++ ": " ++ toString templates.length ++ " template(s) extracted")
      return .multiple name templates

end Toolchain

end TemplateBundle

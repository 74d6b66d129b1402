import TemplateBundle.Bundle.Compiled

/-!
# Assembling a bundle

Compiled files become the entries of one script: first the declaration of the namespace, then an
assignment for each template, in the order of the files. A module definition goes around the
entries and returns the namespace. Without a namespace, a module returns its only template.
-/

namespace TemplateBundle.Bundle

open Reporting

/-- Opens a module definition. -/
def moduleOpening : String := "define(function()\x7b"

/-- Closes a module definition. -/
def moduleClosing : String := "\x7d);"

/-- The templates that have something to keep. Dropping one is reported. -/
def keepWritten (templates : List CompiledTemplate) :
    Reporting BuildFault (List CompiledTemplate) :=
  templates.filterM fun template => do
    if template.isBlank then
      log .warn ("template " ++ Text.quote template.id ++ " compiled to nothing, dropped")
      pure false
    else pure true

/-- The expression for a template in a namespace. -/
def slot (resolved : ResolvedNamespace) (id : String) : String :=
  resolved.expression ++ "[" ++ Text.quote id ++ "]"

/-- The assignment for a template that is a file of its own. -/
def singleEntry (resolved : ResolvedNamespace) (template : CompiledTemplate) : String :=
  slot resolved template.id ++ " = " ++ template.source ++ ";"

/-- The assignments for the templates of a document, below its name. -/
def documentEntry (resolved : ResolvedNamespace) (name : String)
    (templates : List CompiledTemplate) : String :=
  let lines := templates.map fun template =>
    slot resolved template.id ++ "=" ++ template.source ++ ";"
  "// " ++ Text.quote name ++ "\n" ++ "\n".intercalate lines

/-- The entry of a file, if it has one. -/
def assignments? (resolved : ResolvedNamespace) (file : CompiledFile) :
    Reporting BuildFault (Option String) := do
  match file with
  | .single template =>
      return (← keepWritten [template]).head?.map (singleEntry resolved)
  | .multiple name templates =>
      match ← keepWritten templates with
      | [] =>
          log .debug (name ++ ": no templates, skipped")
          return none
      | kept => return some (documentEntry resolved name kept)

/-- The entries of the files in a namespace. -/
def entries (resolved : ResolvedNamespace) (files : List CompiledFile) :
    Reporting BuildFault (List String) :=
  files.filterMapM (assignments? resolved)

/-- The only template, as what a module returns; there may be none. -/
def bareEntries (files : List CompiledFile) : Reporting BuildFault (List String) := do
  match ← keepWritten (files.flatMap CompiledFile.templates) with
  | [] => pure []
  | [template] => pure ["return " ++ template.source ++ ";"]
  | kept => throw (.ambiguous kept.length)

/-- Put a module definition around entries. -/
def wrapModule (prettify : Bool) (resolved : Option ResolvedNamespace) (entries : List String) :
    List String :=
  let inner := if prettify then entries.map ("  " ++ ·) else entries
  let result := match resolved with
    | some resolved => ["  return " ++ resolved.expression ++ ";"]
    | none => []
  [moduleOpening] ++ inner ++ result ++ [moduleClosing]

/-- What stands between entries; its line breaks are single characters. -/
def joint (options : Options) : String :=
  String.ofList (Text.replaceAll ['\r', '\n'] ['\n'] options.separatorText.toList)

/-- The text of a bundle, if any template is left. -/
def assemble (files : List CompiledFile) (resolved : Option ResolvedNamespace)
    (options : Options) : Reporting BuildFault (Option String) := do
  let written ← match resolved with
    | some resolved => entries resolved files
    | none =>
        if options.amd then bareEntries files
        else throw (.project (.namespace .disabledOutsideModule))
  if written.isEmpty then return none
  let declared := match resolved with
    | some resolved =>
        if resolved.declaration = "" then written else resolved.declaration :: written
    | none => written
  let parts := if options.amd then wrapModule options.prettify resolved declared else declared
  return some ((joint options).intercalate parts)

end TemplateBundle.Bundle

import TemplateBundle.Project.Basic
import TemplateBundle.Project.Record

/-!
# Reading project files

The fields of a project file and of its parts. A target may have fields of other tools; its options
and their parts may not, so that a misspelt one does not pass.
-/

namespace TemplateBundle.Project

open Yaml (Node Value)

/-- The rules for names. -/
def nameRulesShape : RecordShape NameRules where
  name := "NameRules"
  isClosed := true
  required := []
  start := {}
  fields := [
    .of "strip_prefix" .optionalText fun rules text => { rules with leading := text },
    .of "strip_extension" .truth fun rules value => { rules with dropExtension := value },
    .of "prefix" .optionalText fun rules text => { rules with inFront := text }]

/-- The rules for content. -/
def contentRulesShape : RecordShape ContentRules where
  name := "ContentRules"
  isClosed := true
  required := []
  start := {}
  fields := [
    .of "trim" .truth fun rules value => { rules with trim := value },
    .of "collapse_whitespace" .truth fun rules value => { rules with collapse := value }]

/-- The settings of templates. -/
def settingsShape : RecordShape TemplateSettings where
  name := "TemplateSettings"
  isClosed := true
  required := []
  start := {}
  fields := [
    .of "escape" .optionalText fun settings text => { settings with escape := text },
    .of "evaluate" .optionalText fun settings text => { settings with evaluate := text },
    .of "interpolate" .optionalText fun settings text => { settings with interpolate := text },
    .of "variable" .optionalText fun settings text => { settings with dataName := text }]

/-- A namespace: a name, or `false` for none. A scalar that is neither belongs to the options as a
whole, so it is they that are refused. -/
def namespaceNode : NodeDecoder Namespace := fun place node =>
  let around := place.dropLast
  match node with
  | .scalar text style tag =>
      if tag.any fun tag => tag.startsWith "!" then NodeDecoder.refuse place .taggedNamespace
      else
        match Value.ofScalar text style tag with
        | .ok (.text name) => .ok (.named name)
        | .ok (.truth false) => .ok .disabled
        | .ok (.truth true) => NodeDecoder.refuse around .namelessNamespace
        | .ok _ => NodeDecoder.refuse around .oddNamespace
        | .error wanted => NodeDecoder.refuse place (.wrongTag text wanted)
  | .cycle _ => .error .malformed
  | _ => if node.isWhole then NodeDecoder.refuse around .oddNamespace else .error .malformed

/-- The options of a target. -/
def optionsShape : RecordShape Options where
  name := "OptionsConfig"
  isClosed := true
  required := []
  start := {}
  fields := [
    .of "namespace" namespaceNode fun options home => { options with home := home },
    .of "template_settings" settingsShape.read fun options settings =>
      { options with settings := settings },
    .of "process_name" nameRulesShape.read fun options rules =>
      { options with nameRules := rules },
    .of "process_content" contentRulesShape.read fun options rules =>
      { options with contentRules := rules },
    .of "separator" .optionalText fun options text => { options with separator := text },
    .of "multiple" .truth fun options value => { options with multiple := value },
    .of "prettify" .truth fun options value => { options with prettify := value },
    .of "amd" .truth fun options value => { options with amd := value }]

/-- A target. -/
def targetShape : RecordShape Target where
  name := "TargetConfig"
  isClosed := false
  required := ["name", "dest"]
  start := default
  fields := [
    .of "name" .text fun target name => { target with name := name },
    .of "dest" .path fun target path => { target with destination := ⟨path⟩ },
    .of "src" (.list .text) fun target sources => { target with sources := sources },
    .of "options" optionsShape.read fun target options => { target with options := options }]

/-- A project file. -/
def fileShape : RecordShape ProjectFile where
  name := "ProjectConfig"
  isClosed := false
  required := []
  start := {}
  fields := [
    .of "targets" (.list targetShape.read) fun file targets => { file with targets := targets }]

end TemplateBundle.Project

namespace TemplateBundle

/-- Read what a project file says. -/
def ProjectFile.ofText (text : String) : Except Project.ReadFault ProjectFile :=
  Project.readText Project.fileShape.read text

end TemplateBundle

import TemplateBundle.Data
import TemplateBundle.Project.Basic

/-!
# Writing project files

The data of a project file. What would read back as the standard anyway is left out, apart from the
switches and the namespace, which are always shown.
-/

namespace TemplateBundle

/-- A text field that is written only if it is set. -/
def Data.optionalText (name : String) (value : Option String) : List (String × Data) :=
  Data.optional name (value.map .text)

/-- The data of the rules for names. -/
def NameRules.toData (rules : NameRules) : Data :=
  .record (Data.optionalText "strip_prefix" rules.leading ++
    [("strip_extension", .truth rules.dropExtension)] ++ Data.optionalText "prefix" rules.inFront)

/-- The data of the rules for content. -/
def ContentRules.toData (rules : ContentRules) : Data :=
  .record [("trim", .truth rules.trim), ("collapse_whitespace", .truth rules.collapse)]

/-- The data of the settings of templates. -/
def TemplateSettings.toData (settings : TemplateSettings) : Data :=
  .record (Data.optionalText "escape" settings.escape ++
    Data.optionalText "evaluate" settings.evaluate ++
    Data.optionalText "interpolate" settings.interpolate ++
    Data.optionalText "variable" settings.dataName)

/-- The data of a namespace. -/
def Namespace.toData : Namespace → Data
  | .named name => .text name
  | .disabled => .truth false

/-- The data of options. -/
def Options.toData (options : Options) : Data :=
  let unlessStandard := fun (standard : Bool) (data : Data) => if standard then none else some data
  .record ([("namespace", options.home.toData)] ++
    Data.optional "template_settings"
      (unlessStandard options.settings.isStandard options.settings.toData) ++
    Data.optional "process_name"
      (unlessStandard options.nameRules.isIdentity options.nameRules.toData) ++
    Data.optional "process_content"
      (unlessStandard options.contentRules.isIdentity options.contentRules.toData) ++
    Data.optionalText "separator" options.separator ++
    [("multiple", .truth options.multiple), ("prettify", .truth options.prettify),
      ("amd", .truth options.amd)])

/-- The data of a target. -/
def Target.toData (target : Target) : Data :=
  .record [("name", .text target.name), ("dest", .text target.destination.text),
    ("src", .list (target.sources.map .text)), ("options", target.options.toData)]

/-- The data of a project file. -/
def ProjectFile.toData (file : ProjectFile) : Data :=
  .record [("targets", .list (file.targets.map Target.toData))]

end TemplateBundle

/-!
# Faults of templates

Why a template, or the settings for templates, cannot be used.
-/

namespace TemplateBundle

/-- The cause why a template does not compile. -/
inductive CompileFault where
  /-- A delimiter that is no pattern. The name `combined` stands for all delimiters together. -/
  | invalidDelimiter (name : String)
  | delimiterGroups (name : String) (found : Nat)
  | invalidVariable (name : String)
  /-- The line of the produced script at which its syntax is wrong. -/
  | invalidScript (line : Nat)
  deriving DecidableEq, Repr, Inhabited

/-- The words for a fault. What is wrong with a pattern or a script is not said. -/
def CompileFault.message : CompileFault → String
  | .invalidDelimiter name => "invalid \x60" ++ name ++ "\x60 delimiter"
  | .delimiterGroups name found =>
      "\x60" ++ name ++ "\x60 delimiter must have exactly one capture group, found " ++
        toString found
  | .invalidVariable name => "template variable '" ++ name ++ "' is not a valid identifier"
  | .invalidScript line => "syntax error on line " ++ toString line

end TemplateBundle

import TemplateBundle.Bundle.Compiled
import TemplateBundle.Proofs.Template.PlainText

/-!
# Runs with a function that is known

Checking the script of a template takes long when a run is evaluated. A run may recall the function
of one template instead, which changes nothing where it is the right one (`recalling_eq`).
-/

namespace TemplateBundle

/-- The usual toolchain, with the function of one template written down. -/
def Toolchain.recalling (template source : String) : Toolchain where
  compiler := { Compiler.tags with
    source := fun settings text =>
      if settings = {} ∧ text = template then .ok source else Template.compile settings text }

theorem Toolchain.recalling_eq {template source : String}
    (h : Template.compile {} template = .ok source) : Toolchain.recalling template source = {} := by
  have hsource : (fun settings text => if settings = {} ∧ text = template then Except.ok source
      else Template.compile settings text) = Template.compile := by
    funext settings text
    split_ifs with hknown
    · rw [hknown.1, hknown.2, h]
    · rfl
  unfold Toolchain.recalling
  rw [hsource]
  rfl

namespace Template

/-- The function of a template of one letter. -/
def letterFunction : String := String.ofList (plainFunction ['x'])

theorem compile_letter : compile {} "x" = .ok letterFunction := by
  have hpieces : ((TagPattern.ofSettings {}).toOption.map fun tags => pieces tags "x") =
      some [.text ['x']] := by
    decide +kernel
  obtain ⟨tags, htags, hpieces⟩ := Option.map_eq_some_iff.mp hpieces
  have htext : functionText none (pieces tags "x") = plainFunction ['x'] := by
    rw [hpieces, function_text_plain]
  exact compile_of_check (except_ok_iff_to_option.mpr htags) rfl htext (check_plain_function _)

end Template

/-- The usual toolchain, which knows the function of a template of one letter. -/
def Toolchain.knowingLetter : Toolchain := .recalling "x" Template.letterFunction

theorem Toolchain.knowing_letter_eq : Toolchain.knowingLetter = {} :=
  recalling_eq Template.compile_letter

end TemplateBundle

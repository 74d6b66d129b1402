import TemplateBundle.Proofs.Template.PlainText

/-!
# Functions of templates in other scripts

A bundle assigns the function of a template. For plain text the function is one value, so that it
may be assigned (`assign_plain_text`). The check of a compiled template does not ensure this for
embedded code, which may close the function and the parentheses that the check puts around it
(`compile_closing_code`).
-/

namespace TemplateBundle.Template

open Script

/-- Under settings that are valid and name no variable, a template in which no tag is found compiles
to a function that is right on its own and may be assigned. -/
theorem assign_plain_text {settings : TemplateSettings} {template : String}
    (hvalid : Compiler.tags.validate settings = .ok ())
    (hvariable : variableOf? settings = .ok none)
    (hnone : ∀ tags, TagPattern.ofSettings settings = .ok tags → tags.FindsNone template) :
    ∃ source, compile settings template = .ok source ∧ check source = none ∧
      check (String.ofList (assigning source.toList)) = none := by
  obtain ⟨tags, htags⟩ := tags_of_valid hvalid
  have htext : functionText none (pieces tags template) = plainFunction template.toList := by
    rw [pieces_of_none (hnone tags htags), function_text_plain]
  have hcheck := check_plain_function template.toList
  have hvalue := (plain_function_is_value template.toList).assigned
  have hextent : 9 ≤ extent (assigning (plainFunction template.toList)) :=
    (nine_le_extent template.toList).trans (List.infix_append' _ _ _).sublist.countP_le
  refine ⟨_, compile_of_check htags hvariable htext hcheck, hcheck, ?_⟩
  rw [String.toList_ofList]
  exact hvalue.check_none (by omega) hextent

/-- The function of a template whose code closes it and opens another one. -/
def closedFunction : List Char :=
  "function(obj) \x7b\nobj || (obj = \x7b\x7d);\n".toList ++
    "var __t, __p = '', __e = _.escape".toList ++ ", __j = Array.prototype.join;\n".toList ++
    "function print() \x7b __p += ".toList ++ "__j.call(arguments, '') \x7d\n".toList ++
    "with (obj) \x7b\n\n \x7d\x7d) + (function()\x7b\x7b ;\n".toList ++
    "\n\n\x7d\nreturn __p\n\x7d".toList

/-- Code that closes the function and opens another one compiles, because the parentheses of the
check are closed and opened as well. The result cannot be assigned. -/
theorem compile_closing_code : ∃ source,
    compile {} "<% \x7d\x7d) + (function()\x7b\x7b %>" = .ok source ∧
      check (String.ofList (assigning source.toList)) = some 8 := by
  have hpieces : ((TagPattern.ofSettings {}).toOption.map fun tags =>
      pieces tags "<% \x7d\x7d) + (function()\x7b\x7b %>") =
        some [.text [], .code .evaluate " \x7d\x7d) + (function()\x7b\x7b ".toList, .text []] := by
    decide +kernel
  obtain ⟨tags, htags, hpieces⟩ := Option.map_eq_some_iff.mp hpieces
  have htext : functionText none (pieces tags "<% \x7d\x7d) + (function()\x7b\x7b %>") =
      closedFunction := by
    rw [hpieces]
    decide +kernel
  have hcheck : check (String.ofList closedFunction) = none := by
    rw [check, String.toList_ofList]
    decide +kernel
  refine ⟨_, compile_of_check (except_ok_iff_to_option.mpr htags) rfl htext hcheck, ?_⟩
  rw [String.toList_ofList, check, String.toList_ofList]
  decide +kernel

end TemplateBundle.Template

/-!
# Replacing one text by another

Replacing every occurrence of a text, from left to right: an occurrence is looked for only behind
the one before it, and what was put in is never looked at again.
-/

namespace TemplateBundle.Text

/-- The text behind `pattern`, if it starts with it. -/
def after? : (pattern text : List Char) → Option (List Char)
  | [], text => some text
  | _ :: _, [] => none
  | p :: pattern, c :: text => if p = c then after? pattern text else none

/-- What stands behind a pattern is shorter by the pattern. -/
theorem length_after? {pattern text rest : List Char} (h : after? pattern text = some rest) :
    text.length = pattern.length + rest.length := by
  induction pattern generalizing text with
  | nil => simp_all [after?]
  | cons p pattern ih =>
      cases text with
      | nil => simp [after?] at h
      | cons c text =>
          simp only [after?] at h
          split at h
          · have := ih h
            simp only [List.length_cons]
            omega
          · simp at h

/-- The text with every occurrence of `pattern` replaced. An empty pattern does not occur. -/
def replaceAll (pattern replacement : List Char) : List Char → List Char
  | [] => []
  | c :: rest =>
      match pattern with
      | [] => c :: rest
      | p :: others =>
          match _found : after? (p :: others) (c :: rest) with
          | some behind => replacement ++ replaceAll (p :: others) replacement behind
          | none => c :: replaceAll (p :: others) replacement rest
  termination_by text => text.length
  decreasing_by
    · have := length_after? _found
      simp only [List.length_cons] at this ⊢
      omega
    · simp

/-- The text with every occurrence of `pattern` replaced. -/
def replace (text pattern replacement : String) : String :=
  String.ofList (replaceAll pattern.toList replacement.toList text.toList)

end TemplateBundle.Text

import TemplateBundle.Proofs.Text.Prefix

/-!
# Replacing every occurrence

Replacing steps over an occurrence, and over a part in which none starts, and goes on behind it. What
is put in makes up no part of a text that lacks its character: such a text starts the result only if
it started the text before (`prefix_of_prefix_replace`).
-/

namespace TemplateBundle.Text

variable {pattern text : List Char} {c : Char}

@[simp]
theorem replace_all_nil (pattern replacement : List Char) :
    replaceAll pattern replacement [] = [] := by
  rw [replaceAll]

theorem replace_all_found (hpattern : pattern ≠ []) (replacement behind : List Char) :
    replaceAll pattern replacement (pattern ++ behind) =
      replacement ++ replaceAll pattern replacement behind := by
  obtain ⟨p, others, rfl⟩ := List.exists_cons_of_ne_nil hpattern
  rw [List.cons_append, replaceAll]
  split
  · rename_i found hfound
    obtain rfl := List.append_cancel_left (after_eq_some_iff.mp hfound)
    rfl
  · rename_i hfound
    exact absurd (List.prefix_append _ behind) (after_eq_none_iff.mp hfound)

theorem replace_all_other (h : ¬ pattern <+: c :: text) (replacement : List Char) :
    replaceAll pattern replacement (c :: text) = c :: replaceAll pattern replacement text := by
  have hpattern : pattern ≠ [] := fun hnil => h (hnil ▸ List.nil_prefix)
  obtain ⟨p, others, rfl⟩ := List.exists_cons_of_ne_nil hpattern
  conv_lhs => rw [replaceAll]
  split
  · rename_i found hfound
    exact absurd ⟨found, (after_eq_some_iff.mp hfound).symm⟩ h
  · rfl

/-- Nothing is replaced in a part without the first character of the pattern. -/
theorem replace_all_append_of_not_mem {front : List Char} (h : c ∉ front)
    (replacement text : List Char) :
    replaceAll (c :: pattern) replacement (front ++ text) =
      front ++ replaceAll (c :: pattern) replacement text := by
  induction front with
  | nil => rfl
  | cons d front ih =>
      have hother : ¬ c :: pattern <+: d :: (front ++ text) :=
        fun hprefix => List.ne_of_not_mem_cons h (List.cons_prefix_cons.mp hprefix).1
      rw [List.cons_append, replace_all_other hother, ih (List.not_mem_of_not_mem_cons h),
        List.cons_append]

/-- What starts the result started the text, if it lacks the character that was put in. -/
theorem prefix_of_prefix_replace {start : List Char} (hpattern : pattern ≠ []) (hc : c ∉ start)
    (h : start <+: replaceAll pattern [c] text) : start <+: text := by
  induction start generalizing text with
  | nil => exact List.nil_prefix
  | cons d start ih =>
      cases text with
      | nil => simp at h
      | cons e text =>
          by_cases hfound : pattern <+: e :: text
          · obtain ⟨behind, hbehind⟩ := hfound
            rw [← hbehind, replace_all_found hpattern] at h
            exact absurd (List.cons_prefix_cons.mp h).1.symm (List.ne_of_not_mem_cons hc)
          · rw [replace_all_other hfound] at h
            obtain ⟨rfl, hrest⟩ := List.cons_prefix_cons.mp h
            exact List.cons_prefix_cons.mpr ⟨rfl, ih (List.not_mem_of_not_mem_cons hc) hrest⟩

end TemplateBundle.Text

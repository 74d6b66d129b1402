import Mathlib.Data.List.Infix
import TemplateBundle.Text.Replace

/-!
# Texts at the start of others

When a text starts with another one that is looked for, and how far that reaches when the text is
put together from parts.
-/

namespace TemplateBundle.Text

/-- What stands behind a text is what follows it. -/
theorem after_eq_some_iff {pattern text rest : List Char} :
    after? pattern text = some rest ↔ text = pattern ++ rest := by
  induction pattern generalizing text with
  | nil => simp [after?]
  | cons p pattern ih =>
      cases text with
      | nil => simp [after?]
      | cons c text =>
          by_cases hc : p = c
          · simp [after?, hc, ih]
          · simp [after?, hc, Ne.symm hc]

/-- A text is looked for without success where the text does not start with it. -/
theorem after_eq_none_iff {pattern text : List Char} :
    after? pattern text = none ↔ ¬ pattern <+: text := by
  constructor
  · rintro h ⟨rest, hrest⟩
    rw [after_eq_some_iff.mpr hrest.symm] at h
    cases h
  · intro h
    cases hafter : after? pattern text with
    | none => rfl
    | some rest => exact absurd ⟨rest, (after_eq_some_iff.mp hafter).symm⟩ h

/-- What is found at the start of two parts does not reach into the second one, if that starts with
a character that is not looked for. -/
theorem prefix_of_prefix_append {pattern first second : List Char} {c : Char}
    (h : pattern <+: first ++ c :: second) (hc : c ∉ pattern) : pattern <+: first := by
  have hlonger : first ++ [c] <+: first ++ c :: second := ⟨second, by simp⟩
  rcases List.prefix_or_prefix_of_prefix h hlonger with hpattern | hfirst
  · rcases List.prefix_concat_iff.mp hpattern with heq | hpattern
    · exact absurd (heq ▸ List.mem_append_right _ List.mem_cons_self) hc
    · exact hpattern
  · exact absurd (hfirst.subset (List.mem_append_right _ List.mem_cons_self)) hc

/-- The same holds of a part that is not empty, if the second one starts with a character that is
not looked for behind the first one. -/
theorem prefix_of_prefix_append_of_tail {pattern first second : List Char} {c' c : Char}
    (h : c' :: pattern <+: first ++ c :: second) (hfirst : first ≠ []) (hc : c ∉ pattern) :
    c' :: pattern <+: first := by
  cases first with
  | nil => exact absurd rfl hfirst
  | cons d first =>
      rw [List.cons_append, List.cons_prefix_cons] at h
      exact List.cons_prefix_cons.mpr ⟨h.1, prefix_of_prefix_append h.2 hc⟩

/-- Two texts of which both have the first line break at the end of the first part agree there. -/
theorem line_inj {line other next after : List Char} (hline : '\n' ∉ line) (hother : '\n' ∉ other)
    (h : line ++ '\n' :: next = other ++ '\n' :: after) : line = other ∧ next = after := by
  induction line generalizing other with
  | nil =>
      cases other with
      | nil => exact ⟨rfl, (List.cons.inj h).2⟩
      | cons d other =>
          obtain ⟨hd, -⟩ := List.cons.inj h
          exact absurd (hd ▸ List.mem_cons_self) hother
  | cons c line ih =>
      cases other with
      | nil =>
          obtain ⟨hc, -⟩ := List.cons.inj h
          exact absurd (hc ▸ List.mem_cons_self) hline
      | cons d other =>
          obtain ⟨rfl, hrest⟩ := List.cons.inj h
          obtain ⟨rfl, hnext⟩ := ih (fun hmem => hline (List.mem_cons_of_mem _ hmem))
            (fun hmem => hother (List.mem_cons_of_mem _ hmem)) hrest
          exact ⟨rfl, hnext⟩

end TemplateBundle.Text

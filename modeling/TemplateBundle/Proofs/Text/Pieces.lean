import Mathlib.Tactic.Common

/-!
# Pieces of a text

A text is cut at every occurrence of a separator.
-/

namespace TemplateBundle.Text

/-- A text without separators is one piece; any other one has a last piece behind a separator. -/
theorem exists_last_piece (separator : Char) (text : List Char) :
    separator ∉ text ∨ ∃ front last, text = front ++ separator :: last ∧ separator ∉ last := by
  induction text with
  | nil => simp
  | cons c text ih =>
      rcases ih with hsingle | ⟨front, last, rfl, hlast⟩
      · by_cases hc : c = separator
        · exact Or.inr ⟨[], text, by simp [hc], hsingle⟩
        · exact Or.inl (by simp [hsingle, Ne.symm hc])
      · exact Or.inr ⟨c :: front, last, rfl, hlast⟩

/-- The characters of a piece are those of the text, and none is a separator. The induction is on
the text, whose first character belongs to the first piece or ends it. -/
theorem mem_of_mem_piece (separator : Char) (text : List Char) :
    ∀ piece ∈ text.splitOn separator, ∀ c ∈ piece, c ∈ text ∧ c ≠ separator := by
  induction text with
  | nil => simp
  | cons first text ih =>
      have hlonger : ∀ piece ∈ text.splitOn separator,
          ∀ c ∈ piece, c ∈ first :: text ∧ c ≠ separator :=
        fun piece hpiece c hc => (ih piece hpiece c hc).imp_left (List.mem_cons_of_mem _)
      rw [List.splitOn_cons_eq_if_modifyHead]
      split
      · exact List.forall_mem_cons.mpr ⟨nofun, hlonger⟩
      · rename_i hfirst
        cases hpieces : text.splitOn separator with
        | nil => exact absurd hpieces (List.splitOn_ne_nil _ _)
        | cons piece others =>
            rw [hpieces] at hlonger
            obtain ⟨hpiece, hothers⟩ := List.forall_mem_cons.mp hlonger
            refine List.forall_mem_cons.mpr ⟨List.forall_mem_cons.mpr ⟨?_, hpiece⟩, hothers⟩
            exact ⟨List.mem_cons_self, by simpa using hfirst⟩

end TemplateBundle.Text

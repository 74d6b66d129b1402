import TemplateBundle.Path

/-!
# Paths in order

Steps are compared by their kinds and, among names, by their texts. Paths are compared by the lists
of their steps, so that two paths of which none comes first have the same steps (`compare_eq_iff`),
and sorting by this order gives a sorted list (`sorts_before_trans`, `sorts_before_total`).
-/

namespace TemplateBundle.Path

open Std (TransCmp LawfulEqCmp OrientedCmp)

variable {first second third : Path}

/-- The text of a step that is a name. -/
def Component.nameText : Component → String
  | .name text => text
  | _ => ""

theorem Component.compare_eq :
    Component.compare = compareLex (compareOn Component.rank) (compareOn Component.nameText) := by
  funext left right
  cases left <;> cases right <;> rfl

instance : TransCmp Component.compare := by
  rw [Component.compare_eq]
  infer_instance

instance : LawfulEqCmp Component.compare where
  eq_of_compare {left right} h := by
    rw [Component.compare_eq, compareLex_eq_eq] at h
    obtain ⟨hrank, hname⟩ := h
    have hrank : left.rank = right.rank := LawfulEqCmp.eq_of_compare hrank
    have hname : left.nameText = right.nameText := LawfulEqCmp.eq_of_compare hname
    cases left <;> cases right <;> cases hrank <;> cases hname <;> rfl

theorem compare_components_eq : compareComponents = List.compareLex Component.compare := by
  funext left right
  induction left generalizing right with
  | nil => cases right <;> rfl
  | cons step steps ih =>
      cases right with
      | nil => rfl
      | cons other others =>
          rw [List.compareLex_cons_cons, ← ih, compareComponents]
          cases Component.compare step other <;> rfl

instance : TransCmp Path.compare where
  eq_swap := by
    unfold Path.compare
    rw [compare_components_eq]
    exact OrientedCmp.eq_swap
  isLE_trans := by
    unfold Path.compare
    rw [compare_components_eq]
    exact TransCmp.isLE_trans

theorem compare_eq_iff : first.compare second = .eq ↔ first.same second = true := by
  rw [Path.compare, compare_components_eq, LawfulEqCmp.compare_eq_iff_eq, same, beq_iff_eq]

theorem sorts_before_trans (first second third : Path) (h : first.sortsBefore second = true)
    (hrest : second.sortsBefore third = true) : first.sortsBefore third = true :=
  TransCmp.isLE_trans h hrest

theorem sorts_before_total (first second : Path) :
    (first.sortsBefore second || second.sortsBefore first) = true := by
  have hswap : second.compare first = (first.compare second).swap := OrientedCmp.eq_swap
  unfold sortsBefore
  rw [hswap]
  cases first.compare second <;> rfl

/-- Of two paths with different steps, the one that sorts before the other comes first. -/
theorem compare_lt (h : first.sortsBefore second = true) (hsame : first.same second = false) :
    first.compare second = .lt := by
  have hne : first.compare second ≠ .eq := by
    rw [Ne, compare_eq_iff, hsame]
    exact Bool.false_ne_true
  unfold sortsBefore at h
  cases hcompare : first.compare second with
  | lt => rfl
  | eq => exact absurd hcompare hne
  | gt => rw [hcompare] at h; cases h

theorem compare_lt_asymm (h : first.compare second = .lt) : second.compare first ≠ .lt := by
  have hswap : second.compare first = (first.compare second).swap := OrientedCmp.eq_swap
  rw [hswap, h]
  nofun

end TemplateBundle.Path

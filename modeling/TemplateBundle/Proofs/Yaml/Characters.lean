import Mathlib.Data.Nat.Digits.Defs
import Mathlib.Tactic.SplitIfs
import TemplateBundle.Yaml.Printer

/-!
# Characters that are written

What printable characters are to a scanner, and how texts are cut into lines. A printable line end
stands for itself, and a printable blank is a space.
-/

namespace TemplateBundle.Yaml

open Printer

/-! ## Printable characters -/

/-- A printable character is not one that is not. -/
theorem ne_of_printable {c other : Char} (h : isPrintable c = true)
    (hother : isPrintable other = false) : c ≠ other := by
  rintro rfl
  rw [h] at hother
  cases hother

/-- A printable line end stands for itself. -/
theorem break_char_of_printable {c : Char} (hprintable : isPrintable c = true)
    (hbreak : isBreak c = true) : breakChar c = c := by
  have hreturn : c ≠ '\r' := ne_of_printable hprintable (by decide)
  have hnext : c ≠ '\u0085' := ne_of_printable hprintable (by decide)
  unfold isBreak at hbreak
  simp only [Bool.or_eq_true, beq_iff_eq, hreturn, hnext, or_false] at hbreak
  rcases hbreak with (rfl | rfl) | rfl <;> decide

/-- A printable blank is a space. -/
theorem space_of_printable {c : Char} (hprintable : isPrintable c = true)
    (hblank : isBlank c = true) : c = ' ' := by
  have htab : c ≠ '\t' := ne_of_printable hprintable (by decide)
  unfold isBlank at hblank
  simpa [htab] using hblank

/-- A printable character may stand in a text. -/
theorem allowed_of_printable {c : Char} (h : isPrintable c = true) : isAllowed c = true := by
  have hend : c ≠ '\uffff' := ne_of_printable h (by decide)
  have hbefore : c ≠ '\ufffe' := ne_of_printable h (by decide)
  unfold isPrintable at h
  unfold isAllowed
  simp only [Bool.or_eq_true, Bool.and_eq_true, beq_iff_eq, bne_iff_ne] at h ⊢
  rcases h with (hline | hascii) | ⟨⟨hlow, -⟩, -⟩
  · exact .inl (.inl (.inl (.inl (.inr hline))))
  · exact .inl (.inr hascii)
  · exact .inr ⟨⟨hlow, hbefore⟩, hend⟩

/-! ## Pairs of characters -/

variable {first second : Char → Bool} {c next : Char} {text : List Char}

theorem has_pair_tail (h : hasPair first second (c :: text) = false) :
    hasPair first second text = false := by
  cases text with
  | nil => rfl
  | cons next rest =>
      rw [hasPair, Bool.or_eq_false_iff] at h
      exact h.2

theorem has_pair_head (h : hasPair first second (c :: next :: text) = false)
    (hfirst : first c = true) : second next = false := by
  rw [hasPair, Bool.or_eq_false_iff, Bool.and_eq_false_iff] at h
  rcases h.1 with hnone | hnone
  · rw [hfirst] at hnone
    cases hnone
  · exact hnone

/-! ## Lines with indentation -/

@[simp] theorem indent_lines_nil (indent : Nat) (atStart : Bool) :
    indentLines indent atStart [] = [] := rfl

theorem indent_lines_break (indent : Nat) (atStart : Bool) (h : isBreak c = true) :
    indentLines indent atStart (c :: text) = c :: indentLines indent true text := by
  rw [indentLines, if_pos h]

theorem indent_lines_start (indent : Nat) (h : isBreak c = false) :
    indentLines indent true (c :: text) =
      indentation indent ++ c :: indentLines indent false text := by
  rw [indentLines, if_neg (by simp [h]), if_pos rfl]

theorem indent_lines_inside (indent : Nat) (h : isBreak c = false) :
    indentLines indent false (c :: text) = c :: indentLines indent false text := by
  rw [indentLines, if_neg (by simp [h]), if_neg (by decide)]

/-- A text goes on in the line in which the one before it ends. -/
theorem indent_lines_append (indent : Nat) (atStart : Bool) (text other : List Char) :
    indentLines indent atStart (text ++ other) =
      indentLines indent atStart text ++
        indentLines indent (text.getLast?.elim atStart isBreak) other := by
  induction text generalizing atStart with
  | nil => rfl
  | cons c text ih =>
      have hlast : (c :: text).getLast?.elim atStart isBreak =
          text.getLast?.elim (isBreak c) isBreak := by
        rw [List.getLast?_cons]
        cases text.getLast? <;> rfl
      rw [hlast, List.cons_append]
      cases hc : isBreak c with
      | true =>
          rw [indent_lines_break indent atStart hc, indent_lines_break indent atStart hc, ih,
            List.cons_append]
      | false =>
          cases atStart with
          | true =>
              rw [indent_lines_start indent hc, indent_lines_start indent hc, ih,
                List.append_assoc, List.cons_append]
          | false =>
              rw [indent_lines_inside indent hc, indent_lines_inside indent hc, ih,
                List.cons_append]

end TemplateBundle.Yaml

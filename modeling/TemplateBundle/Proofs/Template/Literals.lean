import TemplateBundle.Proofs.Script.Lexing
import TemplateBundle.Proofs.Script.StringValue
import TemplateBundle.Proofs.Template.Layout

/-!
# Literals for text

The literal that is written for a text has the text as its value and ends at its closing quote
(`string_units_escape`). It is one token for the parser, too (`spells_literal`).
-/

namespace TemplateBundle.Template

open Script

variable {rest : List Char} {tokens : List Shown} {bound : Nat}

theorem length_escape_char (c : Char) : 0 < (escapeChar c).length := by
  unfold escapeChar
  split <;> exact Nat.succ_pos _

theorem length_escape_text (text : List Char) : text.length ≤ (escapeText text).length := by
  induction text with
  | nil => exact Nat.le_refl 0
  | cons c text ih =>
      have hc := length_escape_char c
      rw [escapeText, List.flatMap_cons, List.length_append, List.length_cons]
      exact Nat.add_comm text.length 1 ▸ Nat.add_le_add hc ih

/-! ## The value -/

/-- What is written for a character is read as the character. -/
theorem units_escape_char (c : Char) (bound : Nat) (rest : List Char) :
    unitsUpTo? '\'' (bound + 1) (escapeChar c ++ rest) =
      (unitsUpTo? '\'' bound rest).map fun (others, behind) =>
        (codeUnits c.toNat ++ others, behind) := by
  unfold escapeChar
  split
  case h_8 hbackslash hquote hfeed hreturn _ _ _ =>
    rw [List.singleton_append, unitsUpTo?]
    rw [if_neg hquote, if_neg (not_or.mpr ⟨hfeed, hreturn⟩), if_neg hbackslash]
  all_goals rfl

/-- The literal for a text ends at its closing quote and has the text as its value. -/
theorem string_units_escape (text rest : List Char) :
    stringUnits? (escapeText text ++ '\'' :: rest) = some (unitsOf text, rest) := by
  have hread (bound : Nat) (hbound : text.length < bound) :
      unitsUpTo? '\'' bound (escapeText text ++ '\'' :: rest) = some (unitsOf text, rest) := by
    obtain ⟨fewer, rfl⟩ := Nat.exists_eq_add_of_lt hbound
    clear hbound
    induction text with
    | nil => rfl
    | cons c text ih =>
        have hshorter : (c :: text).length + fewer + 1 = text.length + fewer + 1 + 1 := by
          rw [List.length_cons]
          omega
        rw [hshorter, escapeText, List.flatMap_cons, List.append_assoc, units_escape_char]
        show (unitsUpTo? _ _ (escapeText text ++ '\'' :: rest)).map _ = _
        rw [ih]
        rfl
  have hlength := length_escape_text text
  refine hread _ ?_
  rw [List.length_append]
  omega

/-! ## The token -/

/-- What the parser keeps of a character of a literal: of an escape, the backslash. -/
def keptChar (c : Char) : Char :=
  (escapeChar c).headD c

theorem body_escape_char (c : Char) (start bound line : Nat) (rest written : List Char) :
    stringBody '\'' start (bound + 1) (escapeChar c ++ rest) line false written =
      stringBody '\'' start bound rest line false (keptChar c :: written) := by
  unfold keptChar escapeChar
  split
  case h_8 hbackslash hquote hfeed hreturn _ _ _ =>
    have hline : lineBehind c line = line := if_neg hfeed
    rw [List.singleton_append, stringBody]
    · rw [if_neg hquote, if_neg (not_or.mpr ⟨hfeed, hreturn⟩), hline]
      rfl
    · exact hbackslash
  all_goals rfl

/-- The induction is on the text. -/
theorem body_escape_text (text : List Char) (start line : Nat) (hbound : text.length < bound)
    (written : List Char) :
    stringBody '\'' start bound (escapeText text ++ '\'' :: rest) line false written =
      .ok (.string (written.reverse ++ text.map keptChar) false, ⟨rest, line⟩) := by
  obtain ⟨fewer, rfl⟩ := Nat.exists_eq_add_of_lt hbound
  clear hbound
  induction text generalizing written with
  | nil =>
      rw [List.map_nil, List.append_nil]
      rfl
  | cons c text ih =>
      have hshorter : (c :: text).length + fewer + 1 = text.length + fewer + 1 + 1 := by
        rw [List.length_cons]
        omega
      rw [hshorter, escapeText, List.flatMap_cons, List.append_assoc, body_escape_char]
      show stringBody _ _ _ (escapeText text ++ '\'' :: rest) _ _ _ = _
      rw [ih, List.reverse_cons, List.append_assoc]
      rfl

/-- The literal for a text is one token. -/
theorem spells_literal (text : List Char) (h : Spells rest tokens) :
    Spells ('\'' :: (escapeText text ++ '\'' :: rest))
      (Shown.string (text.map keptChar) :: tokens) := by
  refine spells_token (by decide) rfl (fun line => ?_) h
  have hlength := length_escape_text text
  show stringBody '\'' line _ (escapeText text ++ '\'' :: rest) line false [] = _
  rw [body_escape_text text line line (by rw [List.length_append]; omega)]
  rfl

end TemplateBundle.Template

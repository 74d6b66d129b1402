import TemplateBundle.Proofs.Text.Prefix
import TemplateBundle.Template.Source

/-!
# Rewriting by rules

What applying a rule to a text gives, as a relation that follows the text (`Rewrites`), and how it
goes over a text put together from blocks (`Turns`). A block is turned into another one on its own
if no application of the rule reaches across its ends; a block in which the rule does not apply at
all is `Quiet`.
-/

namespace TemplateBundle.Template

variable {rule : Rule} {previous : Option Char} {text result rest : List Char}

/-! ## Rewriting -/

/-- The rule turns the text behind a character into the result, from left to right. -/
inductive Rewrites (rule : Rule) : Option Char → List Char → List Char → Prop where
  | nil {previous : Option Char} : Rewrites rule previous [] []
  | miss {previous : Option Char} {c : Char} {rest result : List Char}
      (hrule : rule previous (c :: rest) = none) (hrest : Rewrites rule (some c) rest result) :
      Rewrites rule previous (c :: rest) (c :: result)
  | hit {previous : Option Char} {c : Char} {rest written behind result : List Char}
      (hrule : rule previous (c :: rest) = some (written, behind))
      (hlength : behind.length ≤ rest.length) (hrest : Rewrites rule none behind result) :
      Rewrites rule previous (c :: rest) (written ++ result)

/-- Applying a rule computes the rewriting, if the bound is large enough. -/
theorem Rewrites.apply_from (h : Rewrites rule previous text result) {bound : Nat}
    (hbound : text.length ≤ bound) : rule.applyFrom bound previous text = result := by
  induction h generalizing bound with
  | nil => cases bound <;> rfl
  | miss hrule hrest ih =>
      obtain ⟨bound, rfl⟩ := Nat.exists_eq_add_of_le' (Nat.le_trans (by simp) hbound : 1 ≤ bound)
      simp only [List.length_cons] at hbound
      simp only [Rule.applyFrom, hrule]
      rw [ih (by omega)]
  | hit hrule hlength hrest ih =>
      obtain ⟨bound, rfl⟩ := Nat.exists_eq_add_of_le' (Nat.le_trans (by simp) hbound : 1 ≤ bound)
      simp only [List.length_cons] at hbound
      simp only [Rule.applyFrom, hrule]
      rw [ih (by omega)]

/-! ## Quiet texts -/

/-- The rule applies nowhere in the text, given what follows it. -/
def Quiet (rule : Rule) : List Char → List Char → Prop
  | [], _ => True
  | c :: text, rest => (∀ previous, rule previous (c :: text ++ rest) = none) ∧ Quiet rule text rest

/-- Two parts are quiet if each of them is. -/
theorem Quiet.append {first second : List Char} (hfirst : Quiet rule first (second ++ rest))
    (hsecond : Quiet rule second rest) : Quiet rule (first ++ second) rest := by
  induction first with
  | nil => exact hsecond
  | cons c first ih =>
      refine ⟨fun previous => ?_, ih hfirst.2⟩
      have hnone := hfirst.1 previous
      rwa [← List.append_assoc, List.cons_append] at hnone

/-- A text is quiet if the rule does not apply to any of its ends. -/
theorem quiet_of_suffixes (h : ∀ c behind, c :: behind <:+ text →
    ∀ previous, rule previous (c :: behind ++ rest) = none) : Quiet rule text rest := by
  induction text with
  | nil => trivial
  | cons c text ih =>
      refine ⟨h c text List.suffix_rfl, ih fun d behind hsuffix => ?_⟩
      exact h d behind (hsuffix.trans (List.suffix_cons c text))

/-- A quiet text is kept. -/
theorem Rewrites.quiet (hquiet : Quiet rule text rest)
    (hrest : Rewrites rule (text.getLast?.or previous) rest result) :
    Rewrites rule previous (text ++ rest) (text ++ result) := by
  induction text generalizing previous with
  | nil => simpa using hrest
  | cons c text ih =>
      refine .miss (hquiet.1 previous) (ih hquiet.2 ?_)
      rw [List.getLast?_cons] at hrest
      cases hlast : text.getLast? <;> simpa [hlast] using hrest

/-! ## Blocks -/

/-- The rule turns one block into another, whatever follows, if no word goes on into the block. Then
none goes on behind it either. -/
def Turns (rule : Rule) (old new : List Char) : Prop :=
  ∀ previous rest result, startsWord previous = true →
    (∀ previous, startsWord previous = true → Rewrites rule previous rest result) →
    Rewrites rule previous (old ++ rest) (new ++ result)

/-- The text ends with a character that belongs to no word. -/
def EndsWords (text : List Char) : Prop :=
  ∃ last, text.getLast? = some last ∧ Text.isWord last = false

theorem EndsWords.append {text : List Char} (h : EndsWords text) (front : List Char) :
    EndsWords (front ++ text) := by
  obtain ⟨last, hlast, hword⟩ := h
  exact ⟨last, by rw [List.getLast?_append, hlast, Option.some_or], hword⟩

theorem ends_words_line_break (text : List Char) : EndsWords (text ++ ['\n']) :=
  ⟨'\n', List.getLast?_concat, by decide⟩

namespace Turns

variable {old new older newer : List Char}

theorem nil : Turns rule [] [] := fun previous _ _ hstart hrest => hrest previous hstart

theorem append (hfirst : Turns rule old new) (hsecond : Turns rule older newer) :
    Turns rule (old ++ older) (new ++ newer) := by
  intro previous rest result hstart hrest
  rw [List.append_assoc, List.append_assoc]
  refine hfirst previous _ _ hstart fun middle hmiddle => ?_
  exact hsecond middle _ _ hmiddle hrest

/-- Blocks one behind the other. -/
theorem flat_map {α : Type} {write turned : α → List Char} {items : List α}
    (h : ∀ item ∈ items, Turns rule (write item) (turned item)) :
    Turns rule (items.flatMap write) (items.flatMap turned) := by
  induction items with
  | nil => exact nil
  | cons item items ih =>
      simp only [List.flatMap_cons]
      refine (h item List.mem_cons_self).append (ih fun other hother => ?_)
      exact h other (List.mem_cons_of_mem _ hother)

/-- A quiet text in front of a block is kept, if no word goes on behind it. -/
theorem behind_quiet {front : List Char} (hquiet : ∀ rest, Quiet rule front (old ++ rest))
    (hend : EndsWords front) (hturns : Turns rule old new) :
    Turns rule (front ++ old) (front ++ new) := by
  intro previous rest result hstart hrest
  -- behind the front the rule sees its last character, which ends all words
  obtain ⟨last, hlast, hword⟩ := hend
  rw [List.append_assoc, List.append_assoc]
  refine .quiet (hquiet rest) (hturns _ _ _ ?_ hrest)
  simp [startsWord, hlast, hword]

/-- A quiet text behind which no word goes on is kept. -/
theorem of_quiet (hquiet : ∀ rest, Quiet rule old rest) (hend : EndsWords old) :
    Turns rule old old := by
  have h := behind_quiet (fun rest => hquiet ([] ++ rest)) hend nil
  rwa [List.append_nil] at h

/-- A text to which the rule applies as a whole is replaced. -/
theorem of_hit {written : List Char} (hne : old ≠ [])
    (hrule : ∀ previous rest, startsWord previous = true →
      rule previous (old ++ rest) = some (written, rest)) :
    Turns rule old written := by
  intro previous rest result hstart hrest
  obtain ⟨c, old, rfl⟩ := List.exists_cons_of_ne_nil hne
  exact .hit (hrule previous rest hstart) (by simp) (hrest none rfl)

/-- Applying a rule to a block turns it. -/
theorem apply (h : Turns rule old new) : rule.apply old = new := by
  have hrewrites := h none [] [] rfl fun _ _ => .nil
  simp only [List.append_nil] at hrewrites
  exact hrewrites.apply_from (Nat.le_refl _)

end Turns

end TemplateBundle.Template

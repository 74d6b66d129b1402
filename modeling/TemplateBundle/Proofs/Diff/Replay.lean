import TemplateBundle.Diff.Compact

/-!
# What edits do

When edits lead from one sequence of lines to the other (`Leads`). An edit is only held to the
ranges in which it covers lines: where a deletion starts among the new lines, or an insertion among
the old ones, says nothing about what it does. Edits may be taken in parts (`leads_append_iff`), and
a part may be exchanged for another one that leads the same way (`Leads.replace_end`).
-/

namespace TemplateBundle.Diff

/-! ## Lines in common -/

namespace Pair

/-- Some lines agree, from a place in each sequence on. -/
def AgreeFrom (pair : Pair) (oldIndex newIndex count : Nat) : Prop :=
  ∀ offset < count, pair.agree (oldIndex + offset) (newIndex + offset) = true

/-- What the ranges have in common at their starts fits into both. -/
theorem common_start_le (pair : Pair) (oldStart oldStop newStart newStop : Nat) :
    pair.commonStart oldStart oldStop newStart newStop ≤ oldStop - oldStart ∧
      pair.commonStart oldStart oldStop newStart newStop ≤ newStop - newStart := by
  fun_induction commonStart pair oldStart oldStop newStart newStop with
  | case1 oldStart newStart h ih => omega
  | case2 => omega

/-- The lines that are counted from the starts on agree. -/
theorem agree_common_start (pair : Pair) (oldStart oldStop newStart newStop : Nat) :
    pair.AgreeFrom oldStart newStart (pair.commonStart oldStart oldStop newStart newStop) := by
  fun_induction commonStart pair oldStart oldStop newStart newStop with
  | case1 oldStart newStart h ih =>
      intro offset hoffset
      cases offset with
      | zero => exact h.2.2
      | succ offset =>
          have hagree := ih offset (by omega)
          rwa [show oldStart + 1 + offset = oldStart + (offset + 1) by omega,
            show newStart + 1 + offset = newStart + (offset + 1) by omega] at hagree
  | case2 => exact fun offset hoffset => absurd hoffset (Nat.not_lt_zero offset)

/-- What the ranges have in common at their ends fits into both. -/
theorem common_end_le (pair : Pair) (oldStart oldStop newStart newStop : Nat) :
    pair.commonEnd oldStart oldStop newStart newStop ≤ oldStop - oldStart ∧
      pair.commonEnd oldStart oldStop newStart newStop ≤ newStop - newStart := by
  fun_induction commonEnd pair oldStart oldStop newStart newStop with
  | case1 oldStop newStop h ih => omega
  | case2 => omega

/-- The lines that are counted from the ends back agree. -/
theorem agree_common_end (pair : Pair) (oldStart oldStop newStart newStop : Nat) :
    let count := pair.commonEnd oldStart oldStop newStart newStop
    pair.AgreeFrom (oldStop - count) (newStop - count) count := by
  fun_induction commonEnd pair oldStart oldStop newStart newStop with
  | case1 oldStop newStop h ih =>
      intro count offset hoffset
      have hcount := pair.common_end_le oldStart (oldStop - 1) newStart (newStop - 1)
      by_cases hlast : offset = count - 1
      · -- the last of them is the line that was looked at first
        rw [show oldStop - count + offset = oldStop - 1 by omega,
          show newStop - count + offset = newStop - 1 by omega]
        exact h.2.2
      · have hagree := ih offset (by omega)
        rwa [show oldStop - 1 - commonEnd pair oldStart (oldStop - 1) newStart (newStop - 1) =
            oldStop - count by omega,
          show newStop - 1 - commonEnd pair oldStart (oldStop - 1) newStart (newStop - 1) =
            newStop - count by omega] at hagree
  | case2 => exact fun offset hoffset => absurd hoffset (Nat.not_lt_zero offset)

/-- Lines that agree are there, and the same. -/
theorem agree_iff {pair : Pair} {oldIndex newIndex : Nat} :
    pair.agree oldIndex newIndex = true ↔
      ∃ line, pair.old[oldIndex]? = some line ∧ pair.new[newIndex]? = some line := by
  unfold agree
  cases hold : pair.old[oldIndex]? with
  | none => simp
  | some oldLine =>
      cases hnew : pair.new[newIndex]? with
      | none => simp
      | some newLine =>
          simp only [beq_iff_eq, Option.some.injEq, exists_eq_left']
          exact eq_comm

namespace AgreeFrom

variable {pair : Pair} {oldIndex newIndex first second : Nat}

/-- Agreeing lines may be counted in two parts. -/
theorem append_iff :
    pair.AgreeFrom oldIndex newIndex (first + second) ↔
      pair.AgreeFrom oldIndex newIndex first ∧
        pair.AgreeFrom (oldIndex + first) (newIndex + first) second := by
  constructor
  · intro h
    refine ⟨fun offset hoffset => h offset (by omega), fun offset hoffset => ?_⟩
    rw [Nat.add_assoc, Nat.add_assoc]
    exact h (first + offset) (by omega)
  · rintro ⟨hfirst, hsecond⟩ offset hoffset
    by_cases hlow : offset < first
    · exact hfirst offset hlow
    · have hagree := hsecond (offset - first) (by omega)
      rwa [show oldIndex + first + (offset - first) = oldIndex + offset by omega,
        show newIndex + first + (offset - first) = newIndex + offset by omega] at hagree

end AgreeFrom

/-- Sequences of one length in which all lines agree are the same. -/
theorem eq_of_agree {pair : Pair} (hsize : pair.old.size = pair.new.size)
    (hagree : pair.AgreeFrom 0 0 pair.old.size) : pair.old = pair.new := by
  apply Array.ext hsize
  intro index hold hnew
  have hline := hagree index hold
  rw [Nat.zero_add] at hline
  obtain ⟨line, holdLine, hnewLine⟩ := agree_iff.mp hline
  rw [Array.getElem?_eq_getElem hold] at holdLine
  rw [Array.getElem?_eq_getElem hnew] at hnewLine
  exact Option.some.inj (holdLine.trans hnewLine.symm)

end Pair

/-! ## Edits -/

namespace Edit

/-- The edit does what its kind says, from a place in each sequence on. -/
def Fits (pair : Pair) (edit : Edit) (oldIndex newIndex : Nat) : Prop :=
  match edit.kind with
  | .keep =>
      edit.oldStart = oldIndex ∧ edit.newStart = newIndex ∧ edit.newCount = edit.oldCount ∧
        pair.AgreeFrom oldIndex newIndex edit.oldCount
  | .delete => edit.oldStart = oldIndex ∧ edit.newCount = 0
  | .insert => edit.newStart = newIndex ∧ edit.oldCount = 0
  | .replace => edit.oldStart = oldIndex ∧ edit.newStart = newIndex

variable {pair : Pair} {edit : Edit} {oldIndex newIndex : Nat}

theorem fits_keep_iff (h : edit.kind = .keep) :
    edit.Fits pair oldIndex newIndex ↔
      edit.oldStart = oldIndex ∧ edit.newStart = newIndex ∧ edit.newCount = edit.oldCount ∧
        pair.AgreeFrom oldIndex newIndex edit.oldCount := by
  simp [Fits, h]

theorem fits_delete_iff (h : edit.kind = .delete) :
    edit.Fits pair oldIndex newIndex ↔ edit.oldStart = oldIndex ∧ edit.newCount = 0 := by
  simp [Fits, h]

theorem fits_insert_iff (h : edit.kind = .insert) :
    edit.Fits pair oldIndex newIndex ↔ edit.newStart = newIndex ∧ edit.oldCount = 0 := by
  simp [Fits, h]

theorem fits_replace_iff (h : edit.kind = .replace) :
    edit.Fits pair oldIndex newIndex ↔ edit.oldStart = oldIndex ∧ edit.newStart = newIndex := by
  simp [Fits, h]

/-- The edit only deletes, or only inserts. -/
def IsChange (edit : Edit) : Prop :=
  edit.kind = .delete ∨ edit.kind = .insert

end Edit

/-- The edits lead from a place in each sequence to another one, one after the other. -/
inductive Leads (pair : Pair) : Nat → Nat → List Edit → Nat → Nat → Prop where
  | nil (oldIndex newIndex : Nat) : Leads pair oldIndex newIndex [] oldIndex newIndex
  | cons {oldIndex newIndex oldStop newStop : Nat} {edit : Edit} {edits : List Edit} :
      edit.Fits pair oldIndex newIndex →
      Leads pair (oldIndex + edit.oldCount) (newIndex + edit.newCount) edits oldStop newStop →
      Leads pair oldIndex newIndex (edit :: edits) oldStop newStop

variable {pair : Pair} {oldStart newStart oldMiddle newMiddle oldStop newStop : Nat}
  {edit : Edit} {edits others : List Edit}

@[simp] theorem leads_nil_iff :
    Leads pair oldStart newStart [] oldStop newStop ↔ oldStart = oldStop ∧ newStart = newStop := by
  constructor
  · rintro ⟨⟩
    exact ⟨rfl, rfl⟩
  · rintro ⟨rfl, rfl⟩
    exact .nil _ _

theorem leads_cons_iff :
    Leads pair oldStart newStart (edit :: edits) oldStop newStop ↔
      edit.Fits pair oldStart newStart ∧
        Leads pair (oldStart + edit.oldCount) (newStart + edit.newCount) edits oldStop newStop := by
  constructor
  · rintro ⟨⟩
    exact ⟨by assumption, by assumption⟩
  · rintro ⟨hfits, hrest⟩
    exact .cons hfits hrest

/-- Edits may be taken in two parts. -/
theorem leads_append_iff :
    Leads pair oldStart newStart (edits ++ others) oldStop newStop ↔
      ∃ oldMiddle newMiddle, Leads pair oldStart newStart edits oldMiddle newMiddle ∧
        Leads pair oldMiddle newMiddle others oldStop newStop := by
  induction edits generalizing oldStart newStart with
  | nil =>
      constructor
      · exact fun h => ⟨oldStart, newStart, .nil _ _, h⟩
      · rintro ⟨oldMiddle, newMiddle, ⟨⟩, h⟩
        exact h
  | cons edit edits ih =>
      rw [List.cons_append, leads_cons_iff, ih]
      constructor
      · rintro ⟨hfits, oldMiddle, newMiddle, hedits, hothers⟩
        exact ⟨oldMiddle, newMiddle, .cons hfits hedits, hothers⟩
      · rintro ⟨oldMiddle, newMiddle, hedits, hothers⟩
        obtain ⟨hfits, hedits⟩ := leads_cons_iff.mp hedits
        exact ⟨hfits, oldMiddle, newMiddle, hedits, hothers⟩

theorem Leads.append (hedits : Leads pair oldStart newStart edits oldMiddle newMiddle)
    (hothers : Leads pair oldMiddle newMiddle others oldStop newStop) :
    Leads pair oldStart newStart (edits ++ others) oldStop newStop :=
  leads_append_iff.mpr ⟨oldMiddle, newMiddle, hedits, hothers⟩

/-- Edits never lead back. -/
theorem Leads.le (h : Leads pair oldStart newStart edits oldStop newStop) :
    oldStart ≤ oldStop ∧ newStart ≤ newStop := by
  induction h with
  | nil => exact ⟨Nat.le_refl _, Nat.le_refl _⟩
  | cons hfits hrest ih => omega

/-- What stands behind edits may be exchanged for edits that lead the same way. -/
theorem Leads.replace_end
    (h : Leads pair oldStart newStart (edits ++ others) oldStop newStop) {instead : List Edit}
    (hinstead : ∀ oldIndex newIndex, Leads pair oldIndex newIndex others oldStop newStop →
      Leads pair oldIndex newIndex instead oldStop newStop) :
    Leads pair oldStart newStart (edits ++ instead) oldStop newStop := by
  obtain ⟨oldMiddle, newMiddle, hedits, hothers⟩ := leads_append_iff.mp h
  exact hedits.append (hinstead _ _ hothers)

/-- A stretch in which all lines agree may be kept. -/
theorem leads_keep {count : Nat} (h : pair.AgreeFrom oldStart newStart count) :
    Leads pair oldStart newStart [.keep oldStart newStart count]
      (oldStart + count) (newStart + count) :=
  .cons ⟨rfl, rfl, rfl, h⟩ (.nil _ _)

/-- Lines may always be deleted. -/
theorem leads_delete (pair : Pair) (oldStart newStart count otherStart : Nat) :
    Leads pair oldStart newStart [.delete oldStart count otherStart]
      (oldStart + count) newStart :=
  .cons ⟨rfl, rfl⟩ (.nil _ _)

/-- Lines may always be inserted. -/
theorem leads_insert (pair : Pair) (oldStart newStart count otherStart : Nat) :
    Leads pair oldStart newStart [.insert otherStart newStart count]
      oldStart (newStart + count) :=
  .cons ⟨rfl, rfl⟩ (.nil _ _)

end TemplateBundle.Diff

import TemplateBundle.Diff.Unified
import TemplateBundle.Proofs.Diff.Edits

/-!
# Differences that are shown

What the hunks show leads from one text to the other (`hunks_turn_old_into_new`): between the same
stretches of lines the old text has the lines that they show as old, and the new text those that
they show as new. So texts that differ have a difference to show (`unified_ne_empty`).

The ranges in the header of a hunk are right where lines are kept at both its ends
(`Leads.header_of_kept`). A deletion that was moved past an insertion still starts where it did
among the new lines, and an insertion among the old ones, so a hunk that starts or ends with such an
edit may be headed by other ranges.
-/

namespace TemplateBundle.Diff

/-! ## Lines -/

/-- The lines of a text make up the text. The induction follows how lines are read. -/
theorem lines_from_flatten (started text : List Char) :
    (linesFrom started text).flatMap String.toList = started.reverse ++ text := by
  fun_induction linesFrom started text with
  | case1 started hempty =>
      rw [List.isEmpty_iff.mp hempty]
      rfl
  | case2 started hempty => simp
  | case3 started rest ih => simp [ih]
  | case4 started c rest hnotBoth hend ih => simp [ih]
  | case5 started c rest hnotBoth hend ih => simp [ih]

/-- The text is what its lines are one after the other. -/
theorem join_lines (text : String) : String.join (lines text).toList = text := by
  apply String.toList_inj.mp
  rw [String.toList_join]
  exact lines_from_flatten [] text.toList

/-- Texts with the same lines are the same. -/
theorem eq_of_lines_eq {old new : String} (h : lines old = lines new) : old = new := by
  rw [← join_lines old, h, join_lines]

/-! ## Hunks -/

variable {pair : Pair} {edits group : List Edit} {hunks : List (List Edit)}
  {oldStart newStart oldStop newStop : Nat}

/-- The hunks lead from a place in each sequence to the ends of both, with stretches of agreeing
lines in front of every hunk and behind the last one. -/
inductive Patches (pair : Pair) : Nat → Nat → List (List Edit) → Prop where
  | done {oldStart newStart count : Nat} : pair.AgreeFrom oldStart newStart count →
      oldStart + count = pair.old.size → newStart + count = pair.new.size →
      Patches pair oldStart newStart []
  | hunk {oldStart newStart count oldStop newStop : Nat} {hunk : List Edit}
      {hunks : List (List Edit)} : pair.AgreeFrom oldStart newStart count →
      Leads pair (oldStart + count) (newStart + count) hunk oldStop newStop →
      Patches pair oldStop newStop hunks → Patches pair oldStart newStart (hunk :: hunks)

/-- The first stretch may start earlier. -/
theorem Patches.agree {count : Nat} (hagree : pair.AgreeFrom oldStart newStart count)
    (h : Patches pair (oldStart + count) (newStart + count) hunks) :
    Patches pair oldStart newStart hunks := by
  cases h with
  | done hrest hold hnew =>
      refine .done (Pair.AgreeFrom.append_iff.mpr ⟨hagree, hrest⟩) ?_ ?_
      · rw [← Nat.add_assoc, hold]
      · rw [← Nat.add_assoc, hnew]
  | hunk hrest hhunk hhunks =>
      refine .hunk (Pair.AgreeFrom.append_iff.mpr ⟨hagree, hrest⟩) ?_ hhunks
      rwa [← Nat.add_assoc, ← Nat.add_assoc]

/-- What is left out at the start is a stretch of agreeing lines. -/
theorem Leads.trim_first (h : Leads pair oldStart newStart edits oldStop newStop) :
    ∃ count, pair.AgreeFrom oldStart newStart count ∧
      Leads pair (oldStart + count) (newStart + count) (trimFirst edits) oldStop newStop := by
  cases edits with
  | nil => exact ⟨0, fun offset hoffset => absurd hoffset (Nat.not_lt_zero offset), h⟩
  | cons edit others =>
      rw [trimFirst]
      split_ifs with hkeep
      · obtain ⟨hfits, hrest⟩ := leads_cons_iff.mp h
        obtain ⟨hold, hnew, hsame, hagree⟩ := (Edit.fits_keep_iff hkeep).mp hfits
        have hcount : edit.oldCount - contextSize + (edit.oldCount - (edit.oldCount - contextSize)) =
            edit.oldCount := by
          omega
        rw [← hcount] at hagree
        obtain ⟨hdropped, hkept⟩ := Pair.AgreeFrom.append_iff.mp hagree
        refine ⟨edit.oldCount - contextSize, hdropped, .cons ⟨?_, ?_, rfl, hkept⟩ ?_⟩
        · exact congrArg (· + (edit.oldCount - contextSize)) hold
        · exact congrArg (· + (edit.oldCount - contextSize)) hnew
        · show Leads pair
            (oldStart + (edit.oldCount - contextSize) +
              (edit.oldCount - (edit.oldCount - contextSize)))
            (newStart + (edit.oldCount - contextSize) +
              (edit.oldCount - (edit.oldCount - contextSize))) others oldStop newStop
          rw [Nat.add_assoc, Nat.add_assoc, hcount]
          rwa [hsame] at hrest
      · exact ⟨0, fun offset hoffset => absurd hoffset (Nat.not_lt_zero offset), h⟩

/-- What is left out at the end is a stretch of agreeing lines. -/
theorem Leads.trim_last (h : Leads pair oldStart newStart edits oldStop newStop) :
    ∃ oldMiddle newMiddle count, Leads pair oldStart newStart (trimLast edits) oldMiddle newMiddle ∧
      pair.AgreeFrom oldMiddle newMiddle count ∧
      oldMiddle + count = oldStop ∧ newMiddle + count = newStop := by
  have hnone (oldIndex newIndex : Nat) : pair.AgreeFrom oldIndex newIndex 0 :=
    fun offset hoffset => absurd hoffset (Nat.not_lt_zero offset)
  fun_induction trimLast edits generalizing oldStart newStart with
  | case1 => exact ⟨oldStop, newStop, 0, h, hnone _ _, rfl, rfl⟩
  | case2 edit hkeep =>
      obtain ⟨hfits, hrest⟩ := leads_cons_iff.mp h
      obtain ⟨hold, hnew, hsame, hagree⟩ := (Edit.fits_keep_iff hkeep).mp hfits
      obtain ⟨holdStop, hnewStop⟩ := leads_nil_iff.mp hrest
      have hcount : min edit.oldCount contextSize +
          (edit.oldCount - min edit.oldCount contextSize) = edit.oldCount := by
        omega
      rw [← hcount] at hagree
      obtain ⟨hkept, hdropped⟩ := Pair.AgreeFrom.append_iff.mp hagree
      refine ⟨_, _, _, .cons ⟨hold, hnew, rfl, hkept⟩ (.nil _ _), hdropped, ?_, ?_⟩
      · show oldStart + min edit.oldCount contextSize +
          (edit.oldCount - min edit.oldCount contextSize) = oldStop
        omega
      · show newStart + min edit.oldCount contextSize +
          (edit.oldCount - min edit.oldCount contextSize) = newStop
        omega
  | case3 edit hkeep => exact ⟨oldStop, newStop, 0, h, hnone _ _, rfl, rfl⟩
  | case4 edit others hothers ih =>
      obtain ⟨hfits, hrest⟩ := leads_cons_iff.mp h
      obtain ⟨oldMiddle, newMiddle, count, hleads, htail⟩ := ih hrest
      exact ⟨oldMiddle, newMiddle, count, .cons hfits hleads, htail⟩

/-- The last group is a hunk, unless nothing is left but lines that are kept. -/
theorem last_group_patch {count : Nat} (hagree : pair.AgreeFrom oldStart newStart count)
    (hgroup : Leads pair (oldStart + count) (newStart + count) group.reverse oldStop newStop)
    (hend : Patches pair oldStop newStop []) :
    Patches pair oldStart newStart (groupsFrom group []) := by
  match group with
  | [] =>
      obtain ⟨rfl, rfl⟩ := leads_nil_iff.mp hgroup
      exact hend.agree hagree
  | [edit] =>
      rw [groupsFrom]
      split_ifs with hkeep
      · obtain ⟨hfits, hrest⟩ := leads_cons_iff.mp hgroup
        obtain ⟨-, -, hsame, hkept⟩ := (Edit.fits_keep_iff hkeep).mp hfits
        obtain ⟨rfl, rfl⟩ := leads_nil_iff.mp hrest
        rw [hsame] at hend
        exact (hend.agree hkept).agree hagree
      · exact .hunk hagree hgroup hend
  | _ :: _ :: _ => exact .hunk hagree hgroup hend

/-- A long stretch is parted: its first lines end a hunk, its last ones start the next, and those
between them belong to neither. -/
theorem long_keep_parts {edit : Edit} (hkeep : edit.kind = .keep)
    (hlong : 2 * contextSize < edit.oldCount)
    (h : Leads pair oldStart newStart (edit :: edits) oldStop newStop) :
    ∃ skipped,
      Leads pair oldStart newStart
        [.keep edit.oldStart edit.newStart contextSize]
        (oldStart + contextSize) (newStart + contextSize) ∧
      pair.AgreeFrom (oldStart + contextSize) (newStart + contextSize) skipped ∧
      Leads pair (oldStart + contextSize + skipped) (newStart + contextSize + skipped)
        (.keep (edit.oldStart + (edit.oldCount - contextSize))
          (edit.newStart + (edit.oldCount - contextSize)) contextSize :: edits) oldStop newStop := by
  obtain ⟨hfits, hrest⟩ := leads_cons_iff.mp h
  obtain ⟨hold, hnew, hsame, hkept⟩ := (Edit.fits_keep_iff hkeep).mp hfits
  obtain ⟨skipped, hskipped⟩ : ∃ skipped, edit.oldCount = contextSize + (skipped + contextSize) :=
    ⟨edit.oldCount - 2 * contextSize, by omega⟩
  rw [hskipped] at hkept
  obtain ⟨hfirst, hkept⟩ := Pair.AgreeFrom.append_iff.mp hkept
  obtain ⟨hbetween, hlast⟩ := Pair.AgreeFrom.append_iff.mp hkept
  refine ⟨skipped, .cons ⟨hold, hnew, rfl, hfirst⟩ (.nil _ _), hbetween,
    .cons ⟨?_, ?_, rfl, hlast⟩ ?_⟩
  · show edit.oldStart + (edit.oldCount - contextSize) = oldStart + contextSize + skipped
    omega
  · show edit.newStart + (edit.oldCount - contextSize) = newStart + contextSize + skipped
    omega
  · show Leads pair (oldStart + contextSize + skipped + contextSize)
      (newStart + contextSize + skipped + contextSize) edits oldStop newStop
    rw [hsame, hskipped] at hrest
    rwa [Nat.add_assoc, Nat.add_assoc, Nat.add_assoc newStart, Nat.add_assoc newStart]

/-- Parting edits gives hunks with agreeing lines between them. The induction is on the edits that
are not in the current group yet; what is kept in front of that group is the first stretch. -/
theorem groups_from_patch {count oldMiddle newMiddle : Nat}
    (hagree : pair.AgreeFrom oldStart newStart count)
    (hgroup : Leads pair (oldStart + count) (newStart + count) group.reverse oldMiddle newMiddle)
    (hedits : Leads pair oldMiddle newMiddle edits oldStop newStop)
    (hend : Patches pair oldStop newStop []) :
    Patches pair oldStart newStart (groupsFrom group edits) := by
  induction edits generalizing group oldStart newStart count oldMiddle newMiddle with
  | nil =>
      obtain ⟨rfl, rfl⟩ := leads_nil_iff.mp hedits
      exact last_group_patch hagree hgroup hend
  | cons edit edits ih =>
      rw [groupsFrom]
      split_ifs with hlong
      · obtain ⟨skipped, hfirst, hbetween, hlast⟩ := long_keep_parts hlong.1 hlong.2 hedits
        obtain ⟨hkept, hrest⟩ := leads_cons_iff.mp hlast
        rw [List.reverse_cons]
        exact .hunk hagree (hgroup.append hfirst) (ih hbetween (.cons hkept (.nil _ _)) hrest)
      · obtain ⟨hfits, hrest⟩ := leads_cons_iff.mp hedits
        refine ih hagree ?_ hrest
        rw [List.reverse_cons]
        exact hgroup.append (.cons hfits (.nil _ _))

/-- The hunks lead through both sequences, with agreeing lines around them. -/
theorem groups_patch (pair : Pair) : Patches pair 0 0 (groups (Diff.edits pair)) := by
  obtain ⟨first, hfirst, hleads⟩ := (edits_lead pair).trim_first
  obtain ⟨oldMiddle, newMiddle, last, hleads, hlast, hold, hnew⟩ := hleads.trim_last
  exact groups_from_patch hfirst (.nil _ _) hleads (.done hlast hold hnew)

/-- Sequences between which there is no hunk are the same. -/
theorem eq_of_no_hunk (h : groups (Diff.edits pair) = []) : pair.old = pair.new := by
  have hpatch := groups_patch pair
  rw [h] at hpatch
  cases hpatch with
  | done hagree hold hnew =>
      rw [Nat.zero_add] at hold hnew
      exact Pair.eq_of_agree (hold.symm.trans hnew) (hold ▸ hagree)

/-! ## What hunks show -/

/-- Some lines of a sequence. -/
def linesOf (lines : Array String) (start count : Nat) : List String :=
  (lines.toList.drop start).take count

/-- The lines that an edit shows of the old text: kept ones and deleted ones. -/
def Edit.oldLines (pair : Pair) (edit : Edit) : List String :=
  linesOf pair.old edit.oldStart edit.oldCount

/-- The lines that an edit shows of the new text: kept ones, which are shown as the old text has
them, and inserted ones. -/
def Edit.newLines (pair : Pair) (edit : Edit) : List String :=
  match edit.kind with
  | .keep => linesOf pair.old edit.oldStart edit.oldCount
  | _ => linesOf pair.new edit.newStart edit.newCount

/-- Lines may be counted in two parts. -/
theorem lines_of_add (lines : Array String) (start first second : Nat) :
    linesOf lines start (first + second) =
      linesOf lines start first ++ linesOf lines (start + first) second := by
  unfold linesOf
  rw [List.take_add, List.drop_drop]

@[simp] theorem lines_of_zero (lines : Array String) (start : Nat) :
    linesOf lines start 0 = [] :=
  List.take_zero

/-- Lines, and then all behind them. -/
theorem lines_of_append_drop (lines : Array String) (start count : Nat) :
    linesOf lines start count ++ lines.toList.drop (start + count) = lines.toList.drop start := by
  rw [linesOf, ← List.drop_drop, List.take_append_drop]

theorem lines_of_append_drop_stop (lines : Array String) {start stop : Nat} (h : start ≤ stop) :
    linesOf lines start (stop - start) ++ lines.toList.drop stop = lines.toList.drop start := by
  have hlines := lines_of_append_drop lines start (stop - start)
  rwa [Nat.add_sub_cancel' h] at hlines

/-- Agreeing lines are the same in both sequences. -/
theorem lines_of_agree {oldIndex newIndex count : Nat}
    (h : pair.AgreeFrom oldIndex newIndex count) :
    linesOf pair.old oldIndex count = linesOf pair.new newIndex count := by
  apply List.ext_getElem?
  intro index
  unfold linesOf
  rw [List.getElem?_take, List.getElem?_take]
  split_ifs with hindex
  · obtain ⟨line, hold, hnew⟩ := Pair.agree_iff.mp (h index hindex)
    rw [List.getElem?_drop, List.getElem?_drop, Array.getElem?_toList, Array.getElem?_toList,
      hold, hnew]
  · rfl

/-- Edits show the old lines that they lead past. -/
theorem Leads.old_lines (h : Leads pair oldStart newStart edits oldStop newStop) :
    edits.flatMap (Edit.oldLines pair) = linesOf pair.old oldStart (oldStop - oldStart) := by
  induction h with
  | nil => rw [Nat.sub_self, lines_of_zero, List.flatMap_nil]
  | @cons oldIndex newIndex oldStop newStop edit edits hfits hrest ih =>
      have hle := hrest.le.1
      have hedit : edit.oldLines pair = linesOf pair.old oldIndex edit.oldCount := by
        unfold Edit.oldLines
        cases hkind : edit.kind with
        | keep => rw [((Edit.fits_keep_iff hkind).mp hfits).1]
        | delete => rw [((Edit.fits_delete_iff hkind).mp hfits).1]
        | insert => rw [((Edit.fits_insert_iff hkind).mp hfits).2, lines_of_zero, lines_of_zero]
        | replace => rw [((Edit.fits_replace_iff hkind).mp hfits).1]
      rw [List.flatMap_cons, ih, hedit, ← lines_of_add]
      congr 1
      omega

/-- Edits show the new lines that they lead past. -/
theorem Leads.new_lines (h : Leads pair oldStart newStart edits oldStop newStop) :
    edits.flatMap (Edit.newLines pair) = linesOf pair.new newStart (newStop - newStart) := by
  induction h with
  | nil => rw [Nat.sub_self, lines_of_zero, List.flatMap_nil]
  | @cons oldIndex newIndex oldStop newStop edit edits hfits hrest ih =>
      have hle := hrest.le.2
      have hedit : edit.newLines pair = linesOf pair.new newIndex edit.newCount := by
        cases hkind : edit.kind with
        | keep =>
            obtain ⟨hold, -, hsame, hagree⟩ := (Edit.fits_keep_iff hkind).mp hfits
            simp only [Edit.newLines, hkind]
            rw [hold, hsame]
            exact lines_of_agree hagree
        | delete =>
            simp only [Edit.newLines, hkind]
            rw [((Edit.fits_delete_iff hkind).mp hfits).2, lines_of_zero, lines_of_zero]
        | insert =>
            simp only [Edit.newLines, hkind]
            rw [((Edit.fits_insert_iff hkind).mp hfits).1]
        | replace =>
            simp only [Edit.newLines, hkind]
            rw [((Edit.fits_replace_iff hkind).mp hfits).2]
      rw [List.flatMap_cons, ih, hedit, ← lines_of_add]
      congr 1
      omega

/-- Stretches with a part between each two. -/
def interleave : List (List String) → List (List String) → List String
  | stretch :: stretches, part :: parts => stretch ++ part ++ interleave stretches parts
  | stretches, _ => stretches.flatten

/-- What is left of both texts is made up of the same stretches, with what the hunks show of the old
and of the new text between them. -/
theorem Patches.stretches (h : Patches pair oldStart newStart hunks) :
    ∃ stretches, stretches.length = hunks.length + 1 ∧
      pair.old.toList.drop oldStart =
        interleave stretches (hunks.map (·.flatMap (Edit.oldLines pair))) ∧
      pair.new.toList.drop newStart =
        interleave stretches (hunks.map (·.flatMap (Edit.newLines pair))) := by
  induction h with
  | @done oldStart newStart count hagree hold hnew =>
      refine ⟨[linesOf pair.old oldStart count], rfl, ?_, ?_⟩
      · show _ = linesOf pair.old oldStart count ++ []
        rw [List.append_nil, linesOf, List.take_of_length_le]
        rw [List.length_drop, Array.length_toList]
        omega
      · show _ = linesOf pair.old oldStart count ++ []
        rw [List.append_nil, lines_of_agree hagree, linesOf, List.take_of_length_le]
        rw [List.length_drop, Array.length_toList]
        omega
  | @hunk oldStart newStart count oldStop newStop hunk hunks hagree hhunk hrest ih =>
      obtain ⟨stretches, hlength, hold, hnew⟩ := ih
      have hle := hhunk.le
      refine ⟨linesOf pair.old oldStart count :: stretches, ?_, ?_, ?_⟩
      · rw [List.length_cons, hlength, List.length_cons]
      · rw [List.map_cons, interleave, ← hold, hhunk.old_lines, List.append_assoc,
          lines_of_append_drop_stop _ hle.1, lines_of_append_drop]
      · rw [List.map_cons, interleave, ← hnew, hhunk.new_lines, List.append_assoc,
          lines_of_append_drop_stop _ hle.2, lines_of_agree hagree, lines_of_append_drop]

/-- The hunks between two texts show how to get from one to the other: with what they show of the
old text between some stretches of lines it is the old text, and with what they show of the new text
between the same stretches it is the new one. -/
theorem hunks_turn_old_into_new (old new : String) :
    let pair : Pair := { old := lines old, new := lines new }
    let hunks := groups (Diff.edits pair)
    ∃ stretches, stretches.length = hunks.length + 1 ∧
      old = String.join (interleave stretches (hunks.map (·.flatMap (Edit.oldLines pair)))) ∧
      new = String.join (interleave stretches (hunks.map (·.flatMap (Edit.newLines pair)))) := by
  intro pair hunks
  obtain ⟨stretches, hlength, hold, hnew⟩ := (groups_patch pair).stretches
  refine ⟨stretches, hlength, ?_, ?_⟩
  · rw [← hold]
    exact (join_lines old).symm
  · rw [← hnew]
    exact (join_lines new).symm

/-- The header of a hunk that starts and ends with lines that are kept names the ranges that it
covers. -/
theorem Leads.header_of_kept {first last : Edit}
    (h : Leads pair oldStart newStart group oldStop newStop) (hfirst : group.head? = some first)
    (hlast : group.getLast? = some last) (hfirstKept : first.kind = .keep)
    (hlastKept : last.kind = .keep) :
    first.oldStart = oldStart ∧ first.newStart = newStart ∧
      last.oldStop = oldStop ∧ last.newStop = newStop := by
  obtain ⟨others, rfl⟩ := List.head?_eq_some_iff.mp hfirst
  obtain ⟨hfits, -⟩ := leads_cons_iff.mp h
  obtain ⟨hold, hnew, -⟩ := (Edit.fits_keep_iff hfirstKept).mp hfits
  obtain ⟨before, hbefore⟩ := List.getLast?_eq_some_iff.mp hlast
  rw [hbefore] at h
  obtain ⟨oldMiddle, newMiddle, -, hend⟩ := leads_append_iff.mp h
  obtain ⟨hfitsLast, hstop⟩ := leads_cons_iff.mp hend
  obtain ⟨holdLast, hnewLast, -⟩ := (Edit.fits_keep_iff hlastKept).mp hfitsLast
  obtain ⟨holdStop, hnewStop⟩ := leads_nil_iff.mp hstop
  refine ⟨hold, hnew, ?_, ?_⟩
  · rw [Edit.oldStop, holdLast, holdStop]
  · rw [Edit.newStop, hnewLast, hnewStop]

-- The deletion was found behind the inserted line and has been moved past it: the hunk covers the
-- new lines from the first one on, but is headed by a range that starts with the second one.
example : (groups (Diff.edits ⟨#["b", "a"], #["a", "c", "a"]⟩)).map
    (fun hunk => hunk.head?.map fun edit => (edit.kind, edit.newStart)) = [some (.delete, 1)] := by
  decide +kernel

/-- Texts that differ have a difference that is shown. -/
theorem unified_ne_empty (oldName newName : String) {old new : String} (h : old ≠ new) :
    unified oldName newName old new ≠ "" := by
  have hhunks : groups (Diff.edits { old := lines old, new := lines new }) ≠ [] :=
    fun hnone => h (eq_of_lines_eq (eq_of_no_hunk hnone))
  unfold unified
  cases hgroups : groups (Diff.edits { old := lines old, new := lines new }) with
  | nil => exact absurd hgroups hhunks
  | cons hunk hunks =>
      simp only [hgroups]
      intro hempty
      have hlength := congrArg String.length hempty
      simp only [String.length_append] at hlength
      have hopening : "--- ".length = 4 := rfl
      have hnothing : "".length = 0 := rfl
      omega

end TemplateBundle.Diff

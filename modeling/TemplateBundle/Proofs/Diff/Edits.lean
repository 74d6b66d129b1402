import TemplateBundle.Diff.Compact
import TemplateBundle.Proofs.Diff.Meeting

/-!
# The edits between two sequences

The edits lead from the old lines to the new ones (`edits_lead`): those that are found first do, and
every move that makes them fewer keeps the way on which they lead.
-/

namespace TemplateBundle.Diff

variable {pair : Pair} {oldStart newStart oldStop newStop : Nat} {edits others : List Edit}

/-- None of the edits is a replacement yet. -/
def IsSimple (edits : List Edit) : Prop :=
  ∀ edit ∈ edits, edit.kind ≠ .replace

theorem is_simple_append_iff :
    IsSimple (edits ++ others) ↔ IsSimple edits ∧ IsSimple others := by
  simp [IsSimple, or_imp, forall_and]

theorem is_simple_cons_iff {edit : Edit} :
    IsSimple (edit :: edits) ↔ edit.kind ≠ .replace ∧ IsSimple edits := by
  simp [IsSimple]

/-! ## Shortest edits -/

/-- The edits lead from the start of a range to its end. -/
def LeadsThrough (pair : Pair) (range : Range) (edits : List Edit) : Prop :=
  Leads pair range.oldStart range.newStart edits range.oldStop range.newStop ∧ IsSimple edits

/-- Deleting the old lines and inserting the new ones always leads through a range. -/
theorem exchange_leads {range : Range} (hold : range.oldStart ≤ range.oldStop)
    (hnew : range.newStart ≤ range.newStop) : LeadsThrough pair range (exchange range) := by
  constructor
  · have hdelete := leads_delete pair range.oldStart range.newStart range.oldCount
      range.newStart
    have hinsert := leads_insert pair (range.oldStart + range.oldCount) range.newStart
      range.newCount range.oldStart
    have hboth := hdelete.append hinsert
    unfold Range.oldCount Range.newCount at hboth
    rwa [Nat.add_sub_cancel' hold, Nat.add_sub_cancel' hnew] at hboth
  · intro edit hedit
    rcases List.mem_cons.mp hedit with rfl | hedit
    · exact nofun
    · rw [List.mem_singleton.mp hedit]
      exact nofun

/-- A stretch of agreeing lines is kept, unless it is empty. -/
theorem kept_leads {count : Nat} (h : pair.AgreeFrom oldStart newStart count) :
    Leads pair oldStart newStart (if count = 0 then [] else [.keep oldStart newStart count])
        (oldStart + count) (newStart + count) ∧
      IsSimple (if count = 0 then [] else [.keep oldStart newStart count]) := by
  split_ifs with hempty
  · rw [hempty]
    exact ⟨.nil _ _, fun _ h => absurd h List.not_mem_nil⟩
  · refine ⟨leads_keep h, fun edit hedit => ?_⟩
    rw [List.mem_singleton.mp hedit]
    exact nofun

/-- What is done between the agreeing lines at both ends of a range, once that is known for the
parts of a split range. -/
theorem between_leads (pair : Pair) {range : Range} {inner : Range → List Edit}
    (hold : range.oldStart ≤ range.oldStop) (hnew : range.newStart ≤ range.newStop)
    (hinner : ∀ part : Range, part.oldStart ≤ part.oldStop → part.newStart ≤ part.newStop →
      LeadsThrough pair part (inner part)) :
    LeadsThrough pair range
      (if range.oldCount = 0 ∧ range.newCount = 0 then []
      else if range.newCount = 0 then [.delete range.oldStart range.oldCount range.newStart]
      else if range.oldCount = 0 then [.insert range.oldStart range.newStart range.newCount]
      else
        match meeting? pair range range.stepBound 0 (.start range.stepBound)
            (.start range.stepBound) with
        | some (oldMiddle, newMiddle) =>
            inner { range with oldStop := oldMiddle, newStop := newMiddle } ++
              inner { range with oldStart := oldMiddle, newStart := newMiddle }
        | none => exchange range) := by
  have holdCount : range.oldStart + range.oldCount = range.oldStop := Nat.add_sub_cancel' hold
  have hnewCount : range.newStart + range.newCount = range.newStop := Nat.add_sub_cancel' hnew
  split_ifs with hnone hnoNew hnoOld
  · refine ⟨leads_nil_iff.mpr ⟨?_, ?_⟩, fun _ h => absurd h List.not_mem_nil⟩
    · rw [← holdCount, hnone.1, Nat.add_zero]
    · rw [← hnewCount, hnone.2, Nat.add_zero]
  · have hdelete := leads_delete pair range.oldStart range.newStart range.oldCount
      range.newStart
    rw [holdCount] at hdelete
    rw [hnoNew, Nat.add_zero] at hnewCount
    refine ⟨hnewCount ▸ hdelete, fun edit hedit => ?_⟩
    rw [List.mem_singleton.mp hedit]
    exact nofun
  · have hinsert := leads_insert pair range.oldStart range.newStart range.newCount
      range.oldStart
    rw [hnewCount] at hinsert
    rw [hnoOld, Nat.add_zero] at holdCount
    refine ⟨holdCount ▸ hinsert, fun edit hedit => ?_⟩
    rw [List.mem_singleton.mp hedit]
    exact nofun
  · cases hmeeting : meeting? pair range range.stepBound 0 (.start range.stepBound)
        (.start range.stepBound) with
    | none => exact exchange_leads hold hnew
    | some point =>
        -- the range is split at a point within it, so both parts are ranges again
        obtain ⟨holdLow, holdHigh, hnewLow, hnewHigh⟩ := meeting_in_range hold hnew hmeeting
        obtain ⟨hfirst, hfirstSimple⟩ :=
          hinner { range with oldStop := point.1, newStop := point.2 } holdLow hnewLow
        obtain ⟨hsecond, hsecondSimple⟩ :=
          hinner { range with oldStart := point.1, newStart := point.2 } holdHigh hnewHigh
        exact ⟨hfirst.append hsecond, is_simple_append_iff.mpr ⟨hfirstSimple, hsecondSimple⟩⟩

/-- The induction is on the bound on the depth of splitting. -/
theorem edits_in_lead (pair : Pair) (bound : Nat) (range : Range)
    (hold : range.oldStart ≤ range.oldStop) (hnew : range.newStart ≤ range.newStop) :
    LeadsThrough pair range (editsIn pair bound range) := by
  induction bound generalizing range with
  | zero => exact exchange_leads hold hnew
  | succ bound ih =>
      let start := pair.commonStart range.oldStart range.oldStop range.newStart range.newStop
      let count := pair.commonEnd (range.oldStart + start) range.oldStop (range.newStart + start)
        range.newStop
      let inside : Range := {
        oldStart := range.oldStart + start
        oldStop := range.oldStop - count
        newStart := range.newStart + start
        newStop := range.newStop - count }
      have hstart := pair.common_start_le range.oldStart range.oldStop range.newStart range.newStop
      have hcount := pair.common_end_le (range.oldStart + start) range.oldStop
        (range.newStart + start) range.newStop
      have hinsideOld : inside.oldStart ≤ inside.oldStop := by
        show range.oldStart + start ≤ range.oldStop - count
        omega
      have hinsideNew : inside.newStart ≤ inside.newStop := by
        show range.newStart + start ≤ range.newStop - count
        omega
      have hfirst := kept_leads
        (pair.agree_common_start range.oldStart range.oldStop range.newStart range.newStop)
      have hbetween := between_leads pair hinsideOld hinsideNew ih
      have hlast := kept_leads (pair.agree_common_end (range.oldStart + start) range.oldStop
        (range.newStart + start) range.newStop)
      -- the three parts meet where the next one starts
      have holdLast : range.oldStop - count + count = range.oldStop := by omega
      have hnewLast : range.newStop - count + count = range.newStop := by omega
      obtain ⟨hlast, hlastSimple⟩ := hlast
      rw [holdLast, hnewLast] at hlast
      exact ⟨(hfirst.1.append hbetween.1).append hlast,
        is_simple_append_iff.mpr
          ⟨is_simple_append_iff.mpr ⟨hfirst.2, hbetween.2⟩, hlastSimple⟩⟩

theorem shortest_edits_lead (pair : Pair) :
    Leads pair 0 0 (shortestEdits pair) pair.old.size pair.new.size ∧
      IsSimple (shortestEdits pair) := by
  let whole : Range := {
    oldStart := 0
    oldStop := pair.old.size
    newStart := 0
    newStop := pair.new.size }
  have h := edits_in_lead pair (pair.size + 1) whole (Nat.zero_le _) (Nat.zero_le _)
  exact h

/-! ## Moves -/

/-- An edit that covers no line may be left out. -/
theorem Leads.skip_empty {edit : Edit} (hempty : edit.isEmpty = true)
    (h : Leads pair oldStart newStart (edit :: edits) oldStop newStop) :
    Leads pair oldStart newStart edits oldStop newStop := by
  obtain ⟨-, hrest⟩ := leads_cons_iff.mp h
  obtain ⟨hold, hnew⟩ : edit.oldCount = 0 ∧ edit.newCount = 0 := by
    simpa [Edit.isEmpty] using hempty
  rwa [hold, hnew] at hrest

/-- Two edits of one kind are as good as one. -/
theorem Leads.join {first second : Edit} (hkind : second.kind = first.kind)
    (h : Leads pair oldStart newStart (first :: second :: edits) oldStop newStop) :
    Leads pair oldStart newStart (Spot.joined first second :: edits) oldStop newStop := by
  obtain ⟨hfirst, h⟩ := leads_cons_iff.mp h
  obtain ⟨hsecond, hrest⟩ := leads_cons_iff.mp h
  rw [Nat.add_assoc, Nat.add_assoc] at hrest
  -- the counts of both add up to those of the joined edit, so the rest starts where it did
  refine .cons ?_ hrest
  have hjoined : (Spot.joined first second).kind = first.kind := rfl
  cases hfirstKind : first.kind with
  | keep =>
      rw [hfirstKind] at hkind hjoined
      obtain ⟨hold, hnew, hcount, hagree⟩ := (Edit.fits_keep_iff hfirstKind).mp hfirst
      obtain ⟨-, -, hsecondCount, hsecondAgree⟩ := (Edit.fits_keep_iff hkind).mp hsecond
      rw [hcount] at hsecondAgree
      refine (Edit.fits_keep_iff hjoined).mpr
        ⟨hold, hnew, ?_, Pair.AgreeFrom.append_iff.mpr ⟨hagree, hsecondAgree⟩⟩
      show first.newCount + second.newCount = first.oldCount + second.oldCount
      omega
  | delete =>
      rw [hfirstKind] at hkind hjoined
      obtain ⟨hold, hcount⟩ := (Edit.fits_delete_iff hfirstKind).mp hfirst
      obtain ⟨-, hsecondCount⟩ := (Edit.fits_delete_iff hkind).mp hsecond
      refine (Edit.fits_delete_iff hjoined).mpr ⟨hold, ?_⟩
      show first.newCount + second.newCount = 0
      omega
  | insert =>
      rw [hfirstKind] at hkind hjoined
      obtain ⟨hnew, hcount⟩ := (Edit.fits_insert_iff hfirstKind).mp hfirst
      obtain ⟨-, hsecondCount⟩ := (Edit.fits_insert_iff hkind).mp hsecond
      refine (Edit.fits_insert_iff hjoined).mpr ⟨hnew, ?_⟩
      show first.oldCount + second.oldCount = 0
      omega
  | replace =>
      rw [hfirstKind] at hjoined
      rw [Edit.fits_replace_iff hfirstKind] at hfirst
      exact (Edit.fits_replace_iff hjoined).mpr hfirst

/-- A deletion and an insertion may change places: neither looks at where the other sequence
stands. -/
theorem leads_swap_iff {deleted inserted : Edit} (hdelete : deleted.kind = .delete)
    (hinsert : inserted.kind = .insert) :
    Leads pair oldStart newStart (deleted :: inserted :: edits) oldStop newStop ↔
      Leads pair oldStart newStart (inserted :: deleted :: edits) oldStop newStop := by
  simp only [leads_cons_iff, Edit.fits_delete_iff hdelete, Edit.fits_insert_iff hinsert]
  constructor
  · rintro ⟨⟨hold, hnoNew⟩, ⟨hnew, hnoOld⟩, hrest⟩
    rw [hnoNew, Nat.add_zero] at hnew hrest
    rw [hnoOld, Nat.add_zero] at hrest ⊢
    rw [hnoNew, Nat.add_zero]
    exact ⟨⟨hnew, rfl⟩, ⟨hold, rfl⟩, hrest⟩
  · rintro ⟨⟨hnew, hnoOld⟩, ⟨hold, hnoNew⟩, hrest⟩
    rw [hnoOld, Nat.add_zero] at hold hrest
    rw [hnoNew, Nat.add_zero] at hrest ⊢
    rw [hnoOld, Nat.add_zero]
    exact ⟨⟨hold, rfl⟩, ⟨hnew, rfl⟩, hrest⟩

theorem Leads.swap {first second : Edit} (hfirst : first.IsChange) (hsecond : second.IsChange)
    (hkind : second.kind ≠ first.kind)
    (h : Leads pair oldStart newStart (first :: second :: edits) oldStop newStop) :
    Leads pair oldStart newStart (second :: first :: edits) oldStop newStop := by
  rcases hfirst with hfirst | hfirst <;> rcases hsecond with hsecond | hsecond
  · exact absurd (hsecond.trans hfirst.symm) hkind
  · exact (leads_swap_iff hfirst hsecond).mp h
  · exact (leads_swap_iff hsecond hfirst).mpr h
  · exact absurd (hsecond.trans hfirst.symm) hkind

/-- Lines of the range that a kept stretch and a change have in common are there only if the change
inserts. -/
theorem Edit.insert_of_new_lines {edit : Edit} {oldIndex newIndex : Nat} (hedit : edit.IsChange)
    (hfits : edit.Fits pair oldIndex newIndex) (hlines : edit.newCount ≠ 0) :
    edit.kind = .insert := by
  rcases hedit with hdelete | hinsert
  · exact absurd ((Edit.fits_delete_iff hdelete).mp hfits).2 hlines
  · exact hinsert

/-- A change slides up past a kept stretch as far as its last lines agree with the last ones of the
stretch. -/
theorem Leads.slide_up {previous edit : Edit} (hprevious : previous.kind = .keep)
    (hedit : edit.IsChange) {count : Nat}
    (hcount : count =
      pair.commonEnd previous.oldStart previous.oldStop edit.newStart edit.newStop)
    (hlines : count ≠ 0)
    (h : Leads pair oldStart newStart (previous :: edit :: edits) oldStop newStop) :
    Leads pair oldStart newStart
      (.keep previous.oldStart previous.newStart (previous.oldCount - count) ::
        Spot.movedUp edit count ::
        .keep (previous.oldStop - count) (edit.newStop - count) count :: edits)
      oldStop newStop := by
  obtain ⟨hfits, h⟩ := leads_cons_iff.mp h
  obtain ⟨hfitsEdit, hrest⟩ := leads_cons_iff.mp h
  have hle := pair.common_end_le previous.oldStart previous.oldStop edit.newStart edit.newStop
  have hagreeEnd :=
    pair.agree_common_end previous.oldStart previous.oldStop edit.newStart edit.newStop
  rw [← hcount] at hle hagreeEnd
  simp only [Edit.oldStop, Edit.newStop, Nat.add_sub_cancel_left] at hle hagreeEnd ⊢
  -- a deletion has no new lines that could agree with those of the stretch
  have hinsert : edit.kind = .insert := Edit.insert_of_new_lines hedit hfitsEdit (by omega)
  obtain ⟨hold, hnew, hsame, hagree⟩ := (Edit.fits_keep_iff hprevious).mp hfits
  obtain ⟨hnewEdit, hnoOld⟩ := (Edit.fits_insert_iff hinsert).mp hfitsEdit
  rw [hsame] at hnewEdit hrest
  rw [hnoOld, Nat.add_zero] at hrest
  have hagreeStart : pair.AgreeFrom oldStart newStart (previous.oldCount - count) := by
    rw [← Nat.sub_add_cancel hle.1] at hagree
    exact (Pair.AgreeFrom.append_iff.mp hagree).1
  refine .cons ⟨hold, hnew, rfl, hagreeStart⟩ (.cons ?_ (.cons ⟨?_, ?_, rfl, ?_⟩ ?_))
  · have hmoved : (Spot.movedUp edit count).kind = .insert := hinsert
    refine (Edit.fits_insert_iff hmoved).mpr ⟨?_, hnoOld⟩
    show edit.newStart - count = newStart + (previous.oldCount - count)
    omega
  · show previous.oldStart + previous.oldCount - count =
      oldStart + (previous.oldCount - count) + edit.oldCount
    omega
  · show edit.newStart + edit.newCount - count =
      newStart + (previous.oldCount - count) + edit.newCount
    omega
  · show pair.AgreeFrom (oldStart + (previous.oldCount - count) + edit.oldCount)
      (newStart + (previous.oldCount - count) + edit.newCount) count
    rwa [show oldStart + (previous.oldCount - count) + edit.oldCount =
        previous.oldStart + previous.oldCount - count by omega,
      show newStart + (previous.oldCount - count) + edit.newCount =
        edit.newStart + edit.newCount - count by omega]
  · show Leads pair (oldStart + (previous.oldCount - count) + edit.oldCount + count)
      (newStart + (previous.oldCount - count) + edit.newCount + count) edits oldStop newStop
    rwa [show oldStart + (previous.oldCount - count) + edit.oldCount + count =
        oldStart + previous.oldCount by omega,
      show newStart + (previous.oldCount - count) + edit.newCount + count =
        newStart + previous.oldCount + edit.newCount by omega]

/-- A change slides down past a kept stretch as far as its first lines agree with the first ones of
the stretch. -/
theorem Leads.slide_down {edit next : Edit} (hnext : next.kind = .keep)
    (hedit : edit.IsChange) {count : Nat}
    (hcount : count = pair.commonStart next.oldStart next.oldStop edit.newStart edit.newStop)
    (hlines : count ≠ 0)
    (h : Leads pair oldStart newStart (edit :: next :: edits) oldStop newStop) :
    Leads pair oldStart newStart
      (.keep next.oldStart edit.newStart count :: Spot.movedDown edit count ::
        .keep (next.oldStart + count) (next.newStart + count) (next.oldCount - count) :: edits)
      oldStop newStop := by
  obtain ⟨hfitsEdit, h⟩ := leads_cons_iff.mp h
  obtain ⟨hfits, hrest⟩ := leads_cons_iff.mp h
  have hle := pair.common_start_le next.oldStart next.oldStop edit.newStart edit.newStop
  have hagreeStart :=
    pair.agree_common_start next.oldStart next.oldStop edit.newStart edit.newStop
  rw [← hcount] at hle hagreeStart
  simp only [Edit.oldStop, Edit.newStop, Nat.add_sub_cancel_left] at hle
  -- a deletion has no new lines that could agree with those of the stretch
  have hinsert : edit.kind = .insert := Edit.insert_of_new_lines hedit hfitsEdit (by omega)
  obtain ⟨hnewEdit, hnoOld⟩ := (Edit.fits_insert_iff hinsert).mp hfitsEdit
  obtain ⟨hold, hnew, hsame, hagree⟩ := (Edit.fits_keep_iff hnext).mp hfits
  rw [hnoOld, Nat.add_zero] at hold hagree hrest
  have hagreeEnd : pair.AgreeFrom (oldStart + count) (newStart + edit.newCount + count)
      (next.oldCount - count) := by
    rw [← Nat.add_sub_cancel' hle.1] at hagree
    exact (Pair.AgreeFrom.append_iff.mp hagree).2
  rw [hold, hnewEdit] at hagreeStart
  refine .cons ⟨hold, hnewEdit, rfl, hagreeStart⟩ (.cons ?_ (.cons ⟨?_, ?_, rfl, ?_⟩ ?_))
  · have hmoved : (Spot.movedDown edit count).kind = .insert := hinsert
    refine (Edit.fits_insert_iff hmoved).mpr ⟨?_, hnoOld⟩
    show edit.newStart + count = newStart + count
    omega
  · show next.oldStart + count = oldStart + count + edit.oldCount
    omega
  · show next.newStart + count = newStart + count + edit.newCount
    omega
  · show pair.AgreeFrom (oldStart + count + edit.oldCount) (newStart + count + edit.newCount)
      (next.oldCount - count)
    rwa [hnoOld, Nat.add_zero, Nat.add_right_comm newStart]
  · show Leads pair (oldStart + count + edit.oldCount + (next.oldCount - count))
      (newStart + count + edit.newCount + (next.oldCount - count)) edits oldStop newStop
    rwa [show oldStart + count + edit.oldCount + (next.oldCount - count) =
        oldStart + next.oldCount by omega,
      show newStart + count + edit.newCount + (next.oldCount - count) =
        newStart + edit.newCount + next.newCount by omega]

/-- A kept stretch joins the one behind it. -/
theorem Leads.keep_earlier {x y count : Nat}
    (h : Leads pair oldStart newStart (.keep x y count :: edits) oldStop newStop) :
    Leads pair oldStart newStart (Spot.keepEarlier count x y edits) oldStop newStop := by
  cases edits with
  | nil => exact h
  | cons next others =>
      rw [Spot.keepEarlier]
      by_cases hkeep : next.kind = .keep
      · rw [if_pos hkeep]
        obtain ⟨⟨hold, hnew, -, -⟩, hrest⟩ := leads_cons_iff.mp h
        obtain ⟨hfits, -⟩ := leads_cons_iff.mp hrest
        obtain ⟨holdNext, hnewNext, hsame, -⟩ := (Edit.fits_keep_iff hkeep).mp hfits
        have hjoined : Leads pair oldStart newStart (Spot.joined (.keep x y count) next :: others)
            oldStop newStop := Leads.join hkeep h
        have hedit : Spot.joined (.keep x y count) next =
            .keep (next.oldStart - count) (next.newStart - count) (next.oldCount + count) := by
          show (⟨.keep, x, count + next.oldCount, y, count + next.newCount⟩ : Edit) =
            ⟨.keep, next.oldStart - count, next.oldCount + count, next.newStart - count,
              next.oldCount + count⟩
          have hx : x = next.oldStart - count := by
            rw [holdNext, ← hold]
            exact (Nat.add_sub_cancel ..).symm
          have hy : y = next.newStart - count := by
            rw [hnewNext, ← hnew]
            exact (Nat.add_sub_cancel ..).symm
          rw [hsame, ← hx, ← hy, Nat.add_comm count]
        rwa [hedit] at hjoined
      · rw [if_neg hkeep]
        exact h

/-- A kept stretch joins the one before it. -/
theorem Leads.keep_later {x y count : Nat} {before : List Edit}
    (h : Leads pair oldStart newStart (before.reverse ++ .keep x y count :: edits)
      oldStop newStop) :
    Leads pair oldStart newStart ((Spot.keepLater count x y before).reverse ++ edits)
      oldStop newStop := by
  cases before with
  | nil => exact h
  | cons previous others =>
      rw [Spot.keepLater]
      by_cases hkeep : previous.kind = .keep
      · rw [if_pos hkeep]
        rw [List.reverse_cons, List.append_assoc] at h ⊢
        refine h.replace_end fun oldIndex newIndex h => ?_
        obtain ⟨hfits, -⟩ := leads_cons_iff.mp h
        obtain ⟨-, -, hsame, -⟩ := (Edit.fits_keep_iff hkeep).mp hfits
        have hjoined : Leads pair oldIndex newIndex
            (Spot.joined previous (.keep x y count) :: edits) oldStop newStop :=
          Leads.join hkeep.symm h
        have hedit : Spot.joined previous (.keep x y count) =
            .keep previous.oldStart previous.newStart (previous.oldCount + count) := by
          show (⟨previous.kind, previous.oldStart, previous.oldCount + count, previous.newStart,
              previous.newCount + count⟩ : Edit) =
            ⟨.keep, previous.oldStart, previous.oldCount + count, previous.newStart,
              previous.oldCount + count⟩
          rw [hsame, hkeep]
        rwa [hedit] at hjoined
      · rw [if_neg hkeep]
        rw [List.reverse_cons, List.append_assoc]
        exact h

/-- The edit is left out if it covers no line. -/
theorem Leads.cons_nonempty {edit : Edit}
    (h : Leads pair oldStart newStart (edit :: edits) oldStop newStop) :
    Leads pair oldStart newStart (Spot.consNonempty edit edits) oldStop newStop := by
  unfold Spot.consNonempty
  by_cases hempty : edit.isEmpty = true
  · rw [if_pos hempty]
    exact h.skip_empty hempty
  · rw [if_neg hempty]
    exact h

/-- The same for edits that come last one first. -/
theorem Leads.reverse_cons_nonempty {edit : Edit} {before : List Edit}
    (h : Leads pair oldStart newStart (before.reverse ++ edit :: edits) oldStop newStop) :
    Leads pair oldStart newStart ((Spot.consNonempty edit before).reverse ++ edits)
      oldStop newStop := by
  unfold Spot.consNonempty
  by_cases hempty : edit.isEmpty = true
  · rw [if_pos hempty]
    exact h.replace_end fun _ _ h => h.skip_empty hempty
  · rw [if_neg hempty, List.reverse_cons, List.append_assoc]
    exact h

theorem IsSimple.keep_earlier {x y count : Nat} (h : IsSimple edits) :
    IsSimple (Spot.keepEarlier count x y edits) := by
  cases edits with
  | nil => simp [Spot.keepEarlier, IsSimple, Edit.keep]
  | cons next others =>
      rw [Spot.keepEarlier]
      split_ifs
      · exact is_simple_cons_iff.mpr ⟨nofun, (is_simple_cons_iff.mp h).2⟩
      · exact is_simple_cons_iff.mpr ⟨nofun, h⟩

theorem IsSimple.keep_later {x y count : Nat} (h : IsSimple edits) :
    IsSimple (Spot.keepLater count x y edits) := by
  cases edits with
  | nil => simp [Spot.keepLater, IsSimple, Edit.keep]
  | cons next others =>
      rw [Spot.keepLater]
      split_ifs
      · exact is_simple_cons_iff.mpr ⟨nofun, (is_simple_cons_iff.mp h).2⟩
      · exact is_simple_cons_iff.mpr ⟨nofun, h⟩

theorem IsSimple.cons_nonempty {edit : Edit} (hedit : edit.kind ≠ .replace) (h : IsSimple edits) :
    IsSimple (Spot.consNonempty edit edits) := by
  unfold Spot.consNonempty
  split_ifs
  · exact h
  · exact is_simple_cons_iff.mpr ⟨hedit, h⟩

/-! ## Compaction -/

namespace Spot

/-- All edits around the place, in their order. -/
def all (spot : Spot) : List Edit :=
  spot.before.reverse ++ spot.edit :: spot.after

/-- The edits around the place lead from the starts of both sequences to a place in each, and the
one that moves is a deletion or an insertion. -/
structure Holds (pair : Pair) (oldStop newStop : Nat) (spot : Spot) : Prop where
  leads : Leads pair 0 0 spot.all oldStop newStop
  before_simple : IsSimple spot.before
  after_simple : IsSimple spot.after
  change : spot.edit.IsChange

variable {spot moved : Spot}

/-- The edit may be exchanged together with the one before it and all behind it. -/
theorem Holds.leads_from (h : spot.Holds pair oldStop newStop) {previous : Edit}
    {before instead : List Edit} (hbefore : spot.before = previous :: before)
    (hinstead : ∀ oldIndex newIndex,
      Leads pair oldIndex newIndex (previous :: spot.edit :: spot.after) oldStop newStop →
      Leads pair oldIndex newIndex instead oldStop newStop) :
    Leads pair 0 0 (before.reverse ++ instead) oldStop newStop := by
  have hleads := h.leads
  rw [all, hbefore, List.reverse_cons, List.append_assoc] at hleads
  exact hleads.replace_end hinstead

/-- A change is what is neither kept nor replaced. -/
theorem is_change_of_ne {edit : Edit} (hkeep : edit.kind ≠ .keep) (hsimple : edit.kind ≠ .replace) :
    edit.IsChange := by
  cases hkind : edit.kind with
  | keep => exact absurd hkind hkeep
  | delete => exact .inl hkind
  | insert => exact .inr hkind
  | replace => exact absurd hkind hsimple

/-- A move up keeps the way of the edits. -/
theorem Holds.up (h : spot.Holds pair oldStop newStop) (hmove : up? pair spot = some moved) :
    moved.Holds pair oldStop newStop := by
  unfold up? at hmove
  cases hbefore : spot.before with
  | nil => simp [hbefore] at hmove
  | cons previous before =>
      obtain ⟨hprevious, hsimple⟩ := is_simple_cons_iff.mp (hbefore ▸ h.before_simple)
      simp only [hbefore] at hmove
      split_ifs at hmove with hkeep hcount hempty hkind
      · -- an empty kept stretch is in the way
        cases hmove
        refine ⟨?_, hsimple, h.after_simple, h.change⟩
        exact h.leads_from hbefore fun _ _ h => h.skip_empty hempty
      · cases hmove
        refine ⟨?_, hsimple.cons_nonempty nofun, h.after_simple.keep_earlier, h.change⟩
        apply Leads.reverse_cons_nonempty
        refine h.leads_from hbefore fun _ _ hway => ?_
        -- the change slides into the stretch, which is cut in two
        have hslid := hway.slide_up hkeep h.change rfl hcount
        obtain ⟨hfits, hslid⟩ := leads_cons_iff.mp hslid
        obtain ⟨hfitsEdit, hslid⟩ := leads_cons_iff.mp hslid
        exact .cons hfits (.cons hfitsEdit hslid.keep_earlier)
      · cases hmove
        refine ⟨?_, hsimple, h.after_simple, ?_⟩
        · exact h.leads_from hbefore fun _ _ h => h.join hkind.symm
        · show previous.IsChange
          exact is_change_of_ne hkeep hprevious
      · cases hmove
        refine ⟨?_, hsimple, is_simple_cons_iff.mpr ⟨hprevious, h.after_simple⟩, h.change⟩
        exact h.leads_from hbefore fun _ _ hway =>
          hway.swap (is_change_of_ne hkeep hprevious) h.change fun heq => hkind heq.symm

/-- A move down keeps the way of the edits. -/
theorem Holds.down (h : spot.Holds pair oldStop newStop) (hmove : down? pair spot = some moved) :
    moved.Holds pair oldStop newStop := by
  unfold down? at hmove
  have hway := h.leads
  unfold all at hway
  cases hafter : spot.after with
  | nil => simp [hafter] at hmove
  | cons next after =>
      obtain ⟨hnext, hsimple⟩ := is_simple_cons_iff.mp (hafter ▸ h.after_simple)
      simp only [hafter] at hmove
      rw [hafter] at hway
      split_ifs at hmove with hkeep hcount hempty hkind
      · -- an empty kept stretch is in the way
        cases hmove
        refine ⟨hway.replace_end fun _ _ hway => ?_, h.before_simple, hsimple, h.change⟩
        obtain ⟨hfits, hrest⟩ := leads_cons_iff.mp hway
        exact .cons hfits (hrest.skip_empty hempty)
      · cases hmove
        refine ⟨?_, h.before_simple.keep_later, hsimple.cons_nonempty nofun, h.change⟩
        apply Leads.keep_later
        refine hway.replace_end fun _ _ hway => ?_
        -- the change slides into the stretch, which is cut in two
        have hslid := hway.slide_down hkeep h.change rfl hcount
        obtain ⟨hfits, hslid⟩ := leads_cons_iff.mp hslid
        obtain ⟨hfitsEdit, hslid⟩ := leads_cons_iff.mp hslid
        exact .cons hfits (.cons hfitsEdit hslid.cons_nonempty)
      · cases hmove
        exact ⟨hway.replace_end fun _ _ hway => hway.join hkind, h.before_simple, hsimple, h.change⟩
      · cases hmove
        refine ⟨?_, is_simple_cons_iff.mpr ⟨hnext, h.before_simple⟩, hsimple, h.change⟩
        show Leads pair 0 0 ((next :: spot.before).reverse ++ spot.edit :: after) oldStop newStop
        rw [List.reverse_cons, List.append_assoc]
        exact hway.replace_end fun _ _ hway =>
          hway.swap h.change (is_change_of_ne hkeep hnext) hkind

/-- What every move keeps is kept by repeated moves. -/
theorem Holds.repeated {move : Spot → Option Spot}
    (hmove : ∀ spot moved, spot.Holds pair oldStop newStop → move spot = some moved →
      moved.Holds pair oldStop newStop) (bound : Nat) (h : spot.Holds pair oldStop newStop) :
    (Spot.repeated move bound spot).Holds pair oldStop newStop := by
  induction bound generalizing spot with
  | zero => exact h
  | succ bound ih =>
      rw [Spot.repeated]
      cases hmoved : move spot with
      | none => exact h
      | some moved => exact ih (hmove spot moved h hmoved)

theorem Holds.settle (h : spot.Holds pair oldStop newStop) :
    (Spot.settle pair spot).Holds pair oldStop newStop :=
  .repeated (fun _ _ h => h.down) _ (.repeated (fun _ _ h => h.up) _ h)

end Spot

/-- Settling the edits of a kind keeps their way. The induction is on the number of edits that are
looked at. -/
theorem settle_all_leads {kind : EditKind} (hkind : kind = .delete ∨ kind = .insert) (bound : Nat)
    {before after : List Edit} (hbefore : IsSimple before) (hafter : IsSimple after)
    (h : Leads pair 0 0 (before.reverse ++ after) oldStop newStop) :
    Leads pair 0 0 (settleAll pair kind bound before after) oldStop newStop ∧
      IsSimple (settleAll pair kind bound before after) := by
  have hreversed {edits : List Edit} (h : IsSimple edits) : IsSimple edits.reverse :=
    fun edit hedit => h edit (List.mem_reverse.mp hedit)
  induction bound generalizing before after with
  | zero => exact ⟨h, is_simple_append_iff.mpr ⟨hreversed hbefore, hafter⟩⟩
  | succ bound ih =>
      cases after with
      | nil =>
          rw [List.append_nil] at h
          exact ⟨h, hreversed hbefore⟩
      | cons edit after =>
          obtain ⟨hedit, hafter⟩ := is_simple_cons_iff.mp hafter
          rw [settleAll]
          split_ifs with hchange
          · have hchange : edit.IsChange := by rwa [Edit.IsChange, hchange]
            -- the edit moves to where it settles, and the search goes on behind that place
            have hsettled : (Spot.settle pair ⟨before, edit, after⟩).Holds pair oldStop newStop :=
              Spot.Holds.settle ⟨h, hbefore, hafter, hchange⟩
            have hsimple : (Spot.settle pair ⟨before, edit, after⟩).edit.kind ≠ .replace := by
              rcases hsettled.change with hsettledKind | hsettledKind <;>
                exact hsettledKind ▸ nofun
            refine ih (is_simple_cons_iff.mpr ⟨hsimple, hsettled.before_simple⟩)
              hsettled.after_simple ?_
            rw [List.reverse_cons, List.append_assoc]
            exact hsettled.leads
          · refine ih (is_simple_cons_iff.mpr ⟨hedit, hbefore⟩) hafter ?_
            rw [List.reverse_cons, List.append_assoc]
            exact h

/-! ## Joining -/

namespace Pending

/-- The edits that pend, a deletion and an insertion apart. -/
def parts (pending : Pending) : List Edit :=
  pending.kept.toList ++ pending.deleted.toList ++ pending.inserted.toList

/-- Every edit that pends is of the kind it is kept as, and nothing else pends beside a kept
stretch. -/
structure Holds (pending : Pending) : Prop where
  kept_kind : ∀ edit ∈ pending.kept, edit.kind = .keep
  deleted_kind : ∀ edit ∈ pending.deleted, edit.kind = .delete
  inserted_kind : ∀ edit ∈ pending.inserted, edit.kind = .insert
  alone : pending.kept ≠ none → pending.deleted = none ∧ pending.inserted = none

end Pending

/-- A deletion and an insertion may become a replacement. -/
theorem Leads.replace {deleted inserted : Edit} (hdelete : deleted.kind = .delete)
    (hinsert : inserted.kind = .insert)
    (h : Leads pair oldStart newStart (deleted :: inserted :: edits) oldStop newStop) :
    Leads pair oldStart newStart
      (⟨.replace, deleted.oldStart, deleted.oldCount, inserted.newStart, inserted.newCount⟩ ::
        edits) oldStop newStop := by
  obtain ⟨hfits, h⟩ := leads_cons_iff.mp h
  obtain ⟨hfitsInserted, hrest⟩ := leads_cons_iff.mp h
  obtain ⟨hold, hnoNew⟩ := (Edit.fits_delete_iff hdelete).mp hfits
  obtain ⟨hnew, hnoOld⟩ := (Edit.fits_insert_iff hinsert).mp hfitsInserted
  rw [hnoNew, Nat.add_zero] at hnew hrest
  rw [hnoOld, Nat.add_zero] at hrest
  exact .cons ⟨hold, hnew⟩ hrest

/-- What pends may be given out. -/
theorem Leads.pending_edits {pending : Pending} (hpending : pending.Holds)
    (h : Leads pair oldStart newStart (pending.parts ++ edits) oldStop newStop) :
    Leads pair oldStart newStart (pending.edits ++ edits) oldStop newStop := by
  obtain ⟨kept, deleted, inserted⟩ := pending
  unfold Pending.parts at h
  unfold Pending.edits
  rw [List.append_assoc] at h ⊢
  rw [List.append_assoc] at h
  refine h.replace_end fun _ _ h => ?_
  cases deleted with
  | none => cases inserted <;> exact h
  | some deleted =>
      cases inserted with
      | none => exact h
      | some inserted =>
          exact h.replace (hpending.deleted_kind deleted rfl) (hpending.inserted_kind inserted rfl)

/-- An edit joins a pending one of its kind. -/
theorem Leads.extend {pending : Option Edit} {edit : Edit}
    (hkind : ∀ first ∈ pending, edit.kind = first.kind)
    (h : Leads pair oldStart newStart (pending.toList ++ edit :: edits) oldStop newStop) :
    Leads pair oldStart newStart ((Pending.extend pending edit).toList ++ edits)
      oldStop newStop := by
  cases pending with
  | none => exact h
  | some first => exact h.join (hkind first rfl)

/-- An extended edit is of the kind of its parts. -/
theorem kind_of_extend {pending : Option Edit} {edit : Edit} {kind : EditKind}
    (hkind : ∀ first ∈ pending, first.kind = kind) (hedit : edit.kind = kind) :
    ∀ first ∈ Pending.extend pending edit, first.kind = kind := by
  cases pending with
  | none =>
      rintro first ⟨⟩
      exact hedit
  | some first =>
      rintro joined ⟨⟩
      exact hkind first rfl

namespace Pending

variable {edit : Edit} {deleted inserted : Option Edit}

theorem holds_kept {kept : Option Edit} (h : ∀ edit ∈ kept, edit.kind = .keep) :
    Holds { kept := kept } :=
  ⟨h, nofun, nofun, fun _ => ⟨rfl, rfl⟩⟩

theorem holds_changes (hdeleted : ∀ edit ∈ deleted, edit.kind = .delete)
    (hinserted : ∀ edit ∈ inserted, edit.kind = .insert) :
    Holds { deleted := deleted, inserted := inserted } :=
  ⟨nofun, hdeleted, hinserted, fun h => absurd rfl h⟩

/-- The kind of a single pending edit is that of the edit. -/
theorem kind_of_single {kind : EditKind} (hkind : edit.kind = kind) :
    ∀ first ∈ some edit, first.kind = kind := by
  rintro first ⟨⟩
  exact hkind

end Pending

/-- A deletion joins the pending one in front of a pending insertion. -/
theorem Leads.extend_deleted {deleted inserted : Option Edit} {edit : Edit}
    (hpending : Pending.Holds { deleted := deleted, inserted := inserted })
    (hkind : edit.kind = .delete)
    (h : Leads pair oldStart newStart
      (Pending.parts { deleted := deleted, inserted := inserted } ++ edit :: edits)
      oldStop newStop) :
    Leads pair oldStart newStart
      (Pending.parts { deleted := Pending.extend deleted edit, inserted := inserted } ++ edits)
      oldStop newStop := by
  have hparts (deleted : Option Edit) :
      Pending.parts { deleted := deleted, inserted := inserted } =
        deleted.toList ++ inserted.toList := rfl
  rw [hparts, List.append_assoc] at h ⊢
  refine Leads.extend (fun first hfirst => ?_) (h.replace_end fun _ _ h => ?_)
  · rw [hkind, hpending.deleted_kind first hfirst]
  · cases inserted with
    | none => exact h
    | some inserted =>
        exact (leads_swap_iff hkind (hpending.inserted_kind inserted rfl)).mpr h

/-- An insertion joins the pending one. -/
theorem Leads.extend_inserted {deleted inserted : Option Edit} {edit : Edit}
    (hpending : Pending.Holds { deleted := deleted, inserted := inserted })
    (hkind : edit.kind = .insert)
    (h : Leads pair oldStart newStart
      (Pending.parts { deleted := deleted, inserted := inserted } ++ edit :: edits)
      oldStop newStop) :
    Leads pair oldStart newStart
      (Pending.parts { deleted := deleted, inserted := Pending.extend inserted edit } ++ edits)
      oldStop newStop := by
  have hparts (inserted : Option Edit) :
      Pending.parts { deleted := deleted, inserted := inserted } =
        deleted.toList ++ inserted.toList := rfl
  rw [hparts, List.append_assoc] at h ⊢
  refine h.replace_end fun _ _ h => h.extend fun first hfirst => ?_
  rw [hkind, hpending.inserted_kind first hfirst]

/-- Joining edits keeps their way. The induction is on the edits that are still to be joined. -/
theorem join_leads {pending : Pending} (hpending : pending.Holds) (hsimple : IsSimple edits)
    (h : Leads pair oldStart newStart (pending.parts ++ edits) oldStop newStop) :
    Leads pair oldStart newStart (join pending edits) oldStop newStop := by
  induction edits generalizing pending oldStart newStart with
  | nil =>
      have hedits := h.pending_edits hpending
      rwa [List.append_nil] at hedits
  | cons edit edits ih =>
      obtain ⟨hedit, hsimple⟩ := is_simple_cons_iff.mp hsimple
      -- what pends is given out, and the edit pends next
      have hnext {next : Pending} (hnext : next.Holds) (hparts : next.parts = [edit]) :
          Leads pair oldStart newStart (pending.edits ++ join next edits) oldStop newStop :=
        (h.pending_edits hpending).replace_end fun _ _ h => ih hnext hsimple (hparts ▸ h)
      obtain ⟨kept, deleted, inserted⟩ := pending
      cases kept with
      | some kept =>
          obtain ⟨hdeleted, hinserted⟩ := hpending.alone nofun
          obtain rfl : deleted = none := hdeleted
          obtain rfl : inserted = none := hinserted
          have hkept := hpending.kept_kind kept rfl
          cases hkind : edit.kind with
          | keep =>
              simp only [join, hkind]
              refine ih (Pending.holds_kept (kind_of_extend hpending.kept_kind hkind)) hsimple ?_
              exact h.join (hkind.trans hkept.symm)
          | delete =>
              simp only [join, hkind]
              exact hnext (Pending.holds_changes (Pending.kind_of_single hkind) nofun) rfl
          | insert =>
              simp only [join, hkind]
              exact hnext (Pending.holds_changes nofun (Pending.kind_of_single hkind)) rfl
          | replace => exact absurd hkind hedit
      | none =>
          cases hkind : edit.kind with
          | keep =>
              simp only [join, hkind]
              exact hnext (Pending.holds_kept (Pending.kind_of_single hkind)) rfl
          | delete =>
              simp only [join, hkind]
              have hdeleted := kind_of_extend hpending.deleted_kind hkind
              exact ih (Pending.holds_changes hdeleted hpending.inserted_kind) hsimple
                (h.extend_deleted hpending hkind)
          | insert =>
              simp only [join, hkind]
              have hinserted := kind_of_extend hpending.inserted_kind hkind
              exact ih (Pending.holds_changes hpending.deleted_kind hinserted) hsimple
                (h.extend_inserted hpending hkind)
          | replace => exact absurd hkind hedit

/-- The edits between two sequences lead through both. -/
theorem edits_lead (pair : Pair) :
    Leads pair 0 0 (Diff.edits pair) pair.old.size pair.new.size := by
  obtain ⟨hstart, hstartSimple⟩ := shortest_edits_lead pair
  obtain ⟨hdeleted, hdeletedSimple⟩ :=
    settle_all_leads (.inl rfl) _ (fun _ h => absurd h List.not_mem_nil) hstartSimple hstart
  obtain ⟨hsettled, hsettledSimple⟩ :=
    settle_all_leads (.inr rfl) _ (fun _ h => absurd h List.not_mem_nil) hdeletedSimple hdeleted
  exact join_leads (Pending.holds_changes nofun nofun) hsettledSimple hsettled

end TemplateBundle.Diff

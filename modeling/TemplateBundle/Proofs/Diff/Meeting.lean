import Mathlib.Tactic.SplitIfs
import TemplateBundle.Proofs.Diff.Replay

/-!
# Where two walks meet

The search for a shortest way walks from both ends of a range at once and keeps, for each diagonal,
how far it came. Walks may leave the range, but they meet inside of it (`meeting_in_range`), so a
meeting splits the range into two.

A walk that leaves the range on a diagonal is matched by one that touches the border on the next
diagonal (`Front`), and a walk at the border would have met the other one already.
-/

namespace TemplateBundle.Diff

/-! ## Diagonals -/

/-- The diagonal can be reached by so many steps along the axes. -/
def OnStep (steps : Nat) (diagonal : Int) : Prop :=
  diagonal.natAbs ≤ steps ∧ (diagonal + steps) % 2 = 0

theorem mem_diagonals_iff {steps : Nat} {diagonal : Int} :
    diagonal ∈ diagonals steps ↔ OnStep steps diagonal := by
  unfold diagonals OnStep
  rw [List.mem_map]
  constructor
  · rintro ⟨index, hindex, rfl⟩
    rw [List.mem_range] at hindex
    omega
  · rintro ⟨hsize, hparity⟩
    refine ⟨((steps - diagonal) / 2).toNat, ?_, ?_⟩
    · rw [List.mem_range]
      omega
    · omega

theorem OnStep.below {steps : Nat} {diagonal : Int} (h : OnStep steps diagonal) :
    OnStep (steps + 1) (diagonal - 1) := by
  unfold OnStep at *
  omega

theorem OnStep.above {steps : Nat} {diagonal : Int} (h : OnStep steps diagonal) :
    OnStep (steps + 1) (diagonal + 1) := by
  unfold OnStep at *
  omega

namespace Reach

/-- There is room for all diagonals of so many steps. -/
def Holds (reach : Reach) (steps : Nat) : Prop :=
  reach.values.size = 2 * reach.offset + 2 ∧ steps ≤ reach.offset

variable {reach : Reach} {steps : Nat} {diagonal other : Int}

theorem start_at (bound : Nat) (diagonal : Int) : (start bound).at? diagonal = 0 := by
  unfold at? start
  simp only [Array.getD_eq_getD_getElem?, Array.getElem?_replicate]
  split_ifs <;> rfl

theorem holds_start {bound : Nat} (h : steps ≤ bound) : (start bound).Holds steps :=
  ⟨Array.size_replicate, h⟩

theorem Holds.mono {room : Nat} (hle : steps ≤ room) (h : reach.Holds room) : reach.Holds steps :=
  ⟨h.1, Nat.le_trans hle h.2⟩

theorem Holds.update (h : reach.Holds steps) (diagonal : Int) (value : Nat) :
    (reach.update diagonal value).Holds steps :=
  ⟨by simpa [Reach.update] using h.1, h.2⟩

theorem update_at_same (h : reach.Holds steps) (hsize : diagonal.natAbs ≤ steps) (value : Nat) :
    (reach.update diagonal value).at? diagonal = value := by
  obtain ⟨hvalues, hsteps⟩ := h
  have hbound : (diagonal + reach.offset).toNat < reach.values.size := by omega
  simp [at?, Reach.update, Array.getD_eq_getD_getElem?, hbound]

theorem update_at_other (h : reach.Holds steps) (hsize : diagonal.natAbs ≤ steps)
    (hother : other.natAbs ≤ steps) (hne : other ≠ diagonal) (value : Nat) :
    (reach.update diagonal value).at? other = reach.at? other := by
  obtain ⟨hvalues, hsteps⟩ := h
  have hplaces : (diagonal + reach.offset).toNat ≠ (other + reach.offset).toNat := by omega
  simp [at?, Reach.update, Array.getD_eq_getD_getElem?,
    Array.getElem?_setIfInBounds_ne hplaces]

/-- The next place is one step from the place on the diagonal above or on the one below, and the
further one of both. -/
theorem next_cases (reach : Reach) (hon : OnStep steps diagonal) :
    (diagonal < steps ∧ reach.next steps diagonal = reach.at? (diagonal + 1) ∨
        -steps < diagonal ∧ reach.next steps diagonal = reach.at? (diagonal - 1) + 1 ∨
        steps = 0 ∧ reach.next steps diagonal = reach.at? 1) ∧
      (diagonal < steps → reach.at? (diagonal + 1) ≤ reach.next steps diagonal) ∧
      (-steps < diagonal → reach.at? (diagonal - 1) + 1 ≤ reach.next steps diagonal) := by
  obtain ⟨hsize, -⟩ := hon
  unfold next
  split_ifs with hup
  · by_cases hzero : steps = 0
    · obtain rfl : diagonal = 0 := by omega
      simp [hzero]
    · omega
  · omega

end Reach

/-! ## One step -/

/-- Walk one step further on each diagonal, as both walks do: `advance` tells how many agreeing
lines follow a place, and `meets` whether the other walk is met there. -/
def sweep (advance : Nat → Nat → Nat) (meets : Int → Nat → Prop) [∀ k x, Decidable (meets k x)]
    (steps : Nat) : List Int → Reach → Reach × Option (Nat × Nat × Nat)
  | [], reach => (reach, none)
  | diagonal :: others, reach =>
      let x := reach.next steps diagonal
      let y := ((x : Int) - diagonal).toNat
      let reached := x + advance x y
      let reach := reach.update diagonal reached
      if meets diagonal reached then (reach, some (x, y, advance x y))
      else sweep advance meets steps others reach

/-- How many lines agree from a place on. -/
def advanceForward (pair : Pair) (range : Range) (x y : Nat) : Nat :=
  pair.commonStart (range.oldStart + x) range.oldStop (range.newStart + y) range.newStop

/-- How many lines agree from a place on, both counted from the end. -/
def advanceBack (pair : Pair) (range : Range) (x y : Nat) : Nat :=
  if x < range.oldCount ∧ y < range.newCount then
    pair.commonEnd range.oldStart (range.oldStop - x) range.newStart (range.newStop - y)
  else 0

/-- The walk from the start meets the one from the end. -/
abbrev MeetsForward (range : Range) (steps : Nat) (back : Reach) (diagonal : Int) (reached : Nat) :
    Prop :=
  range.lastDiagonal % 2 ≠ 0 ∧ (range.lastDiagonal - diagonal).natAbs + 1 ≤ steps ∧
    range.oldCount ≤ reached + back.at? (range.lastDiagonal - diagonal)

/-- The walk from the end meets the one from the start. -/
abbrev MeetsBack (range : Range) (steps : Nat) (forth : Reach) (diagonal : Int) (reached : Nat) :
    Prop :=
  range.lastDiagonal % 2 = 0 ∧ (range.lastDiagonal - diagonal).natAbs ≤ steps ∧
    range.oldCount ≤ reached + forth.at? (range.lastDiagonal - diagonal)

theorem go_forward_eq_sweep (pair : Pair) (range : Range) (steps : Nat) (back : Reach)
    (diagonals : List Int) (reach : Reach) :
    goForward pair range steps back diagonals reach =
      let (after, found) := sweep (advanceForward pair range) (MeetsForward range steps back) steps
        diagonals reach
      (after, found.map fun (x, y, _) => (range.oldStart + x, range.newStart + y)) := by
  induction diagonals generalizing reach with
  | nil => rfl
  | cons diagonal diagonals ih =>
      let x := reach.next steps diagonal
      let count := advanceForward pair range x ((x : Int) - diagonal).toNat
      by_cases hmeets : MeetsForward range steps back diagonal (x + count)
      · rw [sweep, if_pos hmeets]
        exact if_pos hmeets
      · rw [sweep, if_neg hmeets, ← ih]
        exact if_neg hmeets

theorem go_back_eq_sweep (pair : Pair) (range : Range) (steps : Nat) (forth : Reach)
    (diagonals : List Int) (reach : Reach) :
    goBack pair range steps forth diagonals reach =
      let (after, found) := sweep (advanceBack pair range) (MeetsBack range steps forth) steps
        diagonals reach
      (after, found.map fun (x, y, advance) =>
        (range.oldStop - (x + advance), range.newStop - (y + advance))) := by
  induction diagonals generalizing reach with
  | nil => rfl
  | cons diagonal diagonals ih =>
      let x := reach.next steps diagonal
      let count := advanceBack pair range x ((x : Int) - diagonal).toNat
      by_cases hmeets : MeetsBack range steps forth diagonal (x + count)
      · rw [sweep, if_pos hmeets]
        exact if_pos hmeets
      · rw [sweep, if_neg hmeets, ← ih]
        exact if_neg hmeets

/-- Lines that agree lie inside the range. -/
def StaysInside (oldCount newCount : Nat) (advance : Nat → Nat → Nat) : Prop :=
  ∀ x y, advance x y = 0 ∨ x + advance x y ≤ oldCount ∧ y + advance x y ≤ newCount

theorem stays_inside_forward (pair : Pair) (range : Range) :
    StaysInside range.oldCount range.newCount (advanceForward pair range) := by
  intro x y
  have hle := pair.common_start_le (range.oldStart + x) range.oldStop (range.newStart + y)
    range.newStop
  unfold advanceForward Range.oldCount Range.newCount
  omega

theorem stays_inside_back (pair : Pair) (range : Range) :
    StaysInside range.oldCount range.newCount (advanceBack pair range) := by
  intro x y
  have hle := pair.common_end_le range.oldStart (range.oldStop - x) range.newStart
    (range.newStop - y)
  unfold advanceBack Range.oldCount Range.newCount
  split_ifs <;> omega

section Sweep

variable {advance : Nat → Nat → Nat} {meets : Int → Nat → Prop} [∀ k x, Decidable (meets k x)]
  {steps : Nat}

/-- How far a walk comes on a diagonal with one more step. -/
def Reach.after (reach : Reach) (advance : Nat → Nat → Nat) (steps : Nat) (diagonal : Int) : Nat :=
  let x := reach.next steps diagonal
  x + advance x ((x : Int) - diagonal).toNat

/-- Diagonals of one step are apart from those of the next one, so a sweep may update them one after
the other: each is reached from the places before the sweep, in `start`. -/
theorem next_eq_of_same {start reach : Reach} {diagonal : Int} (hon : OnStep steps diagonal)
    (hsame : ∀ other, OnStep (steps + 1) other → reach.at? other = start.at? other) :
    reach.next steps diagonal = start.next steps diagonal := by
  unfold Reach.next
  rw [hsame _ hon.above, hsame _ hon.below]

/-- Updating a diagonal of one step keeps those of the next one. -/
theorem update_same {start reach : Reach} {diagonal : Int} {room : Nat}
    (hroom : steps + 1 ≤ room) (hholds : reach.Holds room) (hon : OnStep steps diagonal)
    (hsame : ∀ other, OnStep (steps + 1) other → reach.at? other = start.at? other) (value : Nat) :
    ∀ other, OnStep (steps + 1) other →
      (reach.update diagonal value).at? other = start.at? other := by
  intro other hother
  have hsize : diagonal.natAbs ≤ steps + 1 := Nat.le_succ_of_le hon.1
  have hne : other ≠ diagonal := by
    unfold OnStep at hon hother
    omega
  rw [Reach.update_at_other (hholds.mono hroom) hsize hother.1 hne, hsame other hother]

/-- Where a sweep meets the other walk, it went there from the places before the sweep. -/
theorem sweep_found {start reach after : Reach} {diagonals : List Int} {x y count : Nat}
    {room : Nat} (hroom : steps + 1 ≤ room) (hholds : reach.Holds room)
    (hon : ∀ diagonal ∈ diagonals, OnStep steps diagonal)
    (hsame : ∀ diagonal, OnStep (steps + 1) diagonal → reach.at? diagonal = start.at? diagonal)
    (h : sweep advance meets steps diagonals reach = (after, some (x, y, count))) :
    ∃ diagonal ∈ diagonals, x = start.next steps diagonal ∧ y = ((x : Int) - diagonal).toNat ∧
      count = advance x y ∧ meets diagonal (x + count) := by
  induction diagonals generalizing reach with
  | nil => cases h
  | cons diagonal diagonals ih =>
      have hfirst := hon diagonal List.mem_cons_self
      unfold sweep at h
      rw [next_eq_of_same hfirst hsame] at h
      dsimp only at h
      split_ifs at h with hmeets
      · cases h
        exact ⟨diagonal, List.mem_cons_self, rfl, rfl, rfl, hmeets⟩
      · obtain ⟨found, hfound, hrest⟩ :=
          ih (hholds.update diagonal _)
            (fun other hother => hon other (List.mem_cons_of_mem _ hother)) (update_same hroom hholds hfirst hsame _) h
        exact ⟨found, List.mem_cons_of_mem _ hfound, hrest⟩

/-- A sweep that does not meet the other walk reaches all its diagonals and leaves the others. -/
theorem sweep_not_found {start reach after : Reach} {diagonals : List Int}
    {room : Nat} (hroom : steps + 1 ≤ room) (hholds : reach.Holds room)
    (hon : ∀ diagonal ∈ diagonals, OnStep steps diagonal)
    (hsame : ∀ diagonal, OnStep (steps + 1) diagonal → reach.at? diagonal = start.at? diagonal)
    (h : sweep advance meets steps diagonals reach = (after, none)) :
    after.Holds room ∧
      (∀ diagonal ∈ diagonals, after.at? diagonal = start.after advance steps diagonal ∧
        ¬ meets diagonal (after.at? diagonal)) ∧
      ∀ diagonal ∉ diagonals, diagonal.natAbs ≤ steps + 1 →
        after.at? diagonal = reach.at? diagonal := by
  induction diagonals generalizing reach with
  | nil =>
      cases h
      exact ⟨hholds, fun _ h => absurd h List.not_mem_nil, fun _ _ _ => rfl⟩
  | cons diagonal diagonals ih =>
      have hfirst := hon diagonal List.mem_cons_self
      have hsize : diagonal.natAbs ≤ steps + 1 := Nat.le_succ_of_le hfirst.1
      unfold sweep at h
      rw [next_eq_of_same hfirst hsame] at h
      dsimp only at h
      split_ifs at h with hmeets
      · cases h
      obtain ⟨hafter, hmem, hnotMem⟩ :=
        ih (hholds.update diagonal _)
          (fun other hother => hon other (List.mem_cons_of_mem _ hother)) (update_same hroom hholds hfirst hsame _) h
      -- the diagonal may be listed again, but then it is reached from the same places
      have hhere : after.at? diagonal = start.after advance steps diagonal := by
        by_cases hagain : diagonal ∈ diagonals
        · exact (hmem diagonal hagain).1
        · rw [hnotMem diagonal hagain hsize, Reach.update_at_same (hholds.mono hroom) hsize]
          rfl
      refine ⟨hafter, ?_, ?_⟩
      · intro other hother
        rcases List.mem_cons.mp hother with rfl | hother
        · refine ⟨hhere, ?_⟩
          rw [hhere]
          exact hmeets
        · exact hmem other hother
      · intro other hother hotherSize
        rw [List.mem_cons, not_or] at hother
        rw [hnotMem other hother.2 hotherSize,
          Reach.update_at_other (hholds.mono hroom) hsize hotherSize hother.1]

end Sweep

/-! ## Walks and the border of the range -/

/-- How far walks of so many steps came, in a range with these numbers of lines. The places lie in
the quarter where walks can be, and one beyond a border has a neighbour at that border. -/
structure Front (oldCount newCount steps : Nat) (reach : Reach) : Prop where
  low : ∀ diagonal, OnStep steps diagonal → diagonal ≤ reach.at? diagonal
  tall : ∀ diagonal, OnStep steps diagonal → (newCount : Int) < reach.at? diagonal - diagonal →
    diagonal + 2 ≤ steps ∧ (newCount : Int) ≤ reach.at? (diagonal + 2) - (diagonal + 2)
  wide : ∀ diagonal, OnStep steps diagonal → oldCount < reach.at? diagonal →
    -steps ≤ diagonal - 2 ∧ oldCount ≤ reach.at? (diagonal - 2)

variable {oldCount newCount steps : Nat} {reach after : Reach} {advance : Nat → Nat → Nat}

/-- A walk that did not leave the range before it advanced has not done so afterwards either. -/
theorem after_le (hadvance : StaysInside oldCount newCount advance) (steps : Nat) (reach : Reach)
    {diagonal : Int}
    (hlow : diagonal ≤ reach.next steps diagonal) :
    (oldCount < reach.after advance steps diagonal →
        reach.after advance steps diagonal = reach.next steps diagonal) ∧
      ((newCount : Int) < reach.after advance steps diagonal - diagonal →
        reach.after advance steps diagonal = reach.next steps diagonal) := by
  have hcases := hadvance (reach.next steps diagonal)
    ((reach.next steps diagonal : Int) - diagonal).toNat
  unfold Reach.after
  dsimp only
  omega

/-- Before the first step nothing was reached; that step only advances. -/
theorem front_first (hadvance : StaysInside oldCount newCount advance)
    (hstart : ∀ diagonal, reach.at? diagonal = 0)
    (hafter : ∀ diagonal ∈ diagonals 0, after.at? diagonal = reach.after advance 0 diagonal) :
    Front oldCount newCount 0 after := by
  have hnext : reach.next 0 0 = 0 := by simp [Reach.next, hstart]
  have hzero : after.at? 0 = reach.after advance 0 0 :=
    hafter 0 (mem_diagonals_iff.mpr ⟨Nat.le_refl _, rfl⟩)
  have hlow : (0 : Int) ≤ reach.next 0 0 := by omega
  have hle := after_le hadvance 0 reach hlow
  rw [hnext] at hle
  refine ⟨?_, ?_, ?_⟩ <;> intro diagonal hon <;> obtain rfl : diagonal = 0 := by
    have := hon.1
    omega
  all_goals omega

section OneStep

variable (hfront : Front oldCount newCount steps reach)
  (hadvance : StaysInside oldCount newCount advance)
  (hafter : ∀ diagonal, OnStep (steps + 1) diagonal →
    after.at? diagonal = reach.after advance (steps + 1) diagonal)

theorem next_le_after (advance : Nat → Nat → Nat) (reach : Reach) (steps : Nat) (diagonal : Int) :
    reach.next steps diagonal ≤ reach.after advance steps diagonal :=
  Nat.le_add_right _ _

include hfront

/-- A step leads into the quarter where walks can be. -/
theorem Front.low_next {diagonal : Int} (hon : OnStep (steps + 1) diagonal) :
    diagonal ≤ reach.next (steps + 1) diagonal := by
  obtain ⟨hcases, -, -⟩ := Reach.next_cases reach hon
  have habove := hfront.low (diagonal + 1)
  have hbelow := hfront.low (diagonal - 1)
  unfold OnStep at *
  omega

include hadvance hafter

/-- A walk that is beyond the new lines came there by this step, so its neighbour above has come to
their end. -/
theorem Front.tall_step {diagonal : Int} (hon : OnStep (steps + 1) diagonal)
    (htall : (newCount : Int) < after.at? diagonal - diagonal) :
    diagonal + 2 ≤ (steps + 1 : Nat) ∧
      (newCount : Int) ≤ after.at? (diagonal + 2) - (diagonal + 2) := by
  rw [hafter diagonal hon] at htall
  rw [(after_le hadvance (steps + 1) reach (hfront.low_next hon)).2 htall] at htall
  obtain ⟨hcases, -, -⟩ := Reach.next_cases reach hon
  have hbelow := hfront.tall (diagonal - 1)
  rw [show diagonal - 1 + 2 = diagonal + 1 by omega] at hbelow
  -- the walk came from the diagonal above, or from below where its neighbour is the one above
  have habove : diagonal + 1 ≤ steps ∧
      (newCount : Int) ≤ reach.at? (diagonal + 1) - (diagonal + 1) := by
    unfold OnStep at *
    omega
  have honNext : OnStep (steps + 1) (diagonal + 2) := by
    unfold OnStep at *
    omega
  obtain ⟨-, -, hright⟩ := Reach.next_cases reach honNext
  rw [show diagonal + 2 - 1 = diagonal + 1 by omega] at hright
  have hle := next_le_after advance reach (steps + 1) (diagonal + 2)
  have hsize := hon.1
  rw [hafter _ honNext]
  omega

/-- A walk that is beyond the old lines came there by this step, so its neighbour below has come to
their end. -/
theorem Front.wide_step {diagonal : Int} (hon : OnStep (steps + 1) diagonal)
    (hwide : oldCount < after.at? diagonal) :
    -((steps + 1 : Nat) : Int) ≤ diagonal - 2 ∧ oldCount ≤ after.at? (diagonal - 2) := by
  rw [hafter diagonal hon] at hwide
  rw [(after_le hadvance (steps + 1) reach (hfront.low_next hon)).1 hwide] at hwide
  obtain ⟨hcases, -, -⟩ := Reach.next_cases reach hon
  have habove := hfront.wide (diagonal + 1)
  rw [show diagonal + 1 - 2 = diagonal - 1 by omega] at habove
  -- the walk came from the diagonal below, or from above where its neighbour is the one below
  have hbelow : -steps ≤ diagonal - 1 ∧ oldCount ≤ reach.at? (diagonal - 1) := by
    unfold OnStep at *
    omega
  have honNext : OnStep (steps + 1) (diagonal - 2) := by
    unfold OnStep at *
    omega
  obtain ⟨-, hleft, -⟩ := Reach.next_cases reach honNext
  rw [show diagonal - 2 + 1 = diagonal - 1 by omega] at hleft
  have hle := next_le_after advance reach (steps + 1) (diagonal - 2)
  have hsize := hon.1
  rw [hafter _ honNext]
  omega

/-- With one more step the front stays a front. -/
theorem Front.step : Front oldCount newCount (steps + 1) after where
  low := by
    intro diagonal hon
    have hnext := hfront.low_next hon
    have hle := next_le_after advance reach (steps + 1) diagonal
    rw [hafter diagonal hon]
    omega
  tall := fun _ hon => hfront.tall_step hadvance hafter hon
  wide := fun _ hon => hfront.wide_step hadvance hafter hon

end OneStep

/-- The walks on the diagonals near the last one have not come to the border. -/
def AwayFromBorder (range : Range) (steps distance : Nat) (reach : Reach) : Prop :=
  ∀ diagonal, OnStep steps diagonal → (range.lastDiagonal - diagonal).natAbs + 1 ≤ distance →
    reach.at? diagonal < range.oldCount ∧
      (reach.at? diagonal : Int) - diagonal < range.newCount

section Border

variable {range : Range} {distance : Nat} {diagonal : Int}
  (hfront : Front range.oldCount range.newCount steps reach)
  (haway : AwayFromBorder range steps distance reach)
  (hdistance : OnStep (steps + 1) range.lastDiagonal → 2 ≤ distance ∨ steps = 0)
  (hon : OnStep (steps + 1) diagonal)
  (hnear : (range.lastDiagonal - diagonal).natAbs ≤ distance)

include hfront haway hdistance hon hnear

/-- Up to the last diagonal the new lines end first; a walk on the diagonal above has not come to
their end. -/
theorem before_new_stop (hside : diagonal ≤ range.lastDiagonal) (hsize : diagonal + 1 ≤ steps) :
    (reach.at? (diagonal + 1) : Int) - (diagonal + 1) < range.newCount := by
  have honAbove : OnStep steps (diagonal + 1) := by
    unfold OnStep at *
    omega
  by_cases hclose : (range.lastDiagonal - (diagonal + 1)).natAbs + 1 ≤ distance
  · exact (haway _ honAbove hclose).2
  · -- that leaves the place before the first step, on the diagonal next to the last one
    have hwide := hfront.wide (diagonal + 1) honAbove
    unfold OnStep Range.lastDiagonal at *
    omega

/-- From the last diagonal on the old lines end first; a walk on the diagonal below has not come to
their end. -/
theorem before_old_stop (hside : range.lastDiagonal ≤ diagonal) (hsize : -steps ≤ diagonal - 1) :
    reach.at? (diagonal - 1) < range.oldCount := by
  have honBelow : OnStep steps (diagonal - 1) := by
    unfold OnStep at *
    omega
  by_cases hclose : (range.lastDiagonal - (diagonal - 1)).natAbs + 1 ≤ distance
  · exact (haway _ honBelow hclose).1
  · have htall := hfront.tall (diagonal - 1) honBelow
    unfold OnStep Range.lastDiagonal at *
    omega

/-- From a front that is away from the border near the last diagonal, the next step stays in the
range a little further off. -/
theorem next_in_range :
    reach.next (steps + 1) diagonal ≤ range.oldCount ∧
      (reach.next (steps + 1) diagonal : Int) - diagonal ≤ range.newCount := by
  obtain ⟨hcases, -, -⟩ := Reach.next_cases reach hon
  have hnew := before_new_stop hfront haway hdistance hon hnear
  have hold := before_old_stop hfront haway hdistance hon hnear
  have htall := hfront.tall (diagonal - 1)
  have hwide := hfront.wide (diagonal + 1)
  rw [show diagonal - 1 + 2 = diagonal + 1 by omega] at htall
  rw [show diagonal + 1 - 2 = diagonal - 1 by omega] at hwide
  unfold OnStep Range.lastDiagonal at *
  rcases hcases with ⟨hsize, hnext⟩ | ⟨hsize, hnext⟩ | ⟨hzero, -⟩
  · rw [hnext]
    omega
  · rw [hnext]
    omega
  · omega

end Border

/-! ## Meeting -/

variable {range : Range}

/-- How far both walks came in so many steps without meeting. The walk from the start is looked at
when the last diagonal is odd, and the one from the end when it is even. -/
structure Walks (range : Range) (steps : Nat) (forth back : Reach) : Prop where
  forth_front : Front range.oldCount range.newCount steps forth
  back_front : Front range.oldCount range.newCount steps back
  forth_away : range.lastDiagonal % 2 ≠ 0 → AwayFromBorder range steps steps forth
  back_away : range.lastDiagonal % 2 = 0 → AwayFromBorder range steps (steps + 1) back

/-- A walk that has not met the other one near the last diagonal is away from the border there: the
other one has come some way along the same diagonal. -/
theorem away_of_apart {otherSteps distance : Nat} {other : Reach}
    (hother : Front range.oldCount range.newCount otherSteps other)
    (hapart : ∀ diagonal, OnStep steps diagonal →
      (range.lastDiagonal - diagonal).natAbs + 1 ≤ distance →
      OnStep otherSteps (range.lastDiagonal - diagonal) ∧
        reach.at? diagonal + other.at? (range.lastDiagonal - diagonal) < range.oldCount) :
    AwayFromBorder range steps distance reach := by
  intro diagonal hon hnear
  obtain ⟨honOther, hsum⟩ := hapart diagonal hon hnear
  have hlow := hother.low _ honOther
  unfold Range.lastDiagonal at hlow hsum
  omega

/-- The point lies in the range. -/
def Range.Holds (range : Range) (point : Nat × Nat) : Prop :=
  range.oldStart ≤ point.1 ∧ point.1 ≤ range.oldStop ∧
    range.newStart ≤ point.2 ∧ point.2 ≤ range.newStop

/-- Before a number of steps: nothing was reached before the first one, and walks that have not met
were taken before another one. -/
def WalksBefore (range : Range) (steps : Nat) (forth back : Reach) : Prop :=
  match steps with
  | 0 => (∀ diagonal, forth.at? diagonal = 0) ∧ ∀ diagonal, back.at? diagonal = 0
  | steps + 1 => Walks range steps forth back

variable {forth back : Reach}

theorem WalksBefore.front_forth (h : WalksBefore range steps forth back)
    (hadvance : StaysInside range.oldCount range.newCount advance)
    (hafter : ∀ diagonal ∈ diagonals steps,
      after.at? diagonal = forth.after advance steps diagonal) :
    Front range.oldCount range.newCount steps after := by
  cases steps with
  | zero => exact front_first hadvance h.1 hafter
  | succ steps =>
      exact h.forth_front.step hadvance fun diagonal hon =>
        hafter diagonal (mem_diagonals_iff.mpr hon)

theorem WalksBefore.front_back (h : WalksBefore range steps forth back)
    (hadvance : StaysInside range.oldCount range.newCount advance)
    (hafter : ∀ diagonal ∈ diagonals steps,
      after.at? diagonal = back.after advance steps diagonal) :
    Front range.oldCount range.newCount steps after := by
  cases steps with
  | zero => exact front_first hadvance h.2 hafter
  | succ steps =>
      exact h.back_front.step hadvance fun diagonal hon =>
        hafter diagonal (mem_diagonals_iff.mpr hon)

/-- A walk that does not meet the one from the end stays away from the border. -/
theorem forth_away_of_not_met (h : WalksBefore range steps forth back)
    (hnotMet : ∀ diagonal ∈ diagonals steps,
      ¬ MeetsForward range steps back diagonal (after.at? diagonal))
    (hodd : range.lastDiagonal % 2 ≠ 0) : AwayFromBorder range steps steps after := by
  cases steps with
  | zero => exact fun diagonal _ hnear => absurd hnear (Nat.not_succ_le_zero _)
  | succ steps =>
      apply away_of_apart h.back_front
      intro diagonal hon hnear
      have hapart := hnotMet diagonal (mem_diagonals_iff.mpr hon)
      unfold OnStep at *
      refine ⟨by omega, ?_⟩
      exact Nat.lt_of_not_le fun hle => hapart ⟨hodd, hnear, hle⟩

/-- A walk from the end that does not meet the one from the start stays away from the border. -/
theorem back_away_of_not_met (hforth : Front range.oldCount range.newCount steps forth)
    (hnotMet : ∀ diagonal ∈ diagonals steps,
      ¬ MeetsBack range steps forth diagonal (after.at? diagonal))
    (heven : range.lastDiagonal % 2 = 0) : AwayFromBorder range steps (steps + 1) after := by
  apply away_of_apart hforth
  intro diagonal hon hnear
  have hapart := hnotMet diagonal (mem_diagonals_iff.mpr hon)
  have hsize : (range.lastDiagonal - diagonal).natAbs ≤ steps := Nat.le_of_succ_le_succ hnear
  unfold OnStep at *
  refine ⟨by omega, ?_⟩
  exact Nat.lt_of_not_le fun hle => hapart ⟨heven, hsize, hle⟩

/-- Where the walk from the start meets the other one, it is in the range. -/
theorem met_forward_in_range (h : WalksBefore range steps forth back) {diagonal : Int}
    {reached : Nat} (hon : OnStep steps diagonal)
    (hmeets : MeetsForward range steps back diagonal reached) :
    forth.next steps diagonal ≤ range.oldCount ∧
      (forth.next steps diagonal : Int) - diagonal ≤ range.newCount := by
  obtain ⟨hodd, hnear, -⟩ := hmeets
  cases steps with
  | zero => exact absurd hnear (Nat.not_succ_le_zero _)
  | succ steps =>
      refine next_in_range h.forth_front (h.forth_away hodd) ?_ hon (Nat.le_of_succ_le_succ hnear)
      intro hlast
      unfold OnStep at hlast
      omega

/-- Where the walk from the end meets the other one, it is in the range. -/
theorem met_back_in_range (h : WalksBefore range steps forth back) {diagonal : Int}
    {reached : Nat} (hon : OnStep steps diagonal)
    (hmeets : MeetsBack range steps after diagonal reached) :
    back.next steps diagonal ≤ range.oldCount ∧
      (back.next steps diagonal : Int) - diagonal ≤ range.newCount := by
  obtain ⟨heven, hnear, -⟩ := hmeets
  cases steps with
  | zero =>
      obtain rfl : diagonal = 0 := by
        have := hon.1
        omega
      simp [Reach.next, h.2]
  | succ steps =>
      refine next_in_range h.back_front (h.back_away heven) ?_ hon hnear
      intro hlast
      unfold OnStep at hlast
      omega

/-- The point at which the walk from the start meets the other one. -/
theorem forward_point_in_range (hold : range.oldStart ≤ range.oldStop)
    (hnew : range.newStart ≤ range.newStop) (h : WalksBefore range steps forth back)
    {diagonal : Int} {reached : Nat} (hon : OnStep steps diagonal)
    (hmeets : MeetsForward range steps back diagonal reached) :
    range.Holds (range.oldStart + forth.next steps diagonal,
      range.newStart + ((forth.next steps diagonal : Int) - diagonal).toNat) := by
  have hrange := met_forward_in_range h hon hmeets
  unfold Range.Holds
  unfold Range.oldCount Range.newCount at hrange
  dsimp only
  omega

/-- The point at which the walk from the end meets the other one lies in front of the equal lines that
were just found. -/
theorem back_point_in_range (pair : Pair) (hold : range.oldStart ≤ range.oldStop)
    (hnew : range.newStart ≤ range.newStop) (h : WalksBefore range steps forth back)
    {diagonal : Int} {reached : Nat} (hon : OnStep steps diagonal)
    (hmeets : MeetsBack range steps after diagonal reached) :
    let x := back.next steps diagonal
    let y := ((x : Int) - diagonal).toNat
    let count := advanceBack pair range x y
    range.Holds (range.oldStop - (x + count), range.newStop - (y + count)) := by
  have hrange := met_back_in_range h hon hmeets
  have hcount := stays_inside_back pair range (back.next steps diagonal)
    ((back.next steps diagonal : Int) - diagonal).toNat
  unfold Range.Holds
  unfold Range.oldCount Range.newCount at *
  dsimp only
  omega

/-- Walks that go one step on and do not meet stay away from the border. -/
theorem WalksBefore.step {pair : Pair} {forthAfter backAfter : Reach}
    (h : WalksBefore range steps forth back)
    (hforth : ∀ diagonal ∈ diagonals steps,
      forthAfter.at? diagonal = forth.after (advanceForward pair range) steps diagonal ∧
        ¬ MeetsForward range steps back diagonal (forthAfter.at? diagonal))
    (hback : ∀ diagonal ∈ diagonals steps,
      backAfter.at? diagonal = back.after (advanceBack pair range) steps diagonal ∧
        ¬ MeetsBack range steps forthAfter diagonal (backAfter.at? diagonal)) :
    Walks range steps forthAfter backAfter := by
  have hfront := h.front_forth (stays_inside_forward pair range) fun diagonal hmem =>
    (hforth diagonal hmem).1
  exact {
    forth_front := hfront
    back_front := h.front_back (stays_inside_back pair range) fun diagonal hmem =>
      (hback diagonal hmem).1
    forth_away := forth_away_of_not_met h fun diagonal hmem => (hforth diagonal hmem).2
    back_away := back_away_of_not_met hfront fun diagonal hmem => (hback diagonal hmem).2 }

/-- The induction is on the bound, which counts the steps that are left: as long as the walks have
not met, they are away from the border, so they are in the range where they meet. -/
theorem meeting_in_range_from {pair : Pair} {bound : Nat} {point : Nat × Nat}
    (hold : range.oldStart ≤ range.oldStop) (hnew : range.newStart ≤ range.newStop)
    (hwalks : WalksBefore range steps forth back) (hforth : forth.Holds (steps + bound))
    (hback : back.Holds (steps + bound))
    (h : meeting? pair range bound steps forth back = some point) : range.Holds point := by
  induction bound generalizing steps forth back with
  | zero => cases h
  | succ bound ih =>
      have hroom : steps + 1 ≤ steps + (bound + 1) := by omega
      have hon : ∀ diagonal ∈ diagonals steps, OnStep steps diagonal :=
        fun _ h => mem_diagonals_iff.mp h
      unfold meeting? at h
      rw [go_forward_eq_sweep] at h
      rcases hsweep : sweep (advanceForward pair range) (MeetsForward range steps back) steps
        (diagonals steps) forth with ⟨forthAfter, _ | ⟨x, y, count⟩⟩
      · -- the walk from the start has not met the other one, which goes on
        rw [hsweep] at h
        obtain ⟨hforth', hforthAfter, -⟩ := sweep_not_found hroom hforth hon (fun _ _ => rfl) hsweep
        simp only [Option.map_none, go_back_eq_sweep] at h
        rcases hsweepBack : sweep (advanceBack pair range) (MeetsBack range steps forthAfter) steps
          (diagonals steps) back with ⟨backAfter, _ | ⟨x, y, count⟩⟩
        · rw [hsweepBack] at h
          obtain ⟨hback', hbackAfter, -⟩ :=
            sweep_not_found hroom hback hon (fun _ _ => rfl) hsweepBack
          have hnext : WalksBefore range (steps + 1) forthAfter backAfter :=
            hwalks.step hforthAfter hbackAfter
          rw [show steps + (bound + 1) = steps + 1 + bound by omega] at hforth' hback'
          exact ih hnext hforth' hback' h
        · rw [hsweepBack] at h
          obtain ⟨diagonal, hmem, rfl, rfl, rfl, hmeets⟩ :=
            sweep_found hroom hback hon (fun _ _ => rfl) hsweepBack
          cases h
          exact back_point_in_range pair hold hnew hwalks (hon diagonal hmem) hmeets
      · rw [hsweep] at h
        obtain ⟨diagonal, hmem, rfl, rfl, rfl, hmeets⟩ :=
          sweep_found hroom hforth hon (fun _ _ => rfl) hsweep
        cases h
        exact forward_point_in_range hold hnew hwalks (hon diagonal hmem) hmeets

/-- The walks from both ends of a range meet inside of it. -/
theorem meeting_in_range {pair : Pair} {point : Nat × Nat}
    (hold : range.oldStart ≤ range.oldStop) (hnew : range.newStart ≤ range.newStop)
    (h : meeting? pair range range.stepBound 0 (.start range.stepBound) (.start range.stepBound) =
      some point) : range.Holds point := by
  have hholds : (Reach.start range.stepBound).Holds (0 + range.stepBound) :=
    Reach.holds_start (by omega)
  have hwalks : WalksBefore range 0 (.start range.stepBound) (.start range.stepBound) :=
    ⟨Reach.start_at _, Reach.start_at _⟩
  exact meeting_in_range_from hold hnew hwalks hholds hholds h

end TemplateBundle.Diff

import TemplateBundle.Proofs.Regex.Surroundings

/-!
# The parts of patterns within a longer text

Escapes, sets in brackets, repetitions and the openings of groups do not depend on what stands
behind the pattern that they are part of. Those that look at more of the text than they take off
are followed by what they look for, none of which goes on behind a closing parenthesis.
-/

namespace TemplateBundle.Regex

open Read

variable {around : Surroundings}

/-! ## Escapes -/

theorem contained_without (flags : Flags) (members : CharSet) :
    (CharSet.without flags members).Contained around :=
  contained_ite (contained_pure _) contained_failure

theorem contained_readDecimal : readDecimal?.Contained around := by
  refine contained_bind contained_dropWhite fun _ => ?_
  refine contained_bind (contained_takeAll Char.isDigit) fun digits => ?_
  refine contained_bind contained_dropWhite fun _ => contained_bind contained_skip fun _ => ?_
  exact contained_ite (contained_pure _) (contained_ite (contained_pure _) contained_failure)

theorem contained_readHexDigits (count : Nat) : (readHexDigits count).Contained around := by
  induction count with
  | zero => exact contained_pure []
  | succ count ih =>
      refine contained_bind contained_peek fun c => contained_ite ?_ contained_failure
      exact contained_bind contained_step fun _ => contained_bind ih fun _ => contained_pure _

theorem contained_readBracedHex : readBracedHex.Contained around := by
  refine contained_bind (contained_takeAll _) fun digits => ?_
  refine contained_bind contained_peek fun c => contained_ite ?_ contained_failure
  exact contained_bind contained_step fun _ => contained_pure digits

/-- What a code stands for. -/
theorem contained_charOfCode (code : Nat) :
    (match charOfCode? code with
      | some c => pure (.literal c)
      | none => failure : Read Atom).Contained around := by
  cases charOfCode? code with
  | some c => exact contained_pure _
  | none => exact contained_failure

theorem contained_readCharCode (digits : Nat) : (readCharCode digits).Contained around := by
  refine contained_bind contained_peek fun c => contained_ite ?_ ?_
  · refine contained_bind contained_step fun _ => contained_bind contained_readBracedHex fun _ => ?_
    exact contained_ite contained_failure (contained_charOfCode _)
  · refine contained_bind (contained_readHexDigits digits) fun _ => ?_
    refine contained_bind contained_flags fun _ => ?_
    exact contained_ite contained_failure (contained_charOfCode _)

/-- What the text of a property stands for. -/
theorem contained_propertyOf (negated : Bool) (written : List Char) :
    (do
      let flags ← Read.flags
      match propertyOf? written with
      | some property =>
          if flags.unicode then
            let members := CharSet.withVariants flags (.property property)
            pure (.set (if negated then .complement members else members))
          else failure
      | none => failure : Read Atom).Contained around := by
  refine contained_bind contained_flags fun flags => ?_
  cases propertyOf? written with
  | some property => exact contained_ite (contained_pure _) contained_failure
  | none => exact contained_failure

theorem contained_readProperty (negated : Bool) : (readProperty negated).Contained around := by
  refine contained_bind contained_peek fun c => ?_
  refine contained_ite ?_ (contained_ite ?_ ?_)
  · refine contained_bind contained_step fun _ => contained_bind (contained_takeAll _) fun _ => ?_
    refine contained_bind contained_peek fun _ => contained_bind contained_advance fun _ => ?_
    exact contained_bind (contained_pure _) (contained_propertyOf negated)
  · exact contained_bind contained_failure (contained_propertyOf negated)
  · refine contained_bind contained_step fun _ => ?_
    exact contained_bind (contained_pure _) (contained_propertyOf negated)

theorem contained_readLetterSet (members : Bool → CharSet) (negated : Bool) :
    (readLetterSet members negated).Contained around := by
  refine contained_bind contained_flags fun flags => contained_ite ?_ (contained_pure _)
  exact contained_bind (contained_without flags _) fun _ => contained_pure _

/-- A brace behind `\b` opens a name if a letter follows it; otherwise the reader goes back. -/
theorem contained_readBoundaryName : readBoundaryName?.Contained around := by
  refine contained_stepOrBack none ?_
  refine contained_bind (contained_takeAll _) fun name => ?_
  refine contained_bind contained_peek fun c => contained_ite ?_ contained_failure
  exact contained_bind contained_advance fun _ => contained_pure _

theorem contained_readBoundary : readBoundary.Contained around := by
  refine contained_bind contained_flags fun flags => ?_
  refine contained_ite_next (by decide) ?_ (contained_pure _)
  refine contained_bind contained_readBoundaryName fun name => ?_
  split
  all_goals first | exact contained_pure _ | exact contained_failure

theorem contained_readEscape : readEscape.Contained around := by
  refine contained_bind contained_peek fun c => ?_
  split
  case h_1 | h_2 | h_3 => exact contained_bind contained_step fun _ => contained_readCharCode _
  case h_4 | h_5 => exact contained_bind contained_step fun _ => contained_readProperty _
  case h_6 | h_7 | h_8 | h_9 | h_10 | h_11 =>
    exact contained_bind contained_advance fun _ => contained_readLetterSet _ _
  case h_12 =>
    refine contained_bind contained_advance fun _ => contained_bind contained_flags fun flags => ?_
    refine contained_ite (contained_pure _) ?_
    split
    all_goals first
      | exact contained_pure _
      | exact contained_failure
      | exact contained_readBoundary

/-! ## Sets in brackets -/

theorem contained_readMember : readMember.Contained around := by
  refine contained_bind contained_peek fun c => contained_bind contained_advance fun _ => ?_
  exact contained_ite contained_readEscape (contained_pure _)

theorem contained_bracketChar (c : Char) : (bracketChar c).Contained around :=
  contained_bind contained_flags fun _ => contained_ite (contained_pure c) contained_failure

theorem run_peekSecond (reading : Reading) :
    peekSecond?.run reading =
      some ((skipped reading.flags reading.rest.tail).head?, reading) := by
  refine run_bind_some.mpr ⟨reading, reading, rfl, ?_⟩
  exact run_bind_some.mpr ⟨(), _, run_step reading, rfl⟩

/-- A hyphen comes next that is not the last member of a set and no operator. -/
def Reading.OpensRange (reading : Reading) : Prop :=
  let second := (skipped reading.flags reading.rest.tail).head?
  reading.rest.head? = some '-' ∧ second ≠ some ']' ∧ second ≠ some '-'

/-- Behind the first member of a range or of none. -/
def rangeOr (single range : Read CharSet) : Read CharSet := do
  let c ← peek
  let second ← peekSecond?
  if c ≠ '-' ∨ second = some ']' ∨ second = some '-' then single
  else
    step
    let _ ← peek
    range

theorem run_rangeOr {single range : Read CharSet} {reading after : Reading} {found : CharSet} :
    (rangeOr single range).run reading = some (found, after) ↔ reading.rest ≠ [] ∧
      ((reading.OpensRange ∧ (do
          step
          let _ ← peek
          range : Read CharSet).run reading = some (found, after)) ∨
        (¬reading.OpensRange ∧ single.run reading = some (found, after))) := by
  let second := (skipped reading.flags reading.rest.tail).head?
  -- what the reader asks for is that no range opens
  have hchoice : ∀ c : Char, reading.rest.head? = some c →
      ((c ≠ '-' ∨ second = some ']' ∨ second = some '-') ↔ ¬reading.OpensRange) := by
    intro c hc
    show _ ↔ ¬(reading.rest.head? = some '-' ∧ second ≠ some ']' ∧ second ≠ some '-')
    rw [hc, Option.some.injEq]
    simp only [ne_eq, Decidable.not_and_iff_not_or_not, Decidable.not_not]
  unfold rangeOr
  rw [run_peek_bind]
  constructor
  · rintro ⟨c, hc, hrun⟩
    refine ⟨fun hnil => (by rw [hnil] at hc; cases hc), ?_⟩
    obtain ⟨_, _, hsecond, hrun⟩ := run_bind_some.mp hrun
    rw [run_peekSecond] at hsecond
    cases hsecond
    by_cases hopens : reading.OpensRange
    · rw [if_neg fun h => (hchoice c hc).mp h hopens] at hrun
      exact .inl ⟨hopens, hrun⟩
    · rw [if_pos ((hchoice c hc).mpr hopens)] at hrun
      exact .inr ⟨hopens, hrun⟩
  · rintro ⟨hrest, hrun⟩
    obtain ⟨c, others, hcons⟩ := List.exists_cons_of_ne_nil hrest
    have hc : reading.rest.head? = some c := by rw [hcons]; rfl
    refine ⟨c, hc, run_bind_some.mpr ⟨second, reading, run_peekSecond reading, ?_⟩⟩
    obtain ⟨hopens, hrun⟩ | ⟨hopens, hrun⟩ := hrun
    · rw [if_neg fun h => (hchoice c hc).mp h hopens]
      exact hrun
    · rw [if_pos ((hchoice c hc).mpr hopens)]
      exact hrun

/-- As long as the closing parenthesis is not passed over, the surroundings do not decide whether a
range is opened. -/
theorem opensRange_iff {ahead : List Char} {reading other : Reading}
    (hbeside : reading.Beside around ahead other)
    (hrest : reading.rest.head? = some '-' → skipped reading.flags reading.rest.tail ≠ []) :
    reading.OpensRange ↔ other.OpensRange := by
  have hhead := head_iff hbeside (show '-' ≠ ')' by decide)
  by_cases hhyphen : reading.rest.head? = some '-'
  · obtain ⟨moved, -, hbetween⟩ := hbeside.step (hrest hhyphen)
    exact and_congr hhead (and_congr (not_congr (head_iff hbetween (by decide)))
      (not_congr (head_iff hbetween (by decide))))
  · exact iff_of_false (fun h => hhyphen h.1) fun h => hhyphen (hhead.mpr h.1)

theorem contained_rangeOr {single range : Read CharSet} (hsingle : single.Contained around)
    (hrange : range.Contained around) : (rangeOr single range).Contained around := by
  have hstep : (do
      step
      let _ ← peek
      range : Read CharSet).Contained around :=
    contained_bind contained_step fun _ => contained_bind contained_peek fun _ => hrange
  constructor
  case advances =>
    intro reading found after hrun hinside
    obtain ⟨-, ⟨-, hrun⟩ | ⟨-, hrun⟩⟩ := run_rangeOr.mp hrun
    · exact hstep.advances _ _ _ hrun hinside
    · exact hsingle.advances _ _ _ hrun hinside
  case follows =>
    intro ahead reading other found after found' after' hbeside hrun hinside hrun'
    obtain ⟨-, hrun⟩ := run_rangeOr.mp hrun
    obtain ⟨-, hrun'⟩ := run_rangeOr.mp hrun'
    have hiff : reading.OpensRange ↔ other.OpensRange := by
      refine opensRange_iff hbeside fun hhyphen hnil => ?_
      obtain ⟨-, hrun⟩ | ⟨hopens, -⟩ := hrun
      · -- Behind the hyphen nothing is left to look at.
        obtain ⟨_, middle, hmiddle, hrun⟩ := run_bind_some.mp hrun
        rw [run_step, hnil] at hmiddle
        cases hmiddle
        obtain ⟨c, hc, -⟩ := run_peek_bind.mp hrun
        cases hc
      · refine hopens ⟨hhyphen, ?_, ?_⟩
        all_goals
          rw [hnil]
          exact nofun
    obtain ⟨hopens, hrun⟩ | ⟨hopens, hrun⟩ := hrun
    · obtain ⟨-, hrun'⟩ | ⟨hopens', -⟩ := hrun'
      · exact hstep.follows ahead _ _ _ _ _ _ hbeside hrun hinside hrun'
      · exact absurd (hiff.mp hopens) hopens'
    · obtain ⟨hopens', -⟩ | ⟨-, hrun'⟩ := hrun'
      · exact absurd (hiff.mpr hopens') hopens
      · exact hsingle.follows ahead _ _ _ _ _ _ hbeside hrun hinside hrun'

theorem contained_readRange : readRange.Contained around := by
  refine contained_bind contained_readMember fun first => contained_bind contained_skip fun _ => ?_
  refine contained_rangeOr ?_ (contained_bind contained_readMember fun last => ?_)
  · cases first with
    | literal c => exact contained_bind (contained_bracketChar c) fun _ => contained_pure _
    | set members => exact contained_pure members
    | look assertion => exact contained_failure
  · split
    · refine contained_ite ?_ contained_failure
      refine contained_bind (contained_bracketChar _) fun _ => ?_
      exact contained_bind (contained_bracketChar _) fun _ => contained_pure _
    · exact contained_failure

theorem advances_leadingHyphens (bound : Nat) : (readLeadingHyphens bound).Advances around := by
  induction bound with
  | zero => exact (contained_pure []).advances
  | succ bound ih =>
      refine advances_bind contained_peek.advances fun c => ?_
      split
      · refine advances_bind contained_step.advances fun _ => advances_bind ih fun _ => ?_
        exact (contained_pure _).advances
      · exact (contained_pure []).advances

theorem leadingHyphens_next {reading after : Reading} {bound : Nat} {found : List CharSet}
    (hhead : reading.rest.head? = some '-')
    (hrun : (readLeadingHyphens (bound + 1)).run reading = some (found, after)) :
    ∃ taken, found = .single '-' :: taken ∧ (readLeadingHyphens bound).run
      { reading with rest := skipped reading.flags reading.rest.tail } = some (taken, after) := by
  obtain ⟨c, hc, hrun⟩ := run_peek_bind.mp hrun
  rw [hhead] at hc
  cases hc
  rw [if_pos rfl] at hrun
  obtain ⟨_, middle, hstep, hrun⟩ := run_bind_some.mp hrun
  rw [run_step] at hstep
  cases hstep
  obtain ⟨taken, final, htaken, hsame⟩ := run_bind_some.mp hrun
  cases hsame
  exact ⟨taken, rfl, htaken⟩

theorem leadingHyphens_stop {reading after : Reading} {bound : Nat} {found : List CharSet}
    (hhead : reading.rest.head? ≠ some '-')
    (hrun : (readLeadingHyphens bound).run reading = some (found, after)) :
    found = [] ∧ after = reading := by
  cases bound with
  | zero =>
      cases hrun
      exact ⟨rfl, rfl⟩
  | succ bound =>
      obtain ⟨c, hc, hrun⟩ := run_peek_bind.mp hrun
      have hne : c ≠ '-' := fun h => hhead (h ▸ hc)
      rw [if_neg hne] at hrun
      cases hrun
      exact ⟨rfl, rfl⟩

/-- The induction is on the first bound: behind a hyphen that both take less of the text lies
ahead. -/
theorem follows_leadingHyphens {ahead : List Char} {bound bound' : Nat}
    (hbound : ahead.length < bound) (hbound' : ahead.length ≤ bound') :
    Follows around Eq ahead (readLeadingHyphens bound) (readLeadingHyphens bound') := by
  induction bound generalizing ahead bound' with
  | zero => exact absurd hbound (Nat.not_lt_zero _)
  | succ bound ih =>
      intro reading other found after found' after' hbeside hrun hinside hrun'
      have hiff := head_iff (c := '-') hbeside (by decide)
      by_cases hhyphen : reading.rest.head? = some '-'
      · obtain ⟨taken, rfl, htaken⟩ := leadingHyphens_next hhyphen hrun
        have hbetween := advances_leadingHyphens bound _ _ _ htaken hinside
        obtain ⟨moved, hshorter, hnext⟩ := hbeside.step hbetween.1
        have hmoved := Nat.lt_of_lt_of_le hshorter hbound'
        obtain ⟨bound', rfl⟩ := Nat.exists_eq_add_one.mpr (Nat.zero_lt_of_lt hmoved)
        obtain ⟨taken', rfl, htaken'⟩ := leadingHyphens_next (hiff.mp hhyphen) hrun'
        obtain ⟨rfl, hleft⟩ := ih (Nat.lt_of_lt_of_le hshorter (Nat.le_of_lt_succ hbound))
          (Nat.le_of_lt_succ hmoved) _ _ _ _ _ _ hnext htaken hinside htaken'
        exact ⟨rfl, hleft⟩
      · obtain ⟨rfl, rfl⟩ := leadingHyphens_stop hhyphen hrun
        obtain ⟨rfl, rfl⟩ := leadingHyphens_stop ((not_congr hiff).mp hhyphen) hrun'
        exact ⟨rfl, ahead, hbeside⟩

/-- The hyphens at the front, as many as there may be. -/
theorem contained_leadingHyphens :
    (do readLeadingHyphens (← rest).length : Read (List CharSet)).Contained around := by
  refine ⟨advances_rest fun reading => advances_leadingHyphens _ reading, fun ahead => ?_⟩
  refine follows_rest (follows_leadingHyphens ?_ ?_)
  · rw [List.length_append]
    exact Nat.lt_succ_self _
  · rw [List.length_append]
    exact Nat.le_add_right _ _

theorem contained_readOpening : readOpening.Contained around := by
  have hhyphens : ∀ negated : Bool, (do
      let hyphens ← readLeadingHyphens (← rest).length
      if hyphens.isEmpty && (← peek) = ']' then
        step
        pure (negated, [.single ']'])
      else pure (negated, hyphens) : Read (Bool × List CharSet)).Contained around := by
    intro negated
    rw [← bind_assoc]
    refine contained_bind contained_leadingHyphens fun hyphens => ?_
    refine contained_bind contained_peek fun c => contained_ite ?_ (contained_pure _)
    exact contained_bind contained_step fun _ => contained_pure _
  refine contained_bind contained_step fun _ => contained_bind contained_peek fun c => ?_
  refine contained_ite ?_ (hhyphens _)
  exact contained_bind contained_step fun _ => hhyphens _

/-- A mark is found at the same place whatever stands behind. -/
theorem splitAt_append {mark : Char} {text behind before after : List Char}
    (h : splitAt? [mark] text = some (before, after)) :
    splitAt? [mark] (text ++ behind) = some (before, after ++ behind) := by
  induction text generalizing before with
  | nil => cases h
  | cons c text ih =>
      simp only [splitAt?, List.cons_append] at h ⊢
      have hstart : ∀ others : List Char, [mark].isPrefixOf (c :: others) = (mark == c) := by
        intro others
        simp only [List.isPrefixOf, Bool.and_true]
      rw [hstart] at h ⊢
      by_cases hmark : (mark == c) = true
      · rw [if_pos hmark] at h ⊢
        cases h
        rfl
      · rw [if_neg hmark] at h ⊢
        obtain ⟨⟨first, rest⟩, hsplit, hsame⟩ := Option.map_eq_some_iff.mp h
        cases hsame
        rw [ih hsplit]
        rfl

/-- A mark that does not stand in the text may be found behind it. -/
theorem splitAt_append_none {mark : Char} {text behind : List Char}
    (h : splitAt? [mark] text = none) :
    splitAt? [mark] (text ++ behind) =
      (splitAt? [mark] behind).map fun (before, after) => (text ++ before, after) := by
  induction text with
  | nil =>
      show splitAt? [mark] behind = _
      cases splitAt? [mark] behind <;> rfl
  | cons c text ih =>
      simp only [List.cons_append, splitAt?, List.isPrefixOf, Bool.and_true] at h ⊢
      by_cases hc : (mark == c) = true
      · rw [if_pos hc] at h
        cases h
      · rw [if_neg hc] at h ⊢
        rw [ih (Option.map_eq_none_iff.mp h), Option.map_map]
        rfl

/-- Nothing is found in a closing parenthesis or at the end. -/
theorem splitAt_closing {mark : Char} (hmark : mark ≠ ')') (behind : List Char) :
    splitAt? [mark] (')' :: behind) =
      (splitAt? [mark] behind).map fun (before, after) => (')' :: before, after) := by
  have hdiffers : [mark].isPrefixOf (')' :: behind) = false := by
    simp only [List.isPrefixOf, Bool.and_true]
    exact beq_false_of_ne hmark
  show (if [mark].isPrefixOf (')' :: behind) then _ else _) = _
  rw [hdiffers]
  rfl

theorem closing_not_mem_of_asciiClass {name : List Char} {members : CharSet}
    (h : asciiClass? (String.ofList name) = some members) : ')' ∉ name := by
  have hname : ∀ text : String, String.ofList name = text → ')' ∉ text.toList → ')' ∉ name := by
    rintro text rfl hnot
    rwa [String.toList_ofList] at hnot
  unfold asciiClass? at h
  split at h
  all_goals first
    | (rename_i hsame; exact hname _ hsame (by decide))
    | cases h

/-- The named set of ASCII, behind its name and the colon there. -/
def closeClass? (negated : Bool) (name : List Char) :
    List Char → Option (Bool × CharSet × List Char)
  | ']' :: rest =>
      (asciiClass? (String.ofList name)).map fun members => (negated, members, rest)
  | _ => none

/-- The named set of ASCII whose name comes next. -/
def namedClass? (negated : Bool) (text : List Char) : Option (Bool × CharSet × List Char) :=
  (splitAt? [':'] text).bind fun (name, rest) => closeClass? negated name rest

theorem namedClass_eq (negated : Bool) (text : List Char) :
    namedClass? negated text =
      match splitAt? [':'] text with
      | some (name, ']' :: rest) =>
          (asciiClass? (String.ofList name)).map fun members => (negated, members, rest)
      | _ => none := by
  unfold namedClass? closeClass?
  cases splitAt? [':'] text with
  | none => rfl
  | some split =>
      obtain ⟨name, rest⟩ := split
      simp only [Option.bind_some]
      split <;> simp_all

theorem asciiClassAt_negated (rest : List Char) :
    asciiClassAt? ('[' :: ':' :: '^' :: rest) = namedClass? true rest :=
  (namedClass_eq true rest).symm

theorem asciiClassAt_plain {rest : List Char} (h : rest.head? ≠ some '^') :
    asciiClassAt? ('[' :: ':' :: rest) = namedClass? false rest := by
  rw [namedClass_eq]
  unfold asciiClassAt?
  split
  · next after hsame =>
      obtain rfl : rest = after := by simpa using hsame
      split
      next negated text hcaret =>
        split at hcaret
        · exact absurd rfl h
        · cases hcaret
          rfl
  · next hother => exact absurd rfl (hother rest)

theorem asciiClassAt_other {text : List Char} (h : ¬['[', ':'] <+: text) :
    asciiClassAt? text = none := by
  unfold asciiClassAt?
  split
  · next rest => exact absurd ⟨rest, rfl⟩ h
  · rfl

theorem closeClass_append {negated : Bool} {name rest behind : List Char}
    (hbehind : Closes behind) :
    closeClass? negated name (rest ++ behind) = (closeClass? negated name rest).map
      fun (negated, members, rest) => (negated, members, rest ++ behind) := by
  by_cases hcloses : rest.head? = some ']'
  · obtain ⟨others, rfl⟩ := List.head?_eq_some_iff.mp hcloses
    show (asciiClass? (String.ofList name)).map _ = ((asciiClass? (String.ofList name)).map _).map _
    rw [Option.map_map]
    rfl
  · have hnone : ∀ text : List Char, text.head? ≠ some ']' →
        closeClass? negated name text = none := by
      intro text htext
      unfold closeClass?
      split
      · exact absurd rfl htext
      · rfl
    rw [hnone rest hcloses, hnone (rest ++ behind)]
    · rfl
    · cases rest with
      | cons c rest => exact hcloses
      | nil => exact fun h => absurd (hbehind ']' h) (by decide)

theorem namedClass_append {negated : Bool} {text behind : List Char}
    (hbehind : Closes behind) :
    namedClass? negated (text ++ behind) = (namedClass? negated text).map
      fun (negated, members, rest) => (negated, members, rest ++ behind) := by
  unfold namedClass?
  cases hsplit : splitAt? [':'] text with
  | some split =>
      obtain ⟨name, rest⟩ := split
      rw [splitAt_append hsplit]
      exact closeClass_append hbehind
  | none =>
      cases hbeyond : splitAt? [':'] (text ++ behind) with
      | none => rfl
      | some split =>
          obtain ⟨name, rest⟩ := split
          cases behind with
          | nil =>
              rw [List.append_nil, hsplit] at hbeyond
              cases hbeyond
          | cons c behind =>
              -- A name that goes on behind the closing parenthesis is not that of a set.
              obtain rfl : c = ')' := hbehind c rfl
              rw [splitAt_append_none hsplit, splitAt_closing (by decide),
                Option.map_map] at hbeyond
              obtain ⟨found, -, hsame⟩ := Option.map_eq_some_iff.mp hbeyond
              cases hsame
              have hmember : ')' ∈ text ++ ')' :: found.1 :=
                List.mem_append_right _ List.mem_cons_self
              have hnone : asciiClass? (String.ofList (text ++ ')' :: found.1)) = none := by
                cases hclass : asciiClass? (String.ofList (text ++ ')' :: found.1)) with
                | none => rfl
                | some members => exact absurd hmember (closing_not_mem_of_asciiClass hclass)
              show closeClass? negated (text ++ ')' :: found.1) found.2 = none
              unfold closeClass?
              split
              · rw [hnone]
                rfl
              · rfl

/-- A named set of ASCII at the front of a text is there whatever stands behind. -/
theorem asciiClassAt_append {text behind : List Char}
    (hbehind : Closes behind) :
    asciiClassAt? (text ++ behind) = (asciiClassAt? text).map
      fun (negated, members, rest) => (negated, members, rest ++ behind) := by
  by_cases hopens : ['[', ':'] <+: text
  · obtain ⟨rest, rfl⟩ := hopens
    show asciiClassAt? ('[' :: ':' :: (rest ++ behind)) = (asciiClassAt? ('[' :: ':' :: rest)).map _
    by_cases hcaret : rest.head? = some '^'
    · obtain ⟨others, rfl⟩ := List.head?_eq_some_iff.mp hcaret
      show asciiClassAt? ('[' :: ':' :: '^' :: (others ++ behind)) = _
      rw [asciiClassAt_negated, asciiClassAt_negated, namedClass_append hbehind]
    · rw [asciiClassAt_plain hcaret, asciiClassAt_plain, namedClass_append hbehind]
      cases rest with
      | cons c rest => exact hcaret
      | nil => exact fun h => absurd (hbehind '^' h) (by decide)
  · rw [asciiClassAt_other hopens, asciiClassAt_other]
    · rfl
    · rwa [← List.isPrefixOf_iff_prefix, isPrefixOf_append (by decide) hbehind,
        List.isPrefixOf_iff_prefix]

theorem contained_readAsciiClass : readAsciiClass?.Contained around := by
  have hmembers : ∀ (negated : Bool) (members : CharSet), (do
      let flags ← Read.flags
      let members := CharSet.withVariants flags members
      if negated then return some (← CharSet.without flags members)
      else pure (some members) : Read (Option CharSet)).Contained around := by
    intro negated members
    refine contained_bind contained_flags fun flags => contained_ite ?_ (contained_pure _)
    exact contained_bind (contained_without flags _) fun _ => contained_pure _
  refine ⟨advances_rest ?_, fun ahead => follows_rest ?_⟩
  · intro reading found after hrun hinside
    cases hclass : asciiClassAt? reading.rest with
    | none =>
        rw [hclass] at hrun
        cases hrun
        exact hinside
    | some named =>
        rw [hclass] at hrun
        refine inside_of_continueWith hrun hinside (hmembers _ _).advances fun hnil => ?_
        rw [hnil] at hclass
        cases hclass
  · rw [asciiClassAt_append (closes_cons []), asciiClassAt_append around.stops]
    cases asciiClassAt? ahead with
    | none => exact (contained_pure none).follows ahead
    | some named =>
        obtain ⟨negated, members, left⟩ := named
        exact follows_bind (follows_continueWith left) (fun _ => (hmembers _ _).advances)
          fun _ _ ahead _ => (hmembers negated members).follows ahead

theorem operatorAt_append {text behind : List Char}
    (hbehind : Closes behind) :
    operatorAt? (text ++ behind) = operatorAt? text := by
  have hclosing : ∀ rest, operatorAt? (')' :: rest) = none := fun _ => rfl
  match text with
  | [] =>
      cases behind with
      | nil => rfl
      | cons c behind =>
          obtain rfl : c = ')' := hbehind c rfl
          rfl
  | [c] =>
      cases behind with
      | nil => rfl
      | cons d behind =>
          obtain rfl : d = ')' := hbehind d rfl
          show operatorAt? (c :: ')' :: behind) = operatorAt? [c]
          unfold operatorAt?
          split <;> simp_all
  | c :: d :: text =>
      show operatorAt? (c :: d :: (text ++ behind)) = operatorAt? (c :: d :: text)
      unfold operatorAt?
      split <;> simp_all

/-- The end of a set in brackets. -/
theorem contained_closeBracket (flags : Flags) (negated : Bool) (members : CharSet) :
    (do
      advance
      if negated then CharSet.without flags members else pure members
      : Read CharSet).Contained around :=
  contained_bind contained_advance fun _ =>
    contained_ite (contained_without flags members) (contained_pure members)

/-- A choice by the bracket that comes next, if any. -/
def byBracket {α : Type} (closing opening other : α) : List Char → α
  | ']' :: _ => closing
  | '[' :: _ => opening
  | _ => other

theorem byBracket_other {α : Type} {closing opening other : α} {text : List Char}
    (hcloses : text.head? ≠ some ']') (hopens : text.head? ≠ some '[') :
    byBracket closing opening other text = other := by
  unfold byBracket
  split
  · exact absurd rfl hcloses
  · exact absurd rfl hopens
  · rfl

/-- The members of a set in brackets up to its closing bracket, where `next` reads those of the sets
in it and those behind the first one. -/
def membersStep (next : Bool → Option (CharSet × SetOperator) → CharSet → Read CharSet)
    (negated : Bool) (before : Option (CharSet × SetOperator)) (members : CharSet) :
    Read CharSet := do
  skip
  let flags ← Read.flags
  let remaining ← rest
  let closing := do
    advance
    let members := CharSet.withVariants flags (joinOperand flags before members)
    if negated then CharSet.without flags members else pure members
  let opening := do
    match ← readAsciiClass? with
    | some named => next negated before (.union members named)
    | none =>
        let (innerNegated, first) ← readOpening
        let inner ← next innerNegated none (.unions first)
        next negated before (.union members inner)
  let other :=
    match operatorAt? remaining with
    | some operator => do
        continueWith (remaining.drop 2)
        next negated (some (joinOperand flags before members, operator)) .empty
    | none => do next negated before (.union members (← readRange))
  byBracket closing opening other remaining

theorem readMembers_succ (bound : Nat) :
    readMembers (bound + 1) = membersStep (readMembers bound) :=
  rfl

section

variable {next next' : Bool → Option (CharSet × SetOperator) → CharSet → Read CharSet}
  (h : ∀ negated before members, Agrees around Eq (next negated before members)
    (next' negated before members))
include h

theorem agrees_innerSet (negated : Bool) (before : Option (CharSet × SetOperator))
    (members : CharSet) (named : Option CharSet) :
    Agrees around Eq
      (match named with
        | some named => next negated before (.union members named)
        | none => do
            let (innerNegated, first) ← readOpening
            let inner ← next innerNegated none (.unions first)
            next negated before (.union members inner))
      (match named with
        | some named => next' negated before (.union members named)
        | none => do
            let (innerNegated, first) ← readOpening
            let inner ← next' innerNegated none (.unions first)
            next' negated before (.union members inner)) := by
  cases named with
  | some named => exact h _ _ _
  | none =>
      refine agrees_bind_eq contained_readOpening fun opening => ?_
      refine agrees_bind (h _ _ _) (fun inner => ⟨inner, rfl⟩) fun inner inner' hinner => ?_
      rw [hinner]
      exact h _ _ _

/-- An operator, or else a member, with those behind it. -/
theorem follows_operator (flags : Flags) (negated : Bool)
    (before : Option (CharSet × SetOperator)) (members : CharSet) (ahead : List Char) :
    Follows around Eq ahead
      (match operatorAt? (ahead ++ [')']) with
        | some operator => do
            continueWith ((ahead ++ [')']).drop 2)
            next negated (some (joinOperand flags before members, operator)) .empty
        | none => do next negated before (.union members (← readRange)))
      (match operatorAt? (ahead ++ around.behind) with
        | some operator => do
            continueWith ((ahead ++ around.behind).drop 2)
            next' negated (some (joinOperand flags before members, operator)) .empty
        | none => do next' negated before (.union members (← readRange))) := by
  rw [operatorAt_append (closes_cons []), operatorAt_append around.stops]
  cases hoperator : operatorAt? ahead with
  | none => exact (agrees_bind_eq contained_readRange fun _ => h _ _ _).follows ahead
  | some operator =>
      obtain ⟨c, d, left, rfl⟩ : ∃ c d left, ahead = c :: d :: left := by
        match ahead with
        | [] => cases hoperator
        | [c] =>
            unfold operatorAt? at hoperator
            split at hoperator <;> simp_all
        | c :: d :: left => exact ⟨c, d, left, rfl⟩
      exact follows_bind (follows_continueWith left) (fun _ => (h _ _ _).advances)
        fun _ _ ahead _ => (h _ _ _).follows ahead

theorem agrees_membersStep (negated : Bool) (before : Option (CharSet × SetOperator))
    (members : CharSet) :
    Agrees around Eq (membersStep next negated before members)
      (membersStep next' negated before members) := by
  refine agrees_bind_eq contained_skip fun _ => agrees_bind_eq contained_flags fun flags => ?_
  have hopening := agrees_bind_eq contained_readAsciiClass fun named =>
    agrees_innerSet h negated before members named
  constructor
  case advances =>
    refine advances_rest fun reading found after hrun hinside => ?_
    dsimp only at hrun
    unfold byBracket at hrun
    split at hrun
    · exact (contained_closeBracket flags negated _).advances _ _ _ hrun hinside
    · exact hopening.advances _ _ _ hrun hinside
    · split at hrun
      · next operator hoperator =>
          refine inside_of_continueWith hrun hinside (h _ _ _).advances fun hnil => ?_
          rw [hnil] at hoperator
          cases hoperator
      · exact (agrees_bind_eq contained_readRange fun _ => h _ _ _).advances _ _ _ hrun hinside
  case follows =>
    intro ahead
    refine follows_rest ?_
    by_cases hcloses : ahead.head? = some ']'
    · obtain ⟨others, rfl⟩ := List.head?_eq_some_iff.mp hcloses
      exact (contained_closeBracket flags negated _).follows _
    by_cases hopens : ahead.head? = some '['
    · obtain ⟨others, rfl⟩ := List.head?_eq_some_iff.mp hopens
      exact hopening.follows _
    -- behind what is ahead nothing but a closing parenthesis can come next, so both readings meet
    -- the same sign
    have hother : ∀ (c : Char) (behind : List Char), c ≠ ')' → ahead.head? ≠ some c →
        Closes behind → (ahead ++ behind).head? ≠ some c := by
      intro c behind hc hahead hbehind
      cases ahead with
      | cons d ahead => exact hahead
      | nil => exact fun h => hc (hbehind c h)
    dsimp only
    rw [byBracket_other (hother ']' _ (by decide) hcloses (closes_cons []))
        (hother '[' _ (by decide) hopens (closes_cons [])),
      byBracket_other (hother ']' _ (by decide) hcloses around.stops)
        (hother '[' _ (by decide) hopens around.stops)]
    exact follows_operator h flags negated before members ahead

end

theorem contained_readMembers (bound : Nat) (negated : Bool)
    (before : Option (CharSet × SetOperator)) (members : CharSet) :
    (readMembers bound negated before members).Contained around := by
  induction bound generalizing negated before members with
  | zero => exact contained_failure
  | succ bound ih =>
      rw [readMembers_succ]
      exact agrees_membersStep ih negated before members

/-- The bounds on the members do not matter, as long as they suffice. -/
theorem agrees_readMembers (bound bound' : Nat) (negated : Bool)
    (before : Option (CharSet × SetOperator)) (members : CharSet) :
    Agrees around Eq (readMembers bound negated before members)
      (readMembers bound' negated before members) := by
  induction bound generalizing bound' negated before members with
  | zero => exact ⟨contained_failure.advances, fun _ _ _ _ _ _ _ _ hrun => nomatch hrun⟩
  | succ bound ih =>
      cases bound' with
      | zero =>
          exact ⟨(contained_readMembers (bound + 1) negated before members).advances,
            fun _ _ _ _ _ _ _ _ _ _ hrun => nomatch hrun⟩
      | succ bound' =>
          rw [readMembers_succ, readMembers_succ]
          exact agrees_membersStep (ih bound') negated before members

theorem contained_readBracket : readBracket.Contained around := by
  have hmembers : ∀ bound bound', Agrees around Eq
      (do
        let (negated, first) ← readOpening
        readMembers bound negated none (.unions first))
      (do
        let (negated, first) ← readOpening
        readMembers bound' negated none (.unions first)) := fun bound bound' =>
    agrees_bind_eq contained_readOpening fun opening => agrees_readMembers bound bound' _ _ _
  constructor
  case advances =>
    exact advances_rest fun reading => (hmembers _ reading.rest.length).advances reading
  case follows => exact fun ahead => follows_rest ((hmembers _ _).follows ahead)

/-! ## Repetitions -/

theorem contained_stepInside : stepInside.Contained around :=
  contained_bind contained_step fun _ => contained_bind contained_peek fun _ => contained_pure _

theorem contained_readRounds : readRounds.Contained around := by
  refine contained_bind contained_stepInside fun _ => ?_
  refine contained_bind contained_readDecimal fun least => ?_
  cases least with
  | none => exact contained_failure
  | some least =>
      refine contained_bind contained_peek fun c => contained_ite ?_ (contained_pure _)
      refine contained_bind contained_stepInside fun _ => contained_bind contained_peek fun d => ?_
      refine contained_ite (contained_pure _) (contained_bind contained_readDecimal fun most => ?_)
      cases most with
      | some most => exact contained_ite (contained_pure _) contained_failure
      | none => exact contained_failure

theorem contained_readRepetition (sign : Char) : (readRepetition sign).Contained around := by
  unfold readRepetition
  split
  case h_1 | h_2 | h_3 => exact contained_bind contained_advance fun _ => contained_pure _
  case h_4 =>
    refine contained_bind contained_readRounds fun rounds => ?_
    refine contained_bind contained_peek fun c => contained_ite ?_ contained_failure
    exact contained_bind contained_step fun _ => contained_pure rounds

end TemplateBundle.Regex

import TemplateBundle.Regex.Reader

/-!
# Readers and what stands behind a pattern

A pattern may be read in front of a closing parenthesis that ends the text, or with another text
behind it. `Read.Contained` says that a reader which stays before the parenthesis in the one text
does the same in the other one, unless it fails there. Readers are made of a few steps, and each of
them has a rule here.
-/

namespace TemplateBundle.Regex

/-- The text starts with a closing parenthesis or is empty. -/
def Closes (text : List Char) : Prop :=
  ∀ c, text.head? = some c → c = ')'

theorem closes_cons (text : List Char) : Closes (')' :: text) :=
  fun _ hc => (Option.some.inj hc).symm

theorem closes_nil : Closes [] :=
  fun _ hc => nomatch hc

/-- What stands around a pattern. -/
structure Surroundings where
  /-- The text behind the pattern, in place of a closing parenthesis alone. -/
  behind : List Char
  /-- How many groups were opened before the pattern. -/
  groupsBefore : Nat
  /-- How many groups the pattern opens at most. -/
  limit : Nat
  /-- The numbers that the groups of the pattern get. -/
  number : Nat → Nat
  stops : Closes behind
  numbers : ∀ group, group < limit → number (group + 1) = group + groupsBefore + 1

variable {around : Surroundings}

/-- The closing parenthesis was not passed over, and not too many groups were opened. -/
def Reading.IsInside (around : Surroundings) (reading : Reading) : Prop :=
  reading.rest ≠ [] ∧ reading.groups ≤ around.limit

/-- Both readings stand before the same text `ahead`; the first one is in front of a closing
parenthesis, the second one within the surroundings. -/
structure Reading.Beside (around : Surroundings) (ahead : List Char) (first second : Reading) :
    Prop where
  rest : first.rest = ahead ++ [')']
  rest_within : second.rest = ahead ++ around.behind
  flags : second.flags = first.flags
  groups : second.groups = first.groups + around.groupsBefore

theorem Closes.cases {text : List Char} (h : Closes text) :
    text = [] ∨ ∃ others, text = ')' :: others := by
  cases text with
  | nil => exact .inl rfl
  | cons c others =>
      obtain rfl : c = ')' := h c rfl
      exact .inr ⟨others, rfl⟩

/-! ## Movements -/

/-- As long as it does not pass over the closing parenthesis, the movement does not depend on what
stands behind. -/
structure Moves (around : Surroundings) (move : List Char → List Char) : Prop where
  nil : move [] = []
  append : ∀ ahead, move (ahead ++ [')']) ≠ [] → ∃ moved,
    move (ahead ++ [')']) = moved ++ [')'] ∧ move (ahead ++ around.behind) = moved ++ around.behind

theorem Moves.comp {move next : List Char → List Char} (hnext : Moves around next)
    (hmove : Moves around move) : Moves around fun text => next (move text) where
  nil := by rw [hmove.nil, hnext.nil]
  append ahead h := by
    have hmoved : move (ahead ++ [')']) ≠ [] := fun hnil => h (by rw [hnil, hnext.nil])
    obtain ⟨moved, hfirst, hsecond⟩ := hmove.append ahead hmoved
    rw [hfirst] at h ⊢
    rw [hsecond]
    exact hnext.append moved h

theorem moves_id : Moves around fun text => text where
  nil := rfl
  append ahead _ := ⟨ahead, rfl, rfl⟩

theorem moves_tail : Moves around List.tail where
  nil := rfl
  append ahead h := by
    cases ahead with
    | nil => exact absurd rfl h
    | cons c ahead => exact ⟨ahead, rfl, rfl⟩

theorem moves_dropWhile {p : Char → Bool} (hp : p ')' = false) :
    Moves around (List.dropWhile p) where
  nil := rfl
  append ahead h := by
    clear h
    induction ahead with
    | nil =>
        refine ⟨[], by simp only [List.nil_append, List.dropWhile_cons, hp]; rfl, ?_⟩
        obtain hbehind | ⟨others, hbehind⟩ := around.stops.cases
        · rw [hbehind]
          rfl
        · simp only [hbehind, List.nil_append, List.dropWhile_cons, hp]
          rfl
    | cons c ahead ih =>
        by_cases hc : p c = true
        · simpa only [List.cons_append, List.dropWhile_cons, hc, if_true] using ih
        · refine ⟨c :: ahead, ?_, ?_⟩
          all_goals simp only [List.cons_append, List.dropWhile_cons, hc]; rfl

theorem moves_dropVerbose (comment : Bool) : Moves around (dropVerbose comment) where
  nil := by cases comment <;> rfl
  append ahead h := by
    induction ahead generalizing comment with
    | nil =>
        cases comment with
        | true => exact absurd rfl h
        | false =>
            refine ⟨[], rfl, ?_⟩
            obtain hbehind | ⟨others, hbehind⟩ := around.stops.cases
            · rw [hbehind]
              rfl
            · rw [hbehind]
              rfl
    | cons c ahead ih =>
        cases comment with
        | true => exact ih (c != '\n') h
        | false =>
            simp only [List.cons_append, dropVerbose] at h ⊢
            by_cases hwhite : Text.isWhite c = true
            · simp only [hwhite, if_true] at h ⊢
              exact ih false h
            · by_cases hsharp : c = '#'
              · subst hsharp
                exact ih true h
              · simp only [hwhite, hsharp]
                exact ⟨c :: ahead, rfl, rfl⟩

/-- What is skipped under the flags. -/
def skipped (flags : Flags) (text : List Char) : List Char :=
  if flags.verbose then dropVerbose false text else text

theorem skipped_nil (flags : Flags) : skipped flags [] = [] := by
  unfold skipped
  split <;> rfl

theorem moves_skipped (flags : Flags) : Moves around (skipped flags) := by
  cases h : flags.verbose with
  | true =>
      have hskipped : skipped flags = dropVerbose false := by funext text; simp [skipped, h]
      rw [hskipped]
      exact moves_dropVerbose false
  | false =>
      have hskipped : skipped flags = fun text => text := by funext text; simp [skipped, h]
      rw [hskipped]
      exact moves_id

theorem length_dropVerbose_le (comment : Bool) (text : List Char) :
    (dropVerbose comment text).length ≤ text.length := by
  induction text generalizing comment with
  | nil => cases comment <;> exact Nat.le_refl _
  | cons c text ih =>
      cases comment with
      | true => exact Nat.le_succ_of_le (ih _)
      | false =>
          unfold dropVerbose
          split
          · exact Nat.le_succ_of_le (ih _)
          · split
            · exact Nat.le_succ_of_le (ih _)
            · exact Nat.le_refl _

theorem length_skipped_le (flags : Flags) (text : List Char) :
    (skipped flags text).length ≤ text.length := by
  unfold skipped
  split
  · exact length_dropVerbose_le false text
  · exact Nat.le_refl _

/-- A step from a place to the same place further on. -/
theorem Reading.Beside.step {ahead : List Char} {reading other : Reading}
    (hbeside : reading.Beside around ahead other)
    (hmoved : skipped reading.flags reading.rest.tail ≠ []) :
    ∃ moved, moved.length < ahead.length ∧ Reading.Beside around moved
      { reading with rest := skipped reading.flags reading.rest.tail }
      { other with rest := skipped other.flags other.rest.tail } := by
  rw [hbeside.rest] at hmoved
  have hmoves : Moves around fun text => skipped reading.flags text.tail :=
    (moves_skipped reading.flags).comp moves_tail
  obtain ⟨moved, hfirst, hsecond⟩ := hmoves.append ahead hmoved
  refine ⟨moved, ?_, ?_, ?_, hbeside.flags, hbeside.groups⟩
  · have hle := length_skipped_le reading.flags (ahead ++ [')']).tail
    rw [hfirst, List.length_tail, List.length_append, List.length_append] at hle
    exact hle
  · rw [hbeside.rest, hfirst]
  · rw [hbeside.rest_within, hbeside.flags, hsecond]

/-! ## Readers -/

namespace Read

variable {α β : Type} {ahead : List Char} {reader : Read α}

theorem run_bind_some {rest : α → Read β} {reading after : Reading} {found : β} :
    (reader >>= rest).run reading = some (found, after) ↔
      ∃ value middle, reader.run reading = some (value, middle) ∧
        (rest value).run middle = some (found, after) := by
  rw [StateT.run_bind]
  constructor
  · intro h
    obtain ⟨⟨value, middle⟩, hvalue, hrest⟩ := Option.bind_eq_some_iff.mp h
    exact ⟨value, middle, hvalue, hrest⟩
  · rintro ⟨value, middle, hvalue, hrest⟩
    exact Option.bind_eq_some_iff.mpr ⟨(value, middle), hvalue, hrest⟩

/-- Where the reader stops before the closing parenthesis, it also started before it. -/
def Advances (around : Surroundings) (reader : Read α) : Prop :=
  ∀ reading found after, reader.run reading = some (found, after) → after.IsInside around →
    reading.IsInside around

/-- Where the first reader stops before the closing parenthesis, the second one, which reads within
the surroundings, stops at the same place with a result that corresponds, unless it fails. -/
def Follows (around : Surroundings) (result : α → β → Prop) (ahead : List Char) (first : Read α)
    (second : Read β) : Prop :=
  ∀ reading other found after found' after', reading.Beside around ahead other →
    first.run reading = some (found, after) → after.IsInside around →
    second.run other = some (found', after') →
      result found found' ∧ ∃ left, after.Beside around left after'

/-- The second reader, within the surroundings, does what the first one does in front of a closing
parenthesis. -/
structure Agrees (around : Surroundings) (result : α → β → Prop) (first : Read α)
    (second : Read β) : Prop where
  advances : first.Advances around
  follows : ∀ ahead, Follows around result ahead first second

/-- As long as it stays before the closing parenthesis, the reader does not depend on what stands
behind it. -/
abbrev Contained (around : Surroundings) (reader : Read α) : Prop :=
  Agrees around Eq reader reader

theorem advances_bind {rest : α → Read β} (h : reader.Advances around)
    (hrest : ∀ value, (rest value).Advances around) : (reader >>= rest).Advances around := by
  intro reading found after hrun hinside
  obtain ⟨value, middle, hvalue, hrun⟩ := run_bind_some.mp hrun
  exact h _ _ _ hvalue (hrest value _ _ _ hrun hinside)

theorem follows_bind {α' β' : Type} {first : Read α} {second : Read α'} {rest : α → Read β}
    {rest' : α' → Read β'} {middle : α → α' → Prop} {result : β → β' → Prop}
    (h : Follows around middle ahead first second)
    (hadvances : ∀ value, (rest value).Advances around)
    (hrest : ∀ value value' ahead, middle value value' →
      Follows around result ahead (rest value) (rest' value')) :
    Follows around result ahead (first >>= rest) (second >>= rest') := by
  intro reading other found after found' after' hbeside hrun hinside hrun'
  obtain ⟨value, between, hvalue, hrun⟩ := run_bind_some.mp hrun
  obtain ⟨value', between', hvalue', hrun'⟩ := run_bind_some.mp hrun'
  have hbetween := hadvances value _ _ _ hrun hinside
  obtain ⟨hmiddle, left, hbeside⟩ := h _ _ _ _ _ _ hbeside hvalue hbetween hvalue'
  exact hrest value value' left hmiddle _ _ _ _ _ _ hbeside hrun hinside hrun'

theorem agrees_bind {α' β' : Type} {first : Read α} {second : Read α'} {rest : α → Read β}
    {rest' : α' → Read β'} {middle : α → α' → Prop} {result : β → β' → Prop}
    (h : Agrees around middle first second) (htotal : ∀ value, ∃ value', middle value value')
    (hrest : ∀ value value', middle value value' →
      Agrees around result (rest value) (rest' value')) :
    Agrees around result (first >>= rest) (second >>= rest') := by
  have hadvances : ∀ value, (rest value).Advances around := by
    intro value
    obtain ⟨value', hvalue⟩ := htotal value
    exact (hrest value value' hvalue).advances
  exact ⟨advances_bind h.advances hadvances, fun ahead => follows_bind (h.follows ahead) hadvances
    fun value value' ahead hvalue => (hrest value value' hvalue).follows ahead⟩

theorem agrees_bind_eq {β' : Type} {rest : α → Read β} {rest' : α → Read β'}
    {result : β → β' → Prop} (h : reader.Contained around)
    (hrest : ∀ value, Agrees around result (rest value) (rest' value)) :
    Agrees around result (reader >>= rest) (reader >>= rest') :=
  agrees_bind h (fun value => ⟨value, rfl⟩) fun value _ hvalue => hvalue ▸ hrest value

theorem contained_bind {rest : α → Read β} (h : reader.Contained around)
    (hrest : ∀ value, (rest value).Contained around) : (reader >>= rest).Contained around :=
  agrees_bind_eq h hrest

theorem agrees_pure {result : α → β → Prop} {value : α} {value' : β} (h : result value value') :
    Agrees around result (pure value) (pure value') where
  advances := by
    intro reading found after hrun hinside
    cases hrun
    exact hinside
  follows ahead := by
    intro reading other found after found' after' hbeside hrun _ hrun'
    cases hrun
    cases hrun'
    exact ⟨h, ahead, hbeside⟩

theorem contained_pure (value : α) : (pure value : Read α).Contained around :=
  agrees_pure rfl

theorem agrees_failure {result : α → β → Prop} {second : Read β} :
    Agrees around result failure second where
  advances := fun _ _ _ hrun => nomatch hrun
  follows _ := fun _ _ _ _ _ _ _ hrun => nomatch hrun

theorem contained_failure : (failure : Read α).Contained around :=
  agrees_failure

theorem agrees_ite {result : α → β → Prop} {condition : Prop} [Decidable condition]
    {first other : Read α} {first' other' : Read β} (h : Agrees around result first first')
    (hother : Agrees around result other other') :
    Agrees around result (if condition then first else other)
      (if condition then first' else other') := by
  split
  · exact h
  · exact hother

theorem contained_ite {condition : Prop} [Decidable condition] {other : Read α}
    (h : reader.Contained around) (hother : other.Contained around) :
    (if condition then reader else other).Contained around :=
  agrees_ite h hother

theorem contained_flags : flags.Contained around where
  advances := by
    intro reading found after hrun hinside
    cases hrun
    exact hinside
  follows ahead := by
    intro reading other found after found' after' hbeside hrun _ hrun'
    cases hrun
    cases hrun'
    exact ⟨hbeside.flags.symm, ahead, hbeside⟩

theorem contained_setFlags (flags : Flags) : (setFlags flags).Contained around where
  advances := by
    intro reading found after hrun hinside
    cases hrun
    exact hinside
  follows ahead := by
    intro reading other found after found' after' hbeside hrun _ hrun'
    cases hrun
    cases hrun'
    exact ⟨rfl, ahead, hbeside.rest, hbeside.rest_within, rfl, hbeside.groups⟩

/-- A reader that moves over the text. -/
theorem contained_of_moves {mover : Read Unit} {move : Flags → List Char → List Char}
    (hrun : ∀ reading, mover.run reading =
      some ((), { reading with rest := move reading.flags reading.rest }))
    (hmoves : ∀ flags, Moves around (move flags)) : mover.Contained around where
  advances := by
    intro reading found after h hinside
    rw [hrun] at h
    cases h
    exact ⟨fun hnil => hinside.1 (by simp only [hnil, (hmoves reading.flags).nil]), hinside.2⟩
  follows ahead := by
    intro reading other found after found' after' hbeside h hinside h'
    rw [hrun] at h h'
    cases h
    cases h'
    have hrest := hinside.1
    simp only [hbeside.rest] at hrest
    obtain ⟨moved, hfirst, hsecond⟩ := (hmoves reading.flags).append ahead hrest
    refine ⟨rfl, moved, ?_, ?_, hbeside.flags, hbeside.groups⟩
    · simp only [hbeside.rest, hfirst]
    · simp only [hbeside.rest_within, hbeside.flags, hsecond]

theorem run_skip (reading : Reading) :
    skip.run reading = some ((), { reading with rest := skipped reading.flags reading.rest }) := by
  refine run_bind_some.mpr ⟨reading.flags, reading, rfl, ?_⟩
  unfold skipped
  split <;> rfl

theorem run_step (reading : Reading) :
    step.run reading =
      some ((), { reading with rest := skipped reading.flags reading.rest.tail }) :=
  run_bind_some.mpr ⟨(), { reading with rest := reading.rest.tail }, rfl, run_skip _⟩

theorem contained_advance : advance.Contained around :=
  contained_of_moves (fun _ => rfl) fun _ => moves_tail

theorem contained_skip : skip.Contained around :=
  contained_of_moves run_skip moves_skipped

theorem contained_step : step.Contained around :=
  contained_of_moves run_step fun flags => (moves_skipped flags).comp moves_tail

theorem contained_dropWhite : dropWhite.Contained around :=
  contained_of_moves (fun _ => rfl) fun _ => moves_dropWhile rfl

theorem run_peek {reading after : Reading} {c : Char} :
    peek.run reading = some (c, after) ↔ reading.rest.head? = some c ∧ after = reading := by
  have hrun : peek.run reading = reading.rest.head?.map fun c => (c, reading) := by
    unfold peek
    refine (StateT.run_bind _ _ _).trans ?_
    show StateT.run _ reading = _
    cases reading.rest.head? <;> rfl
  rw [hrun, Option.map_eq_some_iff]
  constructor
  · rintro ⟨first, hfirst, hsame⟩
    cases hsame
    exact ⟨hfirst, rfl⟩
  · rintro ⟨hfirst, rfl⟩
    exact ⟨c, hfirst, rfl⟩

theorem run_peek_bind {next : Char → Read α} {reading after : Reading} {found : α} :
    (peek >>= next).run reading = some (found, after) ↔
      ∃ c, reading.rest.head? = some c ∧ (next c).run reading = some (found, after) := by
  rw [run_bind_some]
  constructor
  · rintro ⟨c, middle, hpeek, hnext⟩
    obtain ⟨hc, hsame⟩ := run_peek.mp hpeek
    exact ⟨c, hc, hsame ▸ hnext⟩
  · rintro ⟨c, hc, hnext⟩
    exact ⟨c, reading, run_peek.mpr ⟨hc, rfl⟩, hnext⟩

theorem contained_peek : peek.Contained around where
  advances := by
    intro reading found after hrun hinside
    obtain ⟨-, rfl⟩ := run_peek.mp hrun
    exact hinside
  follows ahead := by
    intro reading other found after found' after' hbeside hrun _ hrun'
    obtain ⟨hfound, rfl⟩ := run_peek.mp hrun
    obtain ⟨hfound', rfl⟩ := run_peek.mp hrun'
    refine ⟨?_, ahead, hbeside⟩
    rw [hbeside.rest] at hfound
    rw [hbeside.rest_within] at hfound'
    cases ahead with
    | nil => exact (Option.some.inj hfound).symm.trans (around.stops found' hfound').symm
    | cons c ahead => exact (Option.some.inj hfound).symm.trans (Option.some.inj hfound')

/-- Both readings see the same character next, other than a closing parenthesis. -/
theorem head_iff {reading other : Reading} (hbeside : reading.Beside around ahead other) {c : Char}
    (hc : c ≠ ')') : reading.rest.head? = some c ↔ other.rest.head? = some c := by
  rw [hbeside.rest, hbeside.rest_within]
  cases ahead with
  | cons d ahead => exact Iff.rfl
  | nil =>
      constructor
      · exact fun h => absurd (Option.some.inj h).symm hc
      · exact fun h => absurd (around.stops c h) hc

/-- What follows the look at the next character. Behind the text ahead the first reader meets the
closing parenthesis, the second one may meet the end. -/
theorem agrees_peek {β' : Type} {result : β → β' → Prop} {next : Option Char → Read β}
    {next' : Option Char → Read β'} (h : ∀ c, Agrees around result (next (some c)) (next' (some c)))
    (hend : Agrees around result (next (some ')')) (next' none))
    (hnone : (next none).Advances around) :
    Agrees around result (peek? >>= next) (peek? >>= next') where
  advances := by
    intro reading found after hrun
    replace hrun : (next reading.rest.head?).run reading = some (found, after) := hrun
    cases hhead : reading.rest.head? with
    | none => exact hnone reading found after (hhead ▸ hrun)
    | some c => exact (h c).advances reading found after (hhead ▸ hrun)
  follows ahead := by
    intro reading other found after found' after' hbeside hrun hinside hrun'
    replace hrun : (next reading.rest.head?).run reading = some (found, after) := hrun
    replace hrun' : (next' other.rest.head?).run other = some (found', after') := hrun'
    rw [hbeside.rest] at hrun
    rw [hbeside.rest_within] at hrun'
    cases ahead with
    | cons c ahead => exact (h c).follows _ _ _ _ _ _ _ hbeside hrun hinside hrun'
    | nil =>
        obtain hbehind | ⟨others, hbehind⟩ := around.stops.cases
        · rw [hbehind] at hrun'
          exact hend.follows _ _ _ _ _ _ _ hbeside hrun hinside hrun'
        · rw [hbehind] at hrun'
          exact (h ')').follows _ _ _ _ _ _ _ hbeside hrun hinside hrun'

/-- A choice by the character that comes next, if any. -/
theorem contained_ite_next {c : Char} {other : Read α} (hc : c ≠ ')')
    (h : reader.Contained around) (hother : other.Contained around) :
    (do if (← peek?) = some c then reader else other : Read α).Contained around where
  advances := by
    intro reading found after hrun
    replace hrun : (if reading.rest.head? = some c then reader else other).run reading =
      some (found, after) := hrun
    exact (contained_ite h hother).advances reading found after hrun
  follows ahead := by
    intro reading within found after found' after' hbeside hrun hinside hrun'
    replace hrun : (if reading.rest.head? = some c then reader else other).run reading =
      some (found, after) := hrun
    replace hrun' : (if within.rest.head? = some c then reader else other).run within =
      some (found', after') := hrun'
    simp only [← head_iff hbeside hc] at hrun'
    exact (contained_ite h hother).follows ahead _ _ _ _ _ _ hbeside hrun hinside hrun'

/-- Pass over a character and look at the one behind it. Go on from there if it is accepted, and go
back otherwise. -/
def stepOrBack (accepted : Char → Bool) (reader : Read α) (value : α) : Read α := do
  let before ← get
  step
  if accepted (← peek) then reader
  else
    set before
    pure value

theorem run_stepOrBack {accepted : Char → Bool} {value found : α} {reading after : Reading} :
    (stepOrBack accepted reader value).run reading = some (found, after) ↔
      ∃ middle c, step.run reading = some ((), middle) ∧ peek.run middle = some (c, middle) ∧
        (if accepted c then reader.run middle else some (value, reading)) =
          some (found, after) := by
  constructor
  · intro h
    obtain ⟨_, _, hget, h⟩ := run_bind_some.mp h
    cases hget
    obtain ⟨_, middle, hstep, h⟩ := run_bind_some.mp h
    obtain ⟨c, same, hpeek, h⟩ := run_bind_some.mp h
    obtain ⟨-, hsame⟩ := run_peek.mp hpeek
    rw [hsame] at hpeek h
    refine ⟨middle, c, hstep, hpeek, ?_⟩
    cases haccepted : accepted c with
    | true => simpa only [haccepted, if_true] using h
    | false =>
        rw [haccepted] at h
        exact h
  · rintro ⟨middle, c, hstep, hpeek, h⟩
    refine run_bind_some.mpr ⟨reading, reading, rfl, run_bind_some.mpr ⟨(), middle, hstep, ?_⟩⟩
    refine run_bind_some.mpr ⟨c, middle, hpeek, ?_⟩
    cases haccepted : accepted c with
    | true => simpa only [haccepted, if_true] using h
    | false =>
        rw [haccepted] at h
        exact h

theorem contained_stepOrBack {accepted : Char → Bool} (value : α) (h : reader.Contained around) :
    (stepOrBack accepted reader value).Contained around where
  advances := by
    intro reading found after hrun hinside
    obtain ⟨middle, c, hstep, -, hrun⟩ := run_stepOrBack.mp hrun
    split at hrun
    · exact contained_step.advances _ _ _ hstep (h.advances _ _ _ hrun hinside)
    · cases hrun
      exact hinside
  follows ahead := by
    intro reading other found after found' after' hbeside hrun hinside hrun'
    obtain ⟨middle, c, hstep, hpeek, hrun⟩ := run_stepOrBack.mp hrun
    obtain ⟨middle', c', hstep', hpeek', hrun'⟩ := run_stepOrBack.mp hrun'
    -- There is a character to look at, so that the parenthesis was not passed over.
    have hmiddle : middle.IsInside around := by
      split at hrun
      · exact h.advances _ _ _ hrun hinside
      · cases hrun
        obtain ⟨hhead, -⟩ := run_peek.mp hpeek
        refine ⟨fun hnil => ?_, ?_⟩
        · rw [hnil] at hhead
          cases hhead
        · rw [run_step] at hstep
          cases hstep
          exact hinside.2
    obtain ⟨-, left, hbetween⟩ :=
      contained_step.follows ahead _ _ _ _ _ _ hbeside hstep hmiddle hstep'
    obtain ⟨rfl, -⟩ := contained_peek.follows left _ _ _ _ _ _ hbetween hpeek hmiddle hpeek'
    split at hrun
    · next haccepted =>
        rw [if_pos haccepted] at hrun'
        exact h.follows left _ _ _ _ _ _ hbetween hrun hinside hrun'
    · next haccepted =>
        rw [if_neg haccepted] at hrun'
        cases hrun
        cases hrun'
        exact ⟨rfl, ahead, hbeside⟩

/-! ## Readers that look at all that is left -/

/-- A reader that uses all that is left. -/
theorem advances_rest {next : List Char → Read α}
    (h : ∀ reading found after, (next reading.rest).run reading = some (found, after) →
      after.IsInside around → reading.IsInside around) : (rest >>= next).Advances around :=
  h

theorem follows_rest {next : List Char → Read α} {next' : List Char → Read β}
    {result : α → β → Prop}
    (h : Follows around result ahead (next (ahead ++ [')'])) (next' (ahead ++ around.behind))) :
    Follows around result ahead (rest >>= next) (rest >>= next') := by
  intro reading other found after found' after' hbeside hrun hinside hrun'
  replace hrun : (next reading.rest).run reading = some (found, after) := hrun
  replace hrun' : (next' other.rest).run other = some (found', after') := hrun'
  rw [hbeside.rest] at hrun
  rw [hbeside.rest_within] at hrun'
  exact h _ _ _ _ _ _ hbeside hrun hinside hrun'

theorem follows_continueWith (left : List Char) :
    Follows around Eq ahead (continueWith (left ++ [')']))
      (continueWith (left ++ around.behind)) := by
  intro reading other found after found' after' hbeside hrun _ hrun'
  cases hrun
  cases hrun'
  exact ⟨rfl, left, rfl, rfl, hbeside.flags, hbeside.groups⟩

theorem inside_of_continueWith {left : List Char} {next : Unit → Read α} {reading after : Reading}
    {found : α} (hrun : (continueWith left >>= next).run reading = some (found, after))
    (hinside : after.IsInside around) (hnext : (next ()).Advances around)
    (hrest : reading.rest ≠ []) : reading.IsInside around := by
  obtain ⟨_, _, hmoved, hrun⟩ := run_bind_some.mp hrun
  cases hmoved
  exact ⟨hrest, (hnext _ _ _ hrun hinside).2⟩

/-- A choice by what comes next, which the text ahead decides. -/
theorem agrees_ite_rest {result : α → β → Prop} {test : List Char → Bool} {first other : Read α}
    {first' other' : Read β}
    (htest : ∀ text behind, Closes behind →
      test (text ++ behind) = test text)
    (h : Agrees around result first first') (hother : Agrees around result other other') :
    Agrees around result (do if test (← rest) then first else other)
      (do if test (← rest) then first' else other') where
  advances := advances_rest fun _ => (agrees_ite h hother).advances _
  follows ahead := by
    refine follows_rest ?_
    rw [htest ahead _ (closes_cons []), htest ahead _ around.stops]
    exact (agrees_ite h hother).follows ahead

/-- Only the text in front of a closing parenthesis, or of the end, decides what it starts with. -/
theorem isPrefixOf_append {expected ahead behind : List Char} (hexpected : ')' ∉ expected)
    (hbehind : Closes behind) :
    expected.isPrefixOf (ahead ++ behind) = expected.isPrefixOf ahead := by
  induction expected generalizing ahead with
  | nil => rfl
  | cons c expected ih =>
      obtain ⟨hc, hexpected⟩ := not_or.mp (mt List.mem_cons.mpr hexpected)
      cases ahead with
      | cons d ahead =>
          show (c == d && expected.isPrefixOf (ahead ++ behind)) =
            (c == d && expected.isPrefixOf ahead)
          rw [ih hexpected]
      | nil =>
          cases behind with
          | nil => rfl
          | cons d behind =>
              have hd : d = ')' := hbehind d rfl
              have hdiffers : (c == d) = false := beq_false_of_ne fun hcd => hc (hd ▸ hcd.symm)
              show (c == d && expected.isPrefixOf behind) = false
              rw [hdiffers, Bool.false_and]

theorem run_accept (expected : List Char) (reading : Reading) :
    (accept expected).run reading = some (expected.isPrefixOf reading.rest,
      { reading with
        rest := if expected.isPrefixOf reading.rest then reading.rest.drop expected.length
          else reading.rest }) := by
  show (if expected.isPrefixOf reading.rest then do
      continueWith (reading.rest.drop expected.length)
      pure true
    else pure false : Read Bool).run reading = _
  cases expected.isPrefixOf reading.rest <;> rfl

theorem advances_accept (expected : List Char) : (accept expected).Advances around := by
  intro reading found after hrun hinside
  rw [run_accept] at hrun
  cases hrun
  refine ⟨fun hnil => hinside.1 ?_, hinside.2⟩
  simp only [hnil, List.drop_nil, ite_self]

theorem contained_accept {expected : List Char} (hexpected : ')' ∉ expected) :
    (accept expected).Contained around where
  advances := advances_accept _
  follows ahead := by
    intro reading other found after found' after' hbeside hrun _ hrun'
    rw [run_accept] at hrun hrun'
    cases hrun
    cases hrun'
    simp only [hbeside.rest, hbeside.rest_within, isPrefixOf_append hexpected (closes_cons []),
      isPrefixOf_append hexpected around.stops]
    refine ⟨trivial, ?_⟩
    cases haccepted : expected.isPrefixOf ahead with
    | false => exact ⟨ahead, rfl, rfl, hbeside.flags, hbeside.groups⟩
    | true =>
        obtain ⟨left, rfl⟩ := List.isPrefixOf_iff_prefix.mp haccepted
        refine ⟨left, ?_, ?_, hbeside.flags, hbeside.groups⟩
        all_goals simp only [if_true, List.append_assoc, List.drop_left]

theorem contained_accept_closing : (accept [')']).Contained around where
  advances := advances_accept _
  follows ahead := by
    intro reading other found after found' after' hbeside hrun hinside hrun'
    rw [run_accept] at hrun hrun'
    cases hrun
    cases hrun'
    cases ahead with
    | nil =>
        -- The closing parenthesis behind the pattern would be passed over.
        have hrest := hinside.1
        simp only [hbeside.rest] at hrest
        exact absurd rfl hrest
    | cons c ahead =>
        have hfirst : [')'].isPrefixOf reading.rest = (')' == c) := by
          rw [hbeside.rest]
          exact Bool.and_true _
        have hsecond : [')'].isPrefixOf other.rest = (')' == c) := by
          rw [hbeside.rest_within]
          exact Bool.and_true _
        rw [hfirst, hsecond]
        refine ⟨rfl, ?_⟩
        cases ')' == c with
        | false =>
            exact ⟨c :: ahead, hbeside.rest, hbeside.rest_within, hbeside.flags, hbeside.groups⟩
        | true =>
            refine ⟨ahead, ?_, ?_, hbeside.flags, hbeside.groups⟩
            · simp only [hbeside.rest, if_true]
              rfl
            · simp only [hbeside.rest_within, if_true]
              rfl

theorem run_takeWhile_stop {accepted : Char → Bool} {reading : Reading} (bound : Nat)
    (h : ∀ c, reading.rest.head? = some c → accepted c = false) :
    (takeWhile accepted bound).run reading = some ([], reading) := by
  obtain ⟨rest, flags, groups, names⟩ := reading
  cases bound with
  | zero => rfl
  | succ bound =>
      cases rest with
      | nil => rfl
      | cons c others =>
          show (if accepted c then do
              step
              return c :: (← takeWhile accepted bound)
            else pure [] : Read (List Char)).run _ = _
          rw [if_neg (by rw [h c rfl]; exact Bool.false_ne_true)]
          rfl

theorem run_takeWhile_next {accepted : Char → Bool} {reading after : Reading} {bound : Nat}
    {c : Char} {others found : List Char} (hrest : reading.rest = c :: others)
    (hc : accepted c = true) :
    (takeWhile accepted (bound + 1)).run reading = some (found, after) ↔
      ∃ taken, found = c :: taken ∧ (takeWhile accepted bound).run
        { reading with rest := skipped reading.flags others } = some (taken, after) := by
  obtain ⟨rest, flags, groups, names⟩ := reading
  cases hrest
  have hrun : (takeWhile accepted (bound + 1)).run ⟨c :: others, flags, groups, names⟩ =
      (do
        step
        return c :: (← takeWhile accepted bound) : Read (List Char)).run
          ⟨c :: others, flags, groups, names⟩ := by
    show (if accepted c then do
        step
        return c :: (← takeWhile accepted bound)
      else pure [] : Read (List Char)).run _ = _
    rw [if_pos hc]
  rw [hrun, run_bind_some]
  constructor
  · rintro ⟨_, middle, hstep, h⟩
    rw [run_step] at hstep
    cases hstep
    obtain ⟨taken, _, htaken, hsame⟩ := run_bind_some.mp h
    cases hsame
    exact ⟨taken, rfl, htaken⟩
  · rintro ⟨taken, rfl, htaken⟩
    exact ⟨(), _, run_step _, run_bind_some.mpr ⟨taken, after, htaken, rfl⟩⟩

theorem advances_takeWhile (accepted : Char → Bool) (bound : Nat) :
    (takeWhile accepted bound).Advances around := by
  induction bound with
  | zero => exact (contained_pure []).advances
  | succ bound ih =>
      intro reading found after hrun hinside
      by_cases htakes : ∃ c, reading.rest.head? = some c ∧ accepted c = true
      · obtain ⟨c, hhead, hc⟩ := htakes
        obtain ⟨others, hrest⟩ := List.head?_eq_some_iff.mp hhead
        obtain ⟨taken, -, htaken⟩ := (run_takeWhile_next hrest hc).mp hrun
        exact ⟨by rw [hrest]; exact List.cons_ne_nil _ _, (ih _ _ _ htaken hinside).2⟩
      · rw [run_takeWhile_stop _ fun c hhead => ?_] at hrun
        · cases hrun
          exact hinside
        · exact Bool.eq_false_iff.mpr fun hc => htakes ⟨c, hhead, hc⟩

/-- A reading that stays inside does not take the closing parenthesis that comes next. -/
theorem closing_not_accepted {accepted : Char → Bool} {reading after : Reading} {bound : Nat}
    {found : List Char} (hnext : reading.rest = [')'])
    (hrun : (takeWhile accepted (bound + 1)).run reading = some (found, after))
    (hinside : after.IsInside around) : accepted ')' = false := by
  cases hclosing : accepted ')' with
  | false => rfl
  | true =>
      obtain ⟨taken, -, htaken⟩ := (run_takeWhile_next hnext hclosing).mp hrun
      exact absurd (skipped_nil reading.flags)
        (advances_takeWhile accepted bound _ _ _ htaken hinside).1

/-- Where a reading stops the one beside it does, which may meet a closing parenthesis of its own. -/
theorem stops_beside {accepted : Char → Bool} {reading other : Reading}
    (hbeside : reading.Beside around ahead other)
    (h : ∀ c, reading.rest.head? = some c → accepted c = false) :
    ∀ c, other.rest.head? = some c → accepted c = false := by
  intro c hc
  rw [hbeside.rest_within] at hc
  cases ahead with
  | nil =>
      rw [around.stops c hc]
      exact h ')' (by rw [hbeside.rest]; rfl)
  | cons d ahead => exact h c (by rw [hbeside.rest]; exact hc)

/-- The induction is on the first bound. A character that is taken brings both readings behind it,
where less of the text lies ahead. -/
theorem follows_takeWhile (accepted : Char → Bool) {bound bound' : Nat}
    (hbound : ahead.length < bound) (hbound' : ahead.length ≤ bound') :
    Follows around Eq ahead (takeWhile accepted bound) (takeWhile accepted bound') := by
  induction bound generalizing ahead bound' with
  | zero => exact absurd hbound (Nat.not_lt_zero _)
  | succ bound ih =>
      intro reading other found after found' after' hbeside hrun hinside hrun'
      by_cases hstop : ∀ c, reading.rest.head? = some c → accepted c = false
      · rw [run_takeWhile_stop _ hstop] at hrun
        rw [run_takeWhile_stop _ (stops_beside hbeside hstop)] at hrun'
        cases hrun
        cases hrun'
        exact ⟨rfl, ahead, hbeside⟩
      have htakes (c : Char) (others : List Char) (hrest : reading.rest = c :: others) :
          accepted c = true := by
        cases hc : accepted c with
        | true => rfl
        | false =>
            refine absurd (fun d hd => ?_) hstop
            rw [hrest] at hd
            cases hd
            exact hc
      cases ahead with
      | nil =>
          have hclosing := closing_not_accepted hbeside.rest hrun hinside
          rw [htakes ')' [] hbeside.rest] at hclosing
          cases hclosing
      | cons c ahead =>
          have hc := htakes c _ hbeside.rest
          obtain ⟨bound', rfl⟩ := Nat.exists_eq_add_one.mpr (Nat.zero_lt_of_lt hbound')
          obtain ⟨taken, rfl, htaken⟩ := (run_takeWhile_next hbeside.rest hc).mp hrun
          obtain ⟨taken', rfl, htaken'⟩ := (run_takeWhile_next hbeside.rest_within hc).mp hrun'
          have hbetween := advances_takeWhile accepted bound _ _ _ htaken hinside
          have hrest : reading.rest.tail = ahead ++ [')'] := by rw [hbeside.rest]; rfl
          have hrest' : other.rest.tail = ahead ++ around.behind := by
            rw [hbeside.rest_within]
            rfl
          obtain ⟨moved, hshorter, hnext⟩ := hbeside.step (by rw [hrest]; exact hbetween.1)
          rw [hrest, hrest'] at hnext
          obtain ⟨rfl, hleft⟩ := ih (Nat.lt_of_lt_of_le hshorter (Nat.le_of_lt_succ hbound))
            (Nat.le_of_lt_succ (Nat.lt_of_lt_of_le hshorter hbound'))
            _ _ _ _ _ _ hnext htaken hinside htaken'
          exact ⟨rfl, hleft⟩

theorem contained_takeAll (accepted : Char → Bool) : (takeAll accepted).Contained around := by
  refine ⟨advances_rest fun reading => advances_takeWhile accepted _ reading, fun ahead => ?_⟩
  refine follows_rest (follows_takeWhile accepted ?_ ?_)
  · rw [List.length_append]
    exact Nat.lt_succ_self _
  · rw [List.length_append]
    exact Nat.le_add_right _ _

end Read

end TemplateBundle.Regex

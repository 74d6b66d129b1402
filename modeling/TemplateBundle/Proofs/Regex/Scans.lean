import Mathlib.Data.List.Forall2
import TemplateBundle.Proofs.Regex.Renumbering

/-!
# Stretches one behind the other

A scan of a text takes the first place where something is found, goes on behind it, and steps over
an empty stretch directly behind the last one. All matches of a pattern are such a scan
(`scan_findAll`).
-/

namespace TemplateBundle.Regex

/-- What is found at the places of a text. -/
structure Finder (α : Type) where
  /-- The length of the text. -/
  size : Nat
  at? : Nat → Option α
  /-- The stretch that is taken. -/
  span : α → Span
  within : ∀ place found, place ≤ size → at? place = some found →
    (span found).start = place ∧ place ≤ (span found).stop ∧ (span found).stop ≤ size

namespace Finder

variable {α β : Type} {finder : Finder α}

/-- At the place nothing is found, or only an empty stretch where the last one ended. -/
def Skips (finder : Finder α) (previous : Option Nat) (place : Nat) : Prop :=
  ∀ found, finder.at? place = some found → (finder.span found).stop = place ∧ previous = some place

/-- What is found from a place on, where the last stretch ended at `previous`. -/
inductive Scan (finder : Finder α) : Nat → Option Nat → List α → Prop where
  | done {place : Nat} {previous : Option Nat}
      (hnone : ∀ later, place ≤ later → later ≤ finder.size → finder.Skips previous later) :
      Scan finder place previous []
  | next {place start : Nat} {previous : Option Nat} {found : α} {others : List α}
      (hplace : place ≤ start) (hsize : start ≤ finder.size)
      (hbefore : ∀ earlier, place ≤ earlier → earlier < start → finder.Skips previous earlier)
      (hfound : finder.at? start = some found)
      (hcounts : ¬((finder.span found).stop = start ∧ previous = some start))
      (hothers : Scan finder (finder.span found).stop (some (finder.span found).stop) others) :
      Scan finder place previous (found :: others)

/-- There is only one scan. -/
theorem Scan.unique {place : Nat} {previous : Option Nat} {found others : List α}
    (h : finder.Scan place previous found) (hother : finder.Scan place previous others) :
    others = found := by
  induction h generalizing others with
  | done hnone =>
      cases hother with
      | done => rfl
      | next hplace hsize _ hfound hcounts _ =>
          exact absurd (hnone _ hplace hsize _ hfound) hcounts
  | @next place start previous found rest hplace hsize hbefore hfound hcounts _ ih =>
      cases hother with
      | done hnone => exact absurd (hnone _ hplace hsize _ hfound) hcounts
      | @next _ start' _ found' rest' hplace' hsize' hbefore' hfound' hcounts' hothers =>
          have hstart : start' = start := by
            rcases Nat.lt_trichotomy start' start with hlt | heq | hgt
            · exact absurd (hbefore _ hplace' hlt _ hfound') hcounts'
            · exact heq
            · exact absurd (hbefore' _ hplace hgt _ hfound) hcounts
          subst hstart
          obtain rfl : found = found' := Option.some.inj (hfound.symm.trans hfound')
          rw [ih hothers]

/-- What is found at the first place is the first of a scan. -/
theorem Scan.starts {place : Nat} {found : α} {others : List α} (hplace : place ≤ finder.size)
    (hfound : finder.at? place = some found) (h : finder.Scan place none others) :
    others.head? = some found := by
  cases h with
  | done hnone => exact nomatch (hnone place (Nat.le_refl _) hplace found hfound).2
  | @next _ start _ other rest hstart _ hbefore hother _ _ =>
      rcases Nat.eq_or_lt_of_le hstart with rfl | hlt
      · exact hother.symm.trans hfound
      · exact nomatch (hbefore place (Nat.le_refl _) hlt found hfound).2

/-- Where two finders find what corresponds at each place, so do their scans. -/
theorem Scan.transfer {other : Finder β} {related : α → β → Prop} (hsize : finder.size = other.size)
    (hat : ∀ place, place ≤ other.size → Option.Rel related (finder.at? place) (other.at? place))
    (hspan : ∀ found found', related found found' → finder.span found = other.span found')
    {place : Nat} {previous : Option Nat} {found : List β}
    (h : other.Scan place previous found) :
    ∃ mine, List.Forall₂ related mine found ∧ finder.Scan place previous mine := by
  -- a place that the other scan passes over has no match here either, or one with the same span
  have hskips : ∀ previous place, place ≤ other.size → other.Skips previous place →
      finder.Skips previous place := by
    intro previous place hplace hother mine hmine
    have hrel := hat place hplace
    rw [hmine] at hrel
    cases htheirs : other.at? place with
    | none =>
        rw [htheirs] at hrel
        cases hrel
    | some theirs =>
        rw [htheirs] at hrel
        cases hrel with
        | some hrelated =>
            rw [hspan _ _ hrelated]
            exact hother theirs htheirs
  induction h with
  | done hnone =>
      exact ⟨[], .nil, .done fun later hlater hle =>
        hskips _ _ (hsize ▸ hle) (hnone later hlater (hsize ▸ hle))⟩
  | @next place start previous theirs others hplace hle hbefore hfound hcounts _ ih =>
      obtain ⟨rest, hrest, hscan⟩ := ih
      have hrel := hat start hle
      rw [hfound] at hrel
      cases hmine : finder.at? start with
      | none =>
          rw [hmine] at hrel
          cases hrel
      | some mine =>
          rw [hmine] at hrel
          cases hrel with
          | some hrelated =>
              have hsame := hspan _ _ hrelated
              refine ⟨mine :: rest, .cons hrelated hrest, ?_⟩
              refine .next hplace (hsize ▸ hle) (fun earlier hearlier hlt => ?_) hmine
                (hsame ▸ hcounts) (hsame ▸ hscan)
              exact hskips _ _ (Nat.le_of_lt (Nat.lt_of_lt_of_le hlt hle))
                (hbefore earlier hearlier hlt)

end Finder

/-! ## Matches of a pattern -/

namespace Pattern

/-- A pattern finds its preferred matches. -/
def finder (pattern : Pattern) (text : Array Char) : Finder Match where
  size := text.size
  at? := pattern.matchAt? text
  span := Match.span
  within _ _ hplace h := matchAt_span hplace h

variable {pattern : Pattern} {text : Array Char} {place count : Nat} {found : Match}

theorem search_some (h : pattern.search? text place count = some found) :
    ∃ start, place ≤ start ∧ start ≤ place + count ∧ pattern.matchAt? text start = some found ∧
      ∀ earlier, place ≤ earlier → earlier < start → pattern.matchAt? text earlier = none := by
  induction count generalizing place with
  | zero =>
      refine ⟨place, Nat.le_refl _, Nat.le_refl _, h, fun earlier hle hlt => ?_⟩
      exact absurd hle (Nat.not_le_of_lt hlt)
  | succ count ih =>
      unfold search? at h
      split at h
      · next hfound =>
          cases h
          refine ⟨place, Nat.le_refl _, Nat.le_add_right _ _, hfound, fun earlier hle hlt => ?_⟩
          exact absurd hle (Nat.not_le_of_lt hlt)
      · next hnone =>
          obtain ⟨start, hplace, hcount, hfound, hbefore⟩ := ih h
          refine ⟨start, Nat.le_of_succ_le hplace, by omega, hfound, fun earlier hle hlt => ?_⟩
          rcases Nat.eq_or_lt_of_le hle with rfl | hlater
          · exact hnone
          · exact hbefore earlier hlater hlt

theorem search_none (h : pattern.search? text place count = none) {later : Nat}
    (hplace : place ≤ later) (hcount : later ≤ place + count) :
    pattern.matchAt? text later = none := by
  induction count generalizing place with
  | zero =>
      obtain rfl : later = place := Nat.le_antisymm hcount hplace
      exact h
  | succ count ih =>
      unfold search? at h
      split at h
      · cases h
      · next hnone =>
          rcases Nat.eq_or_lt_of_le hplace with rfl | hlater
          · exact hnone
          · exact ih h hlater (by omega)

theorem find_some (h : pattern.find? text place = some found) :
    ∃ start, place ≤ start ∧ start ≤ text.size ∧ pattern.matchAt? text start = some found ∧
      ∀ earlier, place ≤ earlier → earlier < start → pattern.matchAt? text earlier = none := by
  unfold find? at h
  split at h
  · next hsize =>
      obtain ⟨start, hplace, hcount, hfound, hbefore⟩ := search_some h
      exact ⟨start, hplace, by omega, hfound, hbefore⟩
  · cases h

theorem find_none (h : pattern.find? text place = none) {later : Nat} (hplace : place ≤ later)
    (hsize : later ≤ text.size) : pattern.matchAt? text later = none := by
  unfold find? at h
  rw [if_pos (Nat.le_trans hplace hsize)] at h
  exact search_none h hplace (by omega)

theorem skips_of_none {previous : Option Nat} (h : pattern.matchAt? text place = none) :
    (pattern.finder text).Skips previous place := by
  intro found hfound
  rw [show (pattern.finder text).at? place = pattern.matchAt? text place from rfl, h] at hfound
  cases hfound

/-- What comes next from the place on is a match. -/
def IsNext (pattern : Pattern) (text : Array Char) (place : Nat) (previous : Option Nat)
    (found : Match) : Prop :=
  ∃ start, place ≤ start ∧ start ≤ text.size ∧
    (∀ earlier, place ≤ earlier → earlier < start →
      (pattern.finder text).Skips previous earlier) ∧
    pattern.matchAt? text start = some found ∧ ¬(found.span.stop = start ∧ previous = some start)

/-- An empty match where the last one ended is met at the first place only, and stepped over. -/
theorem findNext_eq (pattern : Pattern) (text : Array Char) {previous : Option Nat}
    (hprevious : ∀ last, previous = some last → last = place) :
    (pattern.findNext? text place previous = none ∧ ∀ later, place ≤ later → later ≤ text.size →
        (pattern.finder text).Skips previous later) ∨
      ∃ found, pattern.findNext? text place previous = some found ∧
        pattern.IsNext text place previous found := by
  unfold findNext?
  cases hfind : pattern.find? text place with
  | none =>
      exact .inl ⟨rfl, fun later hlater hsize => skips_of_none (find_none hfind hlater hsize)⟩
  | some found =>
      obtain ⟨start, hstart, hsize, hat, hbefore⟩ := find_some hfind
      obtain ⟨hspan, -, -⟩ := matchAt_span hsize hat
      by_cases hempty : found.span.start = found.span.stop ∧ previous = some found.span.stop
      · simp only [if_pos hempty]
        -- the repeated match stands where the search starts, so what comes after it is found from
        -- the next place on
        have hstop : found.span.stop = place := hprevious _ hempty.2
        obtain rfl : start = place := by rw [← hspan, hempty.1, hstop]
        have hskips : (pattern.finder text).Skips previous start := by
          intro other hother
          obtain rfl : found = other := Option.some.inj (hat.symm.trans hother)
          exact ⟨hstop, by rw [hempty.2, hstop]⟩
        cases hagain : pattern.find? text (start + 1) with
        | none =>
            refine .inl ⟨rfl, fun later hlater hle => ?_⟩
            rcases Nat.eq_or_lt_of_le hlater with rfl | hlt
            · exact hskips
            · exact skips_of_none (find_none hagain hlt hle)
        | some other =>
            obtain ⟨next, hnext, hsize, hat, hbefore⟩ := find_some hagain
            refine .inr ⟨other, rfl, next, Nat.le_of_succ_le hnext, hsize,
              fun earlier hle hlt => ?_, hat, fun hrepeats => ?_⟩
            · rcases Nat.eq_or_lt_of_le hle with rfl | hlater
              · exact hskips
              · exact skips_of_none (hbefore earlier hlater hlt)
            · exact absurd (hprevious next hrepeats.2) (Nat.ne_of_gt hnext)
      · simp only [if_neg hempty]
        refine .inr ⟨found, rfl, start, hstart, hsize,
          fun earlier hle hlt => skips_of_none (hbefore earlier hle hlt), hat, fun hrepeats => ?_⟩
        exact hempty ⟨hspan.trans hrepeats.1.symm, by rw [hrepeats.1]; exact hrepeats.2⟩

/-- Every match but the first one ends further on than the one before it, so that as many as there
are places left, and one more at the start, are all. -/
theorem scan_matchesFrom {bound : Nat} {previous : Option Nat}
    (hprevious : ∀ last, previous = some last → last = place) (hplace : place ≤ text.size)
    (hbound : text.size - place + (if previous = none then 1 else 0) < bound) :
    (pattern.finder text).Scan place previous (pattern.matchesFrom text bound place previous) := by
  induction bound generalizing place previous with
  | zero => exact absurd hbound (Nat.not_lt_zero _)
  | succ bound ih =>
      unfold matchesFrom
      obtain ⟨hnone, hskips⟩ | ⟨found, hfound, start, hstart, hsize, hbefore, hat, hcounts⟩ :=
        findNext_eq pattern text hprevious
      · rw [hnone]
        exact .done hskips
      · rw [hfound]
        obtain ⟨-, hle, hstop⟩ := matchAt_span hsize hat
        refine .next hstart hsize hbefore hat hcounts (ih ?_ hstop ?_)
        · rintro last hlast
          exact (Option.some.inj hlast).symm
        · show text.size - found.span.stop + (if some found.span.stop = none then 1 else 0) < bound
          -- the next scan starts behind a match, so the step that was left over for the start is
          -- gone
          rw [if_neg (Option.some_ne_none _)]
          cases previous with
          | none =>
              rw [if_pos rfl] at hbound
              omega
          | some last =>
              obtain rfl : last = place := hprevious last rfl
              rw [if_neg (Option.some_ne_none _)] at hbound
              have hfurther : last < found.span.stop := by
                rcases Nat.eq_or_lt_of_le hstart with rfl | hlt
                · exact Nat.lt_of_le_of_ne hle fun hsame => hcounts ⟨hsame.symm, rfl⟩
                · exact Nat.lt_of_lt_of_le hlt hle
              omega

/-- All matches are a scan: the bound on their number suffices. -/
theorem scan_findAll (pattern : Pattern) (text : Array Char) :
    (pattern.finder text).Scan 0 none (pattern.findAll text) := by
  refine scan_matchesFrom (fun last hlast => nomatch hlast) (Nat.zero_le _) ?_
  simp only [if_true]
  omega

end Pattern

end TemplateBundle.Regex

import TemplateBundle.Options.ContentRules
import TemplateBundle.Proofs.Text.Trimming

/-!
# Which characters the rules for content drop

A character is dropped or kept because of the nearest characters around it that are no white space:
`ContentRules.drops` says so for a place in the text as it was, and `apply_drops` shows that the rules
leave exactly the other characters. White space is all that is ever dropped, so what is left has the
same characters around its places. From this follow that the rules leave no gap, that they change
nothing a second time, and that their order does not matter.
-/

namespace TemplateBundle

open Text (isWhite trimStart trimEnd trimList IsWhiteText)

variable {before behind text white : List Char} {c : Char}

/-! ## Places -/

/-- What decides about a place: the characters before it, the nearest first, the one at it, and those
behind it. -/
abbrev Decision := List Char → Char → List Char → Bool

/-- The first character that is no white space. -/
def firstSolid (text : List Char) : Option Char :=
  text.find? fun c => !isWhite c

namespace ContentRules

/-- The character is white space, with nothing but white space between it and a `>` before it, and
between it and a `<` behind it. -/
def inGap : Decision := fun before c behind =>
  isWhite c && firstSolid before == some '>' && firstSolid behind == some '<'

/-- The character is white space, with nothing but white space before it or behind it. -/
def atEnd : Decision := fun before c behind =>
  isWhite c && ((firstSolid before).isNone || (firstSolid behind).isNone)

/-- The characters that the rules name. -/
def drops (rules : ContentRules) : Decision := fun before c behind =>
  rules.collapse && inGap before c behind || rules.trim && atEnd before c behind

end ContentRules

/-- What is left of a text behind other characters, the nearest first, without the characters that are
dropped. -/
def keepFrom (drops : Decision) : (before text : List Char) → List Char
  | _, [] => []
  | before, c :: behind =>
      if drops before c behind then keepFrom drops (c :: before) behind
      else c :: keepFrom drops (c :: before) behind

/-- Only white space is dropped. -/
def DropsWhite (drops : Decision) : Prop :=
  ∀ before c behind, drops before c behind = true → isWhite c = true

/-! ## Characters that are no white space -/

theorem first_solid_white (hc : isWhite c = true) : firstSolid (c :: text) = firstSolid text := by
  simp [firstSolid, hc]

theorem first_solid_solid (hc : isWhite c = false) : firstSolid (c :: text) = some c := by
  simp [firstSolid, hc]

theorem first_solid_eq_none_iff : firstSolid text = none ↔ IsWhiteText text := by
  simp [firstSolid, IsWhiteText]

theorem first_solid_append_white (hwhite : IsWhiteText white) (text : List Char) :
    firstSolid (text ++ white) = firstSolid text := by
  rw [firstSolid, List.find?_append, ← firstSolid, ← firstSolid, first_solid_eq_none_iff.mpr hwhite,
    Option.or_none]

theorem first_solid_white_append (hwhite : IsWhiteText white) (text : List Char) :
    firstSolid (white ++ text) = firstSolid text := by
  rw [firstSolid, List.find?_append, ← firstSolid, ← firstSolid, first_solid_eq_none_iff.mpr hwhite,
    Option.none_or]

/-! ## Texts with characters left out -/

namespace DropsWhite

variable {drops : Decision}

/-- Behind a place the first character that is no white space stays the same one. -/
theorem first_solid_keep (hdrops : DropsWhite drops) (before text : List Char) :
    firstSolid (keepFrom drops before text) = firstSolid text := by
  induction text generalizing before with
  | nil => rfl
  | cons c behind ih =>
      unfold keepFrom
      split_ifs with hdrop
      · rw [ih, first_solid_white (hdrops _ _ _ hdrop)]
      · cases hc : isWhite c with
        | true => rw [first_solid_white hc, first_solid_white hc, ih]
        | false => rw [first_solid_solid hc, first_solid_solid hc]

theorem white_keep_iff (hdrops : DropsWhite drops) (before text : List Char) :
    IsWhiteText (keepFrom drops before text) ↔ IsWhiteText text := by
  rw [← first_solid_eq_none_iff, ← first_solid_eq_none_iff, hdrops.first_solid_keep]

end DropsWhite

theorem keep_sublist (drops : Decision) (before text : List Char) :
    (keepFrom drops before text).Sublist text := by
  induction text generalizing before with
  | nil => exact .slnil
  | cons c behind ih =>
      unfold keepFrom
      split_ifs
      · exact (ih _).cons c
      · exact (ih _).cons_cons c

/-- Nothing is left out where no character is dropped. -/
theorem keep_eq_self_iff {drops : Decision} : keepFrom drops before text = text ↔
    ∀ front c behind, text = front ++ c :: behind →
      drops (front.reverse ++ before) c behind = false := by
  induction text generalizing before with
  | nil => simp [keepFrom]
  | cons c text ih =>
      constructor
      · intro hkeep front d behind htext
        rw [keepFrom] at hkeep
        split_ifs at hkeep with hdrop
        · have hlength := (keep_sublist drops (c :: before) text).length_le
          rw [hkeep, List.length_cons] at hlength
          omega
        · cases front with
          | nil =>
              obtain ⟨rfl, rfl⟩ := List.cons.inj htext
              exact Bool.not_eq_true _ ▸ hdrop
          | cons e front =>
              obtain ⟨rfl, hrest⟩ := List.cons.inj htext
              have h := ih.mp (List.cons.inj hkeep).2 front d behind hrest
              simpa using h
      · intro h
        have hhere := h [] c text rfl
        rw [List.reverse_nil, List.nil_append] at hhere
        rw [keepFrom, hhere, if_neg Bool.false_ne_true, ih.mpr]
        intro front d behind htext
        have hbehind := h (c :: front) d behind (congrArg (c :: ·) htext)
        simpa using hbehind

/-- Where the decisions are the same, the same is left. -/
theorem keep_congr {drops drops' : Decision} (h : ∀ front c behind, text = front ++ c :: behind →
    drops (front.reverse ++ before) c behind = drops' (front.reverse ++ before) c behind) :
    keepFrom drops before text = keepFrom drops' before text := by
  induction text generalizing before with
  | nil => rfl
  | cons c text ih =>
      have hhere := h [] c text rfl
      rw [List.reverse_nil, List.nil_append] at hhere
      rw [keepFrom, keepFrom, hhere, ih]
      intro front d behind htext
      have hbehind := h (c :: front) d behind (congrArg (c :: ·) htext)
      simpa using hbehind

/-- The decision that drops no character. -/
def dropsNone : Decision := fun _ _ _ => false

theorem drops_none : DropsWhite dropsNone := by
  intro before c behind h
  nomatch h

theorem keep_none (before text : List Char) : keepFrom dropsNone before text = text :=
  keep_eq_self_iff.mpr fun _ _ _ _ => rfl

/-! ## Trimming -/

theorem is_white_nil : IsWhiteText [] :=
  fun _ hmem => absurd hmem List.not_mem_nil

theorem trim_end_white (hwhite : IsWhiteText white) : trimEnd white = [] := by
  have h := Text.trim_end_append_white hwhite []
  rwa [List.nil_append] at h

/-- A character goes on the end if it is white space and nothing else is left behind it. -/
theorem trim_end_cons (h : isWhite c = true → ¬ IsWhiteText text) :
    trimEnd (c :: text) = c :: trimEnd text := by
  unfold trimEnd
  rw [List.reverse_cons, List.dropWhile_append]
  split_ifs with hempty
  · have hwhite : IsWhiteText text := by
      have hreverse := List.dropWhile_eq_nil_iff.mp (List.isEmpty_iff.mp hempty)
      exact fun d hd => hreverse d (List.mem_reverse.mpr hd)
    have hc : isWhite c = false := by
      by_contra hc
      exact h (by simpa using hc) hwhite
    simp [hc, List.isEmpty_iff.mp hempty]
  · rw [List.reverse_append]
    rfl

namespace ContentRules

/-- Characters at the ends are dropped besides others. -/
def orAtEnd (drops : Decision) : Decision := fun before c behind =>
  drops before c behind || atEnd before c behind

variable {drops : Decision}

/-- Behind a character that is no white space only the end of the text is trimmed. -/
theorem keep_or_at_end_inside (hdrops : DropsWhite drops) (hbefore : ¬ IsWhiteText before) :
    keepFrom (orAtEnd drops) before text = trimEnd (keepFrom drops before text) := by
  have hsolid {before : List Char} (h : ¬ IsWhiteText before) : (firstSolid before).isNone = false := by
    rw [← Bool.not_eq_true, Option.isNone_iff_eq_none, first_solid_eq_none_iff]
    exact h
  induction text generalizing before with
  | nil => rfl
  | cons c behind ih =>
      have hlonger : ¬ IsWhiteText (c :: before) := fun h => hbefore fun d hd =>
        h d (List.mem_cons_of_mem c hd)
      rw [keepFrom, keepFrom, ih hlonger, orAtEnd, atEnd, hsolid hbefore, Bool.false_or]
      cases hdrop : drops before c behind with
      | true => rfl
      | false =>
          rw [Bool.false_or, if_neg Bool.false_ne_true]
          split_ifs with hend
          · rw [Bool.and_eq_true, Option.isNone_iff_eq_none, first_solid_eq_none_iff] at hend
            have hrest := (hdrops.white_keep_iff (c :: before) behind).mpr hend.2
            rw [trim_end_white hrest, trim_end_white (List.forall_mem_cons.mpr ⟨hend.1, hrest⟩)]
          · rw [trim_end_cons]
            intro hc hrest
            refine hend ?_
            rw [Bool.and_eq_true, Option.isNone_iff_eq_none, first_solid_eq_none_iff]
            exact ⟨hc, (hdrops.white_keep_iff _ _).mp hrest⟩

/-- Dropping characters at the ends, too, is trimming what is left. -/
theorem keep_or_at_end (hdrops : DropsWhite drops) (hbefore : IsWhiteText before)
    (text : List Char) :
    keepFrom (orAtEnd drops) before text = trimList (keepFrom drops before text) := by
  induction text generalizing before with
  | nil => rfl
  | cons c behind ih =>
      have hnone := first_solid_eq_none_iff.mpr hbefore
      rw [keepFrom, keepFrom, orAtEnd, atEnd, hnone, Option.isNone_none, Bool.true_or, Bool.and_true]
      cases hc : isWhite c with
      | true =>
          rw [Bool.or_true, if_pos rfl, ih (List.forall_mem_cons.mpr ⟨hc, hbefore⟩)]
          split_ifs
          · rfl
          · have hsingle : IsWhiteText [c] := by simpa [IsWhiteText] using hc
            exact (Text.trim_list_white_append hsingle _).symm
      | false =>
          have hkeep : drops before c behind = false := by
            by_contra hdrop
            have hwhite := hdrops _ _ _ (by simpa using hdrop)
            exact Bool.false_ne_true (hc.symm.trans hwhite)
          have hsolid : ¬ IsWhiteText (c :: before) := fun h =>
            Bool.false_ne_true (hc.symm.trans (h c List.mem_cons_self))
          rw [hkeep, Bool.or_false, if_neg Bool.false_ne_true, if_neg Bool.false_ne_true,
            keep_or_at_end_inside hdrops hsolid]
          unfold trimList trimStart
          rw [List.dropWhile_cons_of_neg (by simp [hc]), trim_end_cons (by simp [hc])]

/-! ## Gaps -/

theorem in_gap_drops_white : DropsWhite inGap := by
  intro before c behind h
  simp only [inGap, Bool.and_eq_true] at h
  exact h.1.1

/-- Only the first characters that are no white space decide. -/
theorem in_gap_congr {before' behind' : List Char} (hbefore : firstSolid before = firstSolid before')
    (hbehind : firstSolid behind = firstSolid behind') :
    inGap before c behind = inGap before' c behind' := by
  unfold inGap
  rw [hbefore, hbehind]

theorem keep_in_gap_congr {before' : List Char} (h : firstSolid before = firstSolid before') :
    keepFrom inGap before text = keepFrom inGap before' text := by
  induction text generalizing before before' with
  | nil => rfl
  | cons c behind ih =>
      have hbehind : firstSolid (c :: before) = firstSolid (c :: before') := by
        cases hc : isWhite c with
        | true => rw [first_solid_white hc, first_solid_white hc, h]
        | false => rw [first_solid_solid hc, first_solid_solid hc]
      rw [keepFrom, keepFrom, in_gap_congr h rfl, ih hbehind]

/-- A gap is dropped up to the `<` that closes it. -/
theorem keep_gap (hwhite : IsWhiteText white) (hbefore : firstSolid before = some '>') :
    keepFrom inGap before (white ++ '<' :: text) = '<' :: keepFrom inGap ['<'] text := by
  induction white generalizing before with
  | nil =>
      have hclosing : inGap before '<' text = false := rfl
      rw [List.nil_append, keepFrom, hclosing, if_neg Bool.false_ne_true]
      exact congrArg _ (keep_in_gap_congr rfl)
  | cons c white ih =>
      obtain ⟨hc, hrest⟩ := List.forall_mem_cons.mp hwhite
      have hgap : inGap before c (white ++ '<' :: text) = true := by
        unfold inGap
        rw [hc, hbefore, first_solid_white_append hrest]
        rfl
      rw [List.cons_append, keepFrom, hgap, if_pos rfl, ih hrest]
      rwa [first_solid_white hc]

/-- A gap is found where white space stands in front of a `<`. -/
theorem after_gap_eq_some_iff {rest : List Char} : afterGap? text = some rest ↔
    ∃ white, white ≠ [] ∧ IsWhiteText white ∧ text = white ++ '<' :: rest := by
  have hbracket : isWhite '<' = false := by decide
  constructor
  · intro h
    cases text with
    | nil => exact absurd h (Option.some_ne_none _).symm
    | cons c text =>
        rw [afterGap?] at h
        split_ifs at h with hc
        split at h
        · rename_i found hfound
          obtain rfl := Option.some.inj h
          refine ⟨(c :: text).takeWhile isWhite, ?_, ?_, ?_⟩
          · rw [List.takeWhile_cons_of_pos hc]
            exact List.cons_ne_nil _ _
          · exact fun d hd => List.all_eq_true.mp List.all_takeWhile d hd
          · rw [← hfound, List.takeWhile_append_dropWhile]
        · exact absurd h (Option.some_ne_none _).symm
  · rintro ⟨white, hne, hwhite, rfl⟩
    obtain ⟨c, white, rfl⟩ := List.exists_cons_of_ne_nil hne
    have hdrop : (c :: white ++ '<' :: rest).dropWhile isWhite = '<' :: rest := by
      rw [List.dropWhile_append_of_pos hwhite, List.dropWhile_cons_of_neg (by simp [hbracket])]
    rw [List.cons_append] at hdrop
    rw [List.cons_append, afterGap?, if_pos (hwhite c List.mem_cons_self), hdrop]
    rfl

/-- White space between `>` and `<` is a gap. -/
theorem exists_after_gap (hc : inGap before c behind = true) :
    ∃ rest, afterGap? (c :: behind) = some rest := by
  simp only [inGap, Bool.and_eq_true, beq_iff_eq] at hc
  obtain ⟨⟨hwhite, -⟩, hbehind⟩ := hc
  obtain ⟨-, front, rest, rfl, hfront⟩ := List.find?_eq_some_iff_append.mp hbehind
  refine ⟨rest, after_gap_eq_some_iff.mpr ⟨c :: front, List.cons_ne_nil _ _, ?_, rfl⟩⟩
  exact List.forall_mem_cons.mpr ⟨hwhite, fun d hd => by simpa using hfront d hd⟩

/-- Looking for gaps from left to right drops the characters in gaps, if the text starts in none. The
induction is on the length of the text, of which a gap takes several characters. -/
theorem collapse_eq_keep (hstart : ∀ c behind, text = c :: behind → inGap before c behind = false) :
    collapseGaps text = keepFrom inGap before text := by
  induction hlength : text.length using Nat.strong_induction_on generalizing before text with
  | _ length ih =>
    subst hlength
    cases text with
    | nil => simp [collapseGaps, keepFrom]
    | cons c behind =>
        -- the rest of the text may start in no gap, or nothing is known of the characters in front
        -- of it
        have hnext {before : List Char}
            (hnone : ∀ d rest, behind = d :: rest → inGap before d rest = false) :
            collapseGaps behind = keepFrom inGap before behind :=
          ih _ (by simp) hnone rfl
        rw [collapseGaps, keepFrom, hstart c behind rfl, if_neg Bool.false_ne_true]
        split_ifs with hopening
        · subst hopening
          split
          · rename_i rest hgap
            obtain ⟨white, -, hwhite, rfl⟩ := after_gap_eq_some_iff.mp hgap
            rw [keep_gap hwhite rfl]
            congr 2
            refine ih _ ?_ (fun d rest _ => by unfold inGap; simp [firstSolid, isWhite]) rfl
            simp only [List.length_cons, List.length_append]
            omega
          · rename_i hgap
            refine congrArg _ (hnext fun d rest hbehind => ?_)
            by_contra hin
            obtain ⟨after, hafter⟩ := exists_after_gap (by simpa using hin)
            rw [← hbehind, hgap] at hafter
            exact absurd hafter (Option.some_ne_none _).symm
        · refine congrArg _ (hnext fun d rest hbehind => ?_)
          subst hbehind
          have hno := hstart c _ rfl
          unfold inGap at hno ⊢
          cases hc : isWhite c with
          | true =>
              cases hd : isWhite d with
              | true => simpa [hc, first_solid_white hc, first_solid_white hd] using hno
              | false => simp
          | false => simp [first_solid_solid hc, hopening]

/-- Looking for gaps drops the characters in gaps. -/
theorem collapse_gaps_eq (text : List Char) : collapseGaps text = keepFrom inGap [] text :=
  collapse_eq_keep fun c behind _ => by simp [inGap, firstSolid]

/-! ## What the rules leave -/

/-- A text without gaps has none to collapse. -/
theorem collapse_collapse (text : List Char) :
    collapseGaps (collapseGaps text) = collapseGaps text := by
  have hkeep (before before' : List Char) (h : firstSolid before = firstSolid before') :
      keepFrom inGap before' (keepFrom inGap before text) = keepFrom inGap before text := by
    induction text generalizing before before' with
    | nil => rfl
    | cons c behind ih =>
        have hbehind : firstSolid (c :: before) = firstSolid (c :: before') := by
          cases hc : isWhite c with
          | true => rw [first_solid_white hc, first_solid_white hc, h]
          | false => rw [first_solid_solid hc, first_solid_solid hc]
        rw [keepFrom]
        split_ifs with hgap
        · have hc := in_gap_drops_white _ _ _ hgap
          exact ih _ _ (by rw [first_solid_white hc, h])
        · have hkept := in_gap_drops_white.first_solid_keep (c :: before) behind
          have hsame := in_gap_congr (c := c) h hkept.symm
          rw [keepFrom, ← hsame, if_neg hgap, ih _ _ hbehind]
  rw [collapse_gaps_eq, collapse_gaps_eq]
  exact hkeep [] [] rfl

theorem trim_trim (text : List Char) : trimList (trimList text) = trimList text := by
  obtain ⟨front, back, hfront, hback, htext⟩ := Text.exists_around_trimmed text
  conv_rhs => rw [htext]
  rw [Text.trim_list_append_white hback, Text.trim_list_white_append hfront]

/-- White space around a text is in no gap. -/
theorem keep_in_gap_append_white (hwhite : IsWhiteText white) (before text : List Char) :
    keepFrom inGap before (text ++ white) = keepFrom inGap before text ++ white := by
  induction text generalizing before with
  | nil =>
      refine keep_eq_self_iff.mpr fun front c behind htext => ?_
      have hbehind : IsWhiteText behind := fun d hd => hwhite d (by
        rw [← List.nil_append white, htext]
        simp [hd])
      unfold inGap
      rw [first_solid_eq_none_iff.mpr hbehind]
      simp
  | cons c behind ih =>
      have hsame : inGap before c (behind ++ white) = inGap before c behind :=
        in_gap_congr rfl (first_solid_append_white hwhite behind)
      rw [List.cons_append, keepFrom, keepFrom, hsame, ih]
      split_ifs
      · rfl
      · rfl

theorem keep_in_gap_white_append (hwhite : IsWhiteText white) (hbefore : IsWhiteText before)
    (text : List Char) :
    keepFrom inGap before (white ++ text) = white ++ keepFrom inGap [] text := by
  induction white generalizing before with
  | nil => exact keep_in_gap_congr (first_solid_eq_none_iff.mpr hbefore)
  | cons c white ih =>
      obtain ⟨hc, hrest⟩ := List.forall_mem_cons.mp hwhite
      have hno : inGap before c (white ++ text) = false := by
        unfold inGap
        rw [first_solid_eq_none_iff.mpr hbefore]
        simp
      rw [List.cons_append, keepFrom, hno, if_neg Bool.false_ne_true,
        ih hrest (List.forall_mem_cons.mpr ⟨hc, hbefore⟩), List.cons_append]

/-- Gaps are inside the text that trimming leaves. -/
theorem collapse_trim (text : List Char) :
    collapseGaps (trimList text) = trimList (collapseGaps text) := by
  obtain ⟨front, back, hfront, hback, htext⟩ := Text.exists_around_trimmed text
  have hends : keepFrom (orAtEnd dropsNone) [] (trimList text) = trimList text := by
    rw [keep_or_at_end drops_none is_white_nil, keep_none, trim_trim]
  have hinside : keepFrom inGap [] (trimList text) =
      keepFrom (orAtEnd inGap) [] (trimList text) := by
    refine keep_congr fun front c behind htext => ?_
    have hno := keep_eq_self_iff.mp hends front c behind htext
    rw [orAtEnd, dropsNone, Bool.false_or] at hno
    rw [orAtEnd, hno, Bool.or_false]
  have hall : collapseGaps text = front ++ keepFrom inGap [] (trimList text) ++ back := by
    conv_lhs => rw [htext]
    rw [collapse_gaps_eq, keep_in_gap_append_white hback, keep_in_gap_white_append hfront is_white_nil]
  rw [hall, Text.trim_list_append_white hback, Text.trim_list_white_append hfront, collapse_gaps_eq,
    ← keep_or_at_end in_gap_drops_white is_white_nil]
  exact hinside

theorem in_gap_of_white {gap : List Char} (hwhite : IsWhiteText (c :: gap))
    (front rest : List Char) :
    inGap ('>' :: front) c (gap ++ '<' :: rest) = true := by
  obtain ⟨hc, hgap⟩ := List.forall_mem_cons.mp hwhite
  unfold inGap
  rw [hc, first_solid_white_append hgap]
  rfl

/-- What the rules leave, as a list of characters. -/
theorem toList_apply (rules : ContentRules) (text : String) :
    (rules.apply text).toList =
      let inside := if rules.collapse then collapseGaps text.toList else text.toList
      if rules.trim then trimList inside else inside := by
  obtain ⟨trim, collapse⟩ := rules
  cases trim <;> cases collapse <;> simp [apply, Text.trim]

/-- The rules drop the characters that they name and keep all others. -/
theorem apply_eq_keep (rules : ContentRules) (text : String) :
    (rules.apply text).toList = keepFrom rules.drops [] text.toList := by
  obtain ⟨trim, collapse⟩ := rules
  rw [toList_apply]
  cases collapse with
  | false =>
      cases trim with
      | false => exact (keep_none [] _).symm
      | true =>
          have hends := keep_or_at_end drops_none is_white_nil text.toList
          rw [keep_none] at hends
          exact hends.symm
  | true =>
      cases trim with
      | false =>
          refine (collapse_gaps_eq _).trans (keep_congr fun _ _ _ _ => ?_)
          simp [drops]
      | true =>
          have hends := keep_or_at_end in_gap_drops_white is_white_nil text.toList
          rw [← collapse_gaps_eq] at hends
          exact hends.symm

/-- A second time the rules change nothing. -/
theorem apply_apply (rules : ContentRules) (text : String) :
    rules.apply (rules.apply text) = rules.apply text := by
  obtain ⟨trim, collapse⟩ := rules
  refine String.toList_injective ?_
  simp only [toList_apply]
  cases trim <;> cases collapse
  · rfl
  · exact collapse_collapse _
  · exact trim_trim _
  · show trimList (collapseGaps (trimList (collapseGaps text.toList))) = _
    rw [collapse_trim, collapse_collapse, trim_trim]
    rfl

/-- The rules drop exactly the white space that they name: with `collapse` the white space between a
`>` and a `<`, with `trim` the white space at the ends. So no gap is left with `collapse`, the rules
change nothing a second time, and dropping gaps and trimming may come in any order. -/
theorem apply_drops (rules : ContentRules) (text : String) :
    (rules.apply text).toList = keepFrom rules.drops [] text.toList ∧
      (rules.apply text).toList.Sublist text.toList ∧
      (rules.collapse = true → ∀ front gap rest, IsWhiteText gap →
        (rules.apply text).toList = front ++ '>' :: (gap ++ '<' :: rest) → gap = []) ∧
      rules.apply (rules.apply text) = rules.apply text ∧
      apply { trim := true } (apply { collapse := true } text) =
        apply { trim := true, collapse := true } text ∧
      apply { collapse := true } (apply { trim := true } text) =
        apply { trim := true, collapse := true } text := by
  refine ⟨apply_eq_keep rules text, ?_, fun hcollapse front gap rest hgap hleft => ?_,
    apply_apply rules text, ?_, ?_⟩
  · rw [apply_eq_keep]
    exact keep_sublist _ _ _
  · -- a gap would be dropped by the rules a second time
    have hkeep : keepFrom rules.drops [] (rules.apply text).toList = (rules.apply text).toList := by
      rw [← apply_eq_keep, apply_apply]
    cases gap with
    | nil => rfl
    | cons c gap =>
        have hno := keep_eq_self_iff.mp hkeep (front ++ ['>']) c (gap ++ '<' :: rest)
          (by rw [hleft]; simp)
        rw [List.append_nil, List.reverse_append] at hno
        have hin := in_gap_of_white hgap front.reverse rest
        simp only [List.reverse_singleton, List.singleton_append, drops, hcollapse, hin,
          Bool.true_and, Bool.true_or, Bool.true_eq_false] at hno
  · refine String.toList_injective ?_
    simp [toList_apply]
  · refine String.toList_injective ?_
    simp [toList_apply, collapse_trim]

end ContentRules

end TemplateBundle

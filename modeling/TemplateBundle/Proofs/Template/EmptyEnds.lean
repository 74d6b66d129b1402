import TemplateBundle.Proofs.Template.EmptyAppends

/-!
# Leaving out empty ends of sums

The rule for empty ends looks at whole lines: it applies where a line ends with a call and an empty
literal with the end of the statement is all of the next one. In the statements of a layout this is
the end of a sum with an empty literal, and there the rule applies to a value on one line.
-/

namespace TemplateBundle.Template

open Text (after? after_eq_none_iff after_eq_some_iff prefix_of_prefix_append line_inj)

variable {rest line next : List Char}

/-! ## Lines -/

/-- The end of a line at which the rule applies. -/
def callEnd : List Char := ") +".toList

/-- The start of the line behind it. -/
def emptyLine : List Char := "'';".toList

theorem empty_end_eq : emptyEnd = " +".toList ++ '\n' :: emptyLine := rfl

/-- A call is found in front of an empty end only if its line ends with it. -/
theorem call_before_empty_inv (hline : '\n' ∉ line)
    (h : callBeforeEmpty? (line ++ '\n' :: next) ≠ none) :
    callEnd <:+ line ∧ emptyLine <+: next := by
  induction line with
  | nil => exact absurd rfl h
  | cons c line ih =>
      have hc : c ≠ '\n' := fun heq => hline (heq ▸ List.mem_cons_self)
      have hline' : '\n' ∉ line := fun hmem => hline (List.mem_cons_of_mem _ hmem)
      -- the empty end has one line break, so it fits here only at the end of the line
      by_cases hhere : c = ')' ∧ emptyEnd <+: line ++ '\n' :: next
      · obtain ⟨rfl, behind, hbehind⟩ := hhere
        rw [empty_end_eq, List.append_assoc, List.cons_append] at hbehind
        obtain ⟨rfl, rfl⟩ := line_inj (by decide) hline' hbehind
        exact ⟨List.suffix_rfl, behind, rfl⟩
      · have hnone : (if c = ')' then after? emptyEnd (line ++ '\n' :: next) else none) = none := by
          split_ifs with hcall
          · exact after_eq_none_iff.mpr fun hprefix => hhere ⟨hcall, hprefix⟩
          · rfl
        rw [List.cons_append] at h
        unfold callBeforeEmpty? at h
        simp only [hc, if_false, hnone, ne_eq, Option.map_eq_none_iff] at h
        obtain ⟨hsuffix, hprefix⟩ := ih hline' h
        exact ⟨hsuffix.trans (List.suffix_cons c line), hprefix⟩

/-- A call on one line is found in front of an empty end. The induction is on the line: no part of
it looks like the empty end, which starts behind it. -/
theorem call_before_empty_eq (hline : '\n' ∉ line) :
    callBeforeEmpty? (line ++ ")".toList ++ emptyEnd ++ rest) =
      some (line ++ ")".toList, rest) := by
  induction line with
  | nil =>
      show callBeforeEmpty? (')' :: (emptyEnd ++ rest)) = _
      unfold callBeforeEmpty?
      simp [after_eq_some_iff.mpr rfl]
  | cons c line ih =>
      have hc : c ≠ '\n' := fun heq => hline (heq ▸ List.mem_cons_self)
      have hline' : '\n' ∉ line := fun hmem => hline (List.mem_cons_of_mem _ hmem)
      have hnone : after? emptyEnd (line ++ ")".toList ++ emptyEnd ++ rest) = none := by
        rw [after_eq_none_iff]
        rintro ⟨behind, hbehind⟩
        have hlines : " +".toList ++ '\n' :: (emptyLine ++ behind) =
            (line ++ callEnd) ++ '\n' :: (emptyLine ++ rest) := by
          simpa [empty_end_eq, callEnd] using hbehind
        have hsame := (line_inj (by decide) (by simp [hline', callEnd]) hlines).1
        have hlength := congrArg List.length hsame
        simp [callEnd] at hlength
      simp only [List.cons_append]
      unfold callBeforeEmpty?
      simp only [hc, if_false, hnone, ih hline', ite_self]
      rfl

/-- The rule applies at an escaped value in front of an empty end, or at the end of another
value. -/
theorem empty_last_cases {previous : Option Char} {text : List Char}
    (h : emptyLast previous text ≠ none) :
    (∃ call, text = "__e(".toList ++ call ∧ callBeforeEmpty? call ≠ none) ∨
      "__t)".toList ++ emptyEnd <+: text := by
  by_cases hvalue : "__t)".toList ++ emptyEnd <+: text
  · exact Or.inr hvalue
  · left
    unfold emptyLast at h
    rw [after_eq_none_iff.mpr hvalue] at h
    cases hescaped : after? "__e(".toList text with
    | none =>
        rw [hescaped] at h
        simp at h
    | some call =>
        refine ⟨call, after_eq_some_iff.mp hescaped, fun hcall => h ?_⟩
        rw [hescaped]
        simp [hcall]

/-- The rule applies only at the end of a line that ends with a call, in front of an empty
literal. -/
theorem empty_last_inv {previous : Option Char} (hline : '\n' ∉ line)
    (h : emptyLast previous (line ++ '\n' :: next) ≠ none) :
    callEnd <:+ line ∧ emptyLine <+: next := by
  rcases empty_last_cases h with ⟨call, htext, hcall⟩ | ⟨behind, htext⟩
  · obtain ⟨inside, rfl⟩ : "__e(".toList <+: line :=
      prefix_of_prefix_append ⟨call, htext.symm⟩ (by decide)
    rw [List.append_assoc] at htext
    obtain rfl := List.append_cancel_left htext
    have hinside : '\n' ∉ inside := fun hmem => hline (List.mem_append_right _ hmem)
    obtain ⟨hend, hempty⟩ := call_before_empty_inv hinside hcall
    exact ⟨hend.trans (List.suffix_append _ _), hempty⟩
  · have hlines : "__t) +".toList ++ '\n' :: (emptyLine ++ behind) = line ++ '\n' :: next := by
      simpa [empty_end_eq] using htext
    obtain ⟨rfl, rfl⟩ := line_inj (by decide) hline hlines
    exact ⟨by decide, List.prefix_append _ _⟩

/-- Where a line does not end with a call, or no empty literal follows, the rule does not apply in
the line. -/
theorem quiet_line (hline : '\n' ∉ line) (h : ¬ (callEnd <:+ line ∧ emptyLine <+: next)) :
    Quiet emptyLast line ('\n' :: next) := by
  refine quiet_of_suffixes fun c behind hsuffix previous => ?_
  by_contra hrule
  obtain ⟨hcall, hempty⟩ := empty_last_inv (fun hmem => hline (hsuffix.subset hmem)) hrule
  exact h ⟨hcall.trans hsuffix, hempty⟩

/-! ## Values -/

/-- The rule does not reach from an escaped value on several lines to a line behind it: the call
would have to end inside the code, with an empty end there. -/
theorem empty_last_none_of_break {code : List Char} (hplain : IsPlain code) (hbreak : '\n' ∈ code)
    (previous : Option Char) :
    emptyLast previous ("__e(".toList ++ code ++ ')' :: rest) = none := by
  -- the rule could only apply at the first line break, which lies inside the code
  obtain ⟨line, behind, rfl, hline⟩ := List.eq_append_cons_of_mem hbreak
  by_contra hrule
  have htext : "__e(".toList ++ (line ++ '\n' :: behind) ++ ')' :: rest =
      ("__e(".toList ++ line) ++ '\n' :: (behind ++ ')' :: rest) := by
    simp
  rw [htext] at hrule
  obtain ⟨hcall, hempty⟩ := empty_last_inv (by simp [hline]) hrule
  have hinside : emptyLine <+: behind := prefix_of_prefix_append hempty (by decide)
  have hend : " +".toList <:+ line := by
    have hplus : " +".toList <:+ "__e(".toList ++ line := List.IsSuffix.trans (by decide) hcall
    rcases List.suffix_or_suffix_of_suffix hplus (List.suffix_append _ line) with hline | hshort
    · exact hline
    · -- a line shorter than that would let the call end in the name in front of the code
      have hcases : line = [' ', '+'] ∨ line = ['+'] ∨ line = [] := by
        simpa [List.suffix_cons_iff] using hshort
      rcases hcases with rfl | rfl | rfl
      · exact List.suffix_rfl
      · exact absurd hcall (by decide)
      · exact absurd hcall (by decide)
  refine hplain.2 ?_
  obtain ⟨front, rfl⟩ := hend
  obtain ⟨back, rfl⟩ := hinside
  exact ⟨front, back, by simp [empty_end_eq]⟩

theorem quiet_call_start
    (hstart : ∀ previous, emptyLast previous ("__e(".toList ++ rest) = none) :
    Quiet emptyLast "__e(".toList rest := by
  show Quiet emptyLast ['_', '_', 'e', '('] rest
  refine ⟨hstart, ?_⟩
  simp [Quiet, emptyLast, after?]

/-- The rule does not apply in a value, if no empty literal follows, or the value is escaped and
stands on several lines. -/
theorem quiet_plain_value {summand : Summand} (hplain : IsPlain summand.code)
    (hkeep : ¬ emptyLine <+: next ∨ summand.isEscaped = true ∧ '\n' ∈ summand.code) :
    Quiet emptyLast (summand.value ++ " +".toList) ('\n' :: next) := by
  have hcode : ∀ rest, Quiet emptyLast summand.code (')' :: rest) :=
    fun _ => quiet_code headed_empty_last hplain (by decide)
  unfold Summand.value
  split_ifs with hescaped
  · refine .append (.append (.append (quiet_call_start fun previous => ?_) (hcode _)) ?_) ?_
    · by_cases hbreak : '\n' ∈ summand.code
      · rw [← List.append_assoc]
        exact empty_last_none_of_break hplain hbreak previous
      · have hnext : ¬ emptyLine <+: next := by simpa [hbreak] using hkeep
        by_contra hrule
        have hline : '\n' ∉ "__e(".toList ++ summand.code ++ ") +".toList := by
          simp [hbreak]
        have hrule' : emptyLast previous
            ("__e(".toList ++ summand.code ++ ") +".toList ++ '\n' :: next) ≠ none := by
          simpa using hrule
        exact hnext (empty_last_inv hline hrule').2
    · exact quiet_of_no_underscore headed_empty_last (by decide)
    · exact quiet_of_no_underscore headed_empty_last (by decide)
  · have hnext : ¬ emptyLine <+: next := by simpa [hescaped] using hkeep
    rw [List.append_assoc]
    refine .append (.append ?_ (hcode _)) (quiet_line (by decide) fun h => hnext h.2)
    simp [Quiet, emptyLast, after?]

theorem no_break_value {summand : Summand} (hline : '\n' ∉ summand.code) :
    '\n' ∉ summand.value := by
  unfold Summand.value
  split_ifs <;> simp [hline]

theorem quiet_value {summand : Summand} (hspared : IsSpared summand.code)
    (hkeep : ¬ emptyLine <+: next ∨ summand.isEscaped = true ∧ '\n' ∈ summand.code) :
    Quiet emptyLast (summand.value ++ " +".toList) ('\n' :: next) := by
  rcases hspared.plain_or_line with hplain | hline
  · exact quiet_plain_value hplain hkeep
  · have hnext := hkeep.resolve_right fun hbreak => hline hbreak.2
    refine quiet_line ?_ fun h => hnext h.2
    simp [no_break_value hline]

/-- Code that is run is kept: no sum ends with it. -/
theorem turns_last_code {code : List Char} (hspared : IsSpared code) :
    Turns emptyLast (code ++ ";\n".toList) (code ++ ";\n".toList) := by
  have hquiet (rest : List Char) : Quiet emptyLast (code ++ ";".toList) ("\n".toList ++ rest) := by
    rcases hspared.plain_or_line with hplain | hline
    · refine .append (quiet_code headed_empty_last hplain (by decide)) ?_
      exact quiet_of_no_underscore headed_empty_last (by decide)
    · refine quiet_line (by simp [hline]) fun h => ?_
      -- the line ends with another sign
      have hlast := List.suffix_or_suffix_of_suffix h.1 (List.suffix_append code ";".toList)
      exact absurd hlast (by decide)
  have hturns := Turns.behind_quiet hquiet (EndsWords.append ⟨';', by decide, by decide⟩ code)
    (turns_line_break headed_empty_last)
  rw [List.append_assoc] at hturns
  exact hturns

/-! ## Sums -/

/-- A literal is no empty line, if it holds text or the sum goes on behind it. -/
theorem not_empty_line {literal : List Char} {sign : Char} (h : literal ≠ [] ∨ sign ≠ ';') :
    ¬ emptyLine <+: '\'' :: (escapeText literal ++ '\'' :: sign :: rest) := by
  intro hprefix
  have hbehind := (List.cons_prefix_cons.mp hprefix).2
  cases literal with
  | nil =>
      have hsign := (List.cons_prefix_cons.mp (List.cons_prefix_cons.mp hbehind).2).1
      exact (h.resolve_left fun hne => hne rfl) hsign.symm
  | cons c literal =>
      rw [escapeText, List.flatMap_cons] at hbehind
      rcases escape_char_cases c with ⟨hescape, hc, -⟩ | ⟨behind, hescape, -, -⟩
      · rw [hescape] at hbehind
        exact hc (List.cons_prefix_cons.mp hbehind).1.symm
      · rw [hescape] at hbehind
        cases (List.cons_prefix_cons.mp hbehind).1

/-- The rule does not apply in a line that ends with a literal and the sign behind it. -/
theorem quiet_literal_line (literal : List Char) {front ending : List Char} (hfront : '\n' ∉ front)
    (hbreak : '\n' ∉ ending) (hend : ¬ callEnd <:+ '\'' :: ending) :
    Quiet emptyLast (front ++ escapeText literal ++ '\'' :: ending) ('\n' :: next) := by
  refine quiet_line ?_ fun h => ?_
  · simp [no_break_escape_text, hfront, hbreak]
  · rcases List.suffix_or_suffix_of_suffix h.1 (List.suffix_append _ _) with hcall | hquote
    · exact hend hcall
    · exact absurd (hquote.subset List.mem_cons_self) (by decide)

/-- A value with its literal, up to the end of the line, is quiet if the literal is not left out. -/
theorem quiet_summand {summand : Summand} (hspared : IsSpared summand.code) {sign : Char}
    {ending : List Char} (hbreak : '\n' ∉ sign :: ending)
    (hend : ¬ callEnd <:+ '\'' :: sign :: ending)
    (hkeep : sign ≠ ';' ∨ summand.isOpen = false) :
    Quiet emptyLast (summand.value ++ " +\n'".toList ++ escapeText summand.literal ++
      '\'' :: sign :: ending) ('\n' :: rest) := by
  have hnext : ¬ emptyLine <+:
        '\'' :: (escapeText summand.literal ++ '\'' :: sign :: (ending ++ '\n' :: rest)) ∨
      summand.isEscaped = true ∧ '\n' ∈ summand.code := by
    by_cases hliteral : summand.literal ≠ [] ∨ sign ≠ ';'
    · exact Or.inl (not_empty_line hliteral)
    · obtain ⟨hliteral, hsign⟩ : summand.literal = [] ∧ sign = ';' := by simpa using hliteral
      have hopen := hkeep.resolve_left (fun hne => hne hsign)
      exact Or.inr (by simpa [Summand.isOpen, hliteral] using hopen)
  have hlines : summand.value ++ " +\n'".toList ++ escapeText summand.literal ++
        '\'' :: sign :: ending =
      (summand.value ++ " +".toList) ++ ("\n".toList ++
        ("'".toList ++ escapeText summand.literal ++ '\'' :: sign :: ending)) := by
    simp
  rw [hlines]
  refine .append ?_ (.append (quiet_of_no_underscore headed_empty_last (by decide)) ?_)
  · simpa using quiet_value hspared hnext
  · exact quiet_literal_line summand.literal (by decide) hbreak hend

/-- The rule applies to an escaped value on one line. -/
theorem empty_last_escaped {code : List Char} (hline : '\n' ∉ code) (previous : Option Char) :
    emptyLast previous ("__e(".toList ++ code ++ ")".toList ++ emptyEnd ++ rest) =
      some ("__e(".toList ++ code ++ ")".toList ++ ";".toList, rest) := by
  have hcall : callBeforeEmpty? (code ++ ")".toList ++ emptyEnd ++ rest) =
      some (code ++ ")".toList, rest) := call_before_empty_eq hline
  have hstart : after? "__e(".toList ("__e(".toList ++ code ++ ")".toList ++ emptyEnd ++ rest) =
      some (code ++ ")".toList ++ emptyEnd ++ rest) := by
    rw [after_eq_some_iff]
    simp only [List.append_assoc]
  unfold emptyLast
  rw [hstart]
  simp only [hcall]
  simp

/-- The rule applies at the end of a value that is not escaped. -/
theorem empty_last_value {previous : Option Char} (hstart : startsWord previous = true) :
    emptyLast previous ("__t)".toList ++ emptyEnd ++ rest) = some ("__t);".toList, rest) := by
  have hvalue : after? ("__t)".toList ++ emptyEnd) ("__t)".toList ++ emptyEnd ++ rest) =
      some rest := after_eq_some_iff.mpr rfl
  have hescaped : after? "__e(".toList ("__t)".toList ++ emptyEnd ++ rest) = none := by
    simp [after?]
  unfold emptyLast
  rw [hvalue, hescaped, hstart]
  rfl

/-- In front of the end of a value that is not escaped the rule applies nowhere but at a call on the
same line. -/
theorem empty_last_before_value {previous : Option Char} {front : List Char} (hne : front ≠ [])
    (hfront : '\n' ∉ front) (hcall : ¬ "__e(".toList <+: front ++ "__t".toList) :
    emptyLast previous (front ++ "__t)".toList ++ emptyEnd ++ rest) = none := by
  by_contra hrule
  rcases empty_last_cases hrule with ⟨call, htext, -⟩ | ⟨behind, htext⟩
  · have hprefix : "__e(".toList <+: (front ++ "__t".toList) ++ ')' :: (emptyEnd ++ rest) :=
      ⟨call, by rw [← htext]; simp⟩
    exact hcall (prefix_of_prefix_append hprefix (by decide))
  · have hlines : "__t) +".toList ++ '\n' :: (emptyLine ++ behind) =
        (front ++ "__t) +".toList) ++ '\n' :: (emptyLine ++ rest) := by
      simpa [empty_end_eq] using htext
    have hsame := (line_inj (by decide) (by simp [hfront]) hlines).1
    have hlength := congrArg List.length hsame
    simp [hne] at hlength

/-- Where a call on the same line reaches the end of the value, the rule gives the same result. -/
theorem empty_last_across_value {front : List Char} (hfront : '\n' ∉ front)
    (hcall : "__e(".toList <+: front ++ "__t".toList) (previous : Option Char) :
    emptyLast previous (front ++ "__t)".toList ++ emptyEnd ++ rest) =
      some (front ++ "__t);".toList, rest) := by
  obtain ⟨inside, hinside⟩ := hcall
  have hvalue : '\n' ∉ front ++ "__t".toList := by simp [hfront]
  have hline : '\n' ∉ inside := fun hmem => hvalue (hinside ▸ List.mem_append_right _ hmem)
  have htext : front ++ "__t)".toList ++ emptyEnd ++ rest =
      "__e(".toList ++ inside ++ ")".toList ++ emptyEnd ++ rest := by
    rw [hinside]
    simp
  have hresult : front ++ "__t);".toList = "__e(".toList ++ inside ++ ")".toList ++ ";".toList := by
    rw [hinside]
    simp
  rw [htext, hresult]
  exact empty_last_escaped hline previous

/-- Before the end of a value that is not escaped the rule may apply to a call on the same line, with
the same result. The induction is on what stands in front of the end. -/
theorem rewrites_value {front result : List Char} (hfront : '\n' ∉ front) {previous : Option Char}
    (hstart : startsWord (front.getLast?.or previous) = true)
    (hrest : Rewrites emptyLast none rest result) :
    Rewrites emptyLast previous (front ++ "__t)".toList ++ emptyEnd ++ rest)
      (front ++ "__t);".toList ++ result) := by
  induction front generalizing previous with
  | nil =>
      refine .hit (empty_last_value hstart) ?_ hrest
      simp
      omega
  | cons c front ih =>
      by_cases hcall : "__e(".toList <+: c :: front ++ "__t".toList
      · refine .hit (empty_last_across_value hfront hcall previous) ?_ hrest
        simp
        omega
      · have hbehind : '\n' ∉ front := fun hmem => hfront (List.mem_cons_of_mem _ hmem)
        refine .miss (empty_last_before_value (List.cons_ne_nil c front) hfront hcall)
          (ih hbehind ?_)
        rw [List.getLast?_cons] at hstart
        cases hlast : front.getLast? <;> simpa [hlast] using hstart

/-- A value on one line without a literal behind it ends the statement. -/
theorem turns_open {summand : Summand} (hspared : IsSpared summand.code)
    (hopen : summand.isOpen = true) :
    Turns emptyLast (summand.value ++ emptyEnd) (summand.value ++ ";".toList) := by
  unfold Summand.value
  split_ifs with hescaped
  · have hline : '\n' ∉ summand.code := by
      simpa [Summand.isOpen, hescaped] using (Bool.and_eq_true_iff.mp hopen).2
    exact .of_hit (by simp) fun previous rest _ => empty_last_escaped hline previous
  · have hend : EndsWords ("((__t = (".toList ++ summand.code ++ ")) == null ? '' : ".toList) :=
      EndsWords.append ⟨' ', by decide, by decide⟩ _
    -- code that is spared has no underscore that the rule could start at, or stays on one line
    rcases hspared.plain_or_line with hplain | hline
    · have hvalue : Turns emptyLast ("__t)".toList ++ emptyEnd) "__t);".toList :=
        .of_hit (by simp) fun _ _ hstart => empty_last_value hstart
      have hquiet : ∀ rest, Quiet emptyLast
          ("((__t = (".toList ++ summand.code ++ ")) == null ? '' : ".toList) rest := by
        intro rest
        refine .append (.append ?_ (quiet_code headed_empty_last hplain (by decide))) ?_
        · simp [Quiet, emptyLast, after?]
        · exact quiet_of_no_underscore headed_empty_last (by decide)
      have h := hvalue.behind_quiet (fun rest => hquiet _) hend
      simpa using h
    · intro previous rest result _ hrest
      obtain ⟨last, hlast, hword⟩ := hend
      have hstart : startsWord (Option.or (List.getLast? ("((__t = (".toList ++ summand.code ++
          ")) == null ? '' : ".toList)) previous) = true := by
        rw [hlast, Option.some_or]
        simp [startsWord, hword]
      have h := rewrites_value (by simp [hline]) hstart (hrest none rfl)
      simpa using h

theorem sum_lines_nil (summand : Summand) :
    sumLines summand [] = "\n".toList ++
      (summand.value ++ " +\n'".toList ++ escapeText summand.literal ++ ['\'', ';']) ++
        "\n".toList := by
  unfold sumLines
  rw [sum_tail_nil]
  simp only [List.append_assoc]
  rfl

/-- A sum goes on behind a literal with its next line. -/
theorem sum_lines_cons (summand other : Summand) (others : List Summand) :
    sumLines summand (other :: others) = "\n".toList ++
      (summand.value ++ " +\n'".toList ++ escapeText summand.literal ++ ['\'', ' ', '+']) ++
        sumLines other others := by
  unfold sumLines
  rw [sum_tail_cons]
  simp only [List.append_assoc]
  rfl

/-- The operands of a sum with signs for addition between them. -/
def sumText (sum : List Summand) : List Char :=
  List.intercalate " +\n".toList (operands sum)

theorem operands_ne_nil (summand : Summand) (others : List Summand) :
    operands (summand :: others) ≠ [] := by
  cases others with
  | nil =>
      unfold operands
      split_ifs <;> simp
  | cons other others => simp [operands]

theorem sum_text_last (summand : Summand) :
    sumText [summand] = if summand.isOpen then summand.value
      else summand.value ++ " +\n'".toList ++ escapeText summand.literal ++ ['\''] := by
  unfold sumText operands
  split_ifs
  · exact List.intercalate_singleton
  · rw [List.intercalate_cons_cons, List.intercalate_singleton, quoted]
    simp only [List.append_assoc]
    rfl

theorem sum_text_cons (summand other : Summand) (others : List Summand) :
    sumText (summand :: other :: others) = summand.value ++ " +\n'".toList ++
      escapeText summand.literal ++ ['\'', ' ', '+'] ++ "\n".toList ++
        sumText (other :: others) := by
  unfold sumText
  show List.intercalate _
    (summand.value :: quoted summand.literal :: operands (other :: others)) = _
  rw [List.intercalate_cons_cons, List.intercalate_cons_of_ne_nil (operands_ne_nil other others),
    quoted]
  simp only [List.append_assoc]
  rfl

/-- The statement for a sum, with an empty end left out. The induction is on the values: the literal
behind each of them but the last one is kept, because the sum goes on behind it. -/
theorem turns_sum_lines {summand : Summand} {others : List Summand}
    (hspared : AllSpared (summand :: others)) :
    Turns emptyLast (sumLines summand others)
      ("\n".toList ++ sumText (summand :: others) ++ ";".toList ++ "\n".toList) := by
  have hvalue := hspared summand List.mem_cons_self
  have hbreak := turns_line_break headed_empty_last
  induction others generalizing summand with
  | nil =>
      rw [sum_lines_nil, sum_text_last]
      split_ifs with hopen
      · -- the sum ends with an empty literal, which is the end that the rule leaves out
        have hliteral : summand.literal = [] := by
          simpa using (Bool.and_eq_true_iff.mp hopen).1
        have hend : summand.value ++ " +\n'".toList ++ escapeText [] ++ ['\'', ';'] =
            summand.value ++ emptyEnd := by
          simp only [List.append_assoc]
          rfl
        rw [hliteral, hend, List.append_assoc "\n".toList]
        exact (hbreak.append (turns_open hvalue hopen)).append hbreak
      · have hquiet : ∀ rest, Quiet emptyLast (summand.value ++ " +\n'".toList ++
            escapeText summand.literal ++ ['\'', ';']) ('\n' :: rest) := fun rest =>
          quiet_summand hvalue (by decide) (by decide) (Or.inr (by simpa using hopen))
        have hline := hbreak.append (.behind_quiet hquiet
          (EndsWords.append ⟨';', by decide, by decide⟩ _) hbreak)
        simp only [List.append_assoc] at hline ⊢
        exact hline
  | cons other others ih =>
      rw [sum_lines_cons, sum_text_cons]
      have hothers := ih (fun summand hmem => hspared summand (List.mem_cons_of_mem _ hmem))
        (hspared other (by simp))
      have hquiet : ∀ rest, Quiet emptyLast (summand.value ++ " +\n'".toList ++
          escapeText summand.literal ++ ['\'', ' ', '+']) (sumLines other others ++ rest) :=
        fun rest => quiet_summand hvalue (by decide) (by decide) (Or.inl (by decide))
      have hline := hbreak.append (.behind_quiet hquiet
        (EndsWords.append ⟨'+', by decide, by decide⟩ _) hothers)
      simp only [List.append_assoc] at hline ⊢
      exact hline

/-! ## Stretches -/

theorem quiet_text_line (first : List Char) {ending : List Char} (hbreak : '\n' ∉ ending)
    (hend : ¬ callEnd <:+ '\'' :: ending) :
    Quiet emptyLast ("__p += '".toList ++ escapeText first ++ '\'' :: ending) ('\n' :: next) :=
  quiet_literal_line first (by decide) hbreak hend

/-- A stretch without a sum is a literal alone, which the rule leaves as it is. -/
theorem turns_literal_alone {stretch : Stretch} (hsum : stretch.sum = []) (evaluates : Bool) :
    Turns emptyLast (stretch.opened evaluates) (stretch.write evaluates ++ "\n".toList) := by
  have hbreak := turns_line_break headed_empty_last
  unfold Stretch.opened Stretch.write
  rw [hsum]
  show Turns emptyLast (stretch.kept evaluates) ((if evaluates && stretch.first.isEmpty then []
    else "__p += ".toList ++ quoted stretch.first ++ ";".toList) ++ "\n".toList)
  unfold Stretch.kept
  rw [hsum, List.isEmpty_nil, Bool.and_true]
  split_ifs
  · exact hbreak
  · have hquiet : ∀ rest, Quiet emptyLast ("__p += '".toList ++ escapeText stretch.first ++
        ['\'', ';']) ('\n' :: rest) :=
      fun rest => quiet_text_line stretch.first (by decide) (by decide)
    have hline := Turns.behind_quiet hquiet
      (EndsWords.append ⟨';', by decide, by decide⟩ _) hbreak
    unfold Stretch.appendAll quoted
    rw [hsum, sum_tail_nil]
    simp only [List.append_assoc] at hline ⊢
    exact hline

/-- A stretch with a sum becomes one statement, with the literal in front of the sum or without it. -/
theorem turns_literal_and_sum {stretch : Stretch} {summand : Summand} {others : List Summand}
    (hsum : stretch.sum = summand :: others) (hspared : AllSpared stretch.sum) (evaluates : Bool) :
    Turns emptyLast (stretch.opened evaluates) (stretch.write evaluates ++ "\n".toList) := by
  have hsumLines := turns_sum_lines (hsum ▸ hspared)
  unfold Stretch.opened Stretch.write
  rw [hsum]
  show Turns emptyLast (if stretch.first.isEmpty then "__p +=".toList ++ sumLines summand others
      else stretch.appendAll) ("__p +=".toList ++
    (if stretch.first.isEmpty then [] else " ".toList ++ quoted stretch.first ++ " +".toList) ++
    "\n".toList ++ sumText (summand :: others) ++ ";".toList ++ "\n".toList)
  split_ifs
  · have hquiet : ∀ rest, Quiet emptyLast "__p +=".toList (sumLines summand others ++ rest) :=
      fun rest => quiet_line (by decide) fun h => absurd h.1 (by decide)
    have hline := Turns.behind_quiet hquiet ⟨'=', by decide, by decide⟩ hsumLines
    simp only [List.append_assoc, List.append_nil] at hline ⊢
    exact hline
  · have hquiet : ∀ rest, Quiet emptyLast ("__p += '".toList ++ escapeText stretch.first ++
        ['\'', ' ', '+']) (sumLines summand others ++ rest) :=
      fun rest => quiet_text_line stretch.first (by decide) (by decide)
    have hline := Turns.behind_quiet hquiet
      (EndsWords.append ⟨'+', by decide, by decide⟩ _) hsumLines
    have hall : stretch.appendAll = "__p += '".toList ++ escapeText stretch.first ++
        ['\'', ' ', '+'] ++ sumLines summand others := by
      unfold Stretch.appendAll sumLines
      rw [hsum, sum_tail_cons]
      simp only [List.append_assoc]
      rfl
    rw [hall]
    unfold quoted
    simp only [List.append_assoc] at hline ⊢
    exact hline

/-- What is left of a stretch becomes the statement for it. -/
theorem turns_empty_last {stretch : Stretch} (hspared : AllSpared stretch.sum) (evaluates : Bool) :
    Turns emptyLast (stretch.opened evaluates) (stretch.write evaluates ++ "\n".toList) := by
  cases hsum : stretch.sum with
  | nil => exact turns_literal_alone hsum evaluates
  | cons summand others => exact turns_literal_and_sum hsum hspared evaluates

end TemplateBundle.Template

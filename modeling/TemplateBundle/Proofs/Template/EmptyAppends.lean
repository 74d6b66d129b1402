import TemplateBundle.Proofs.Template.Layout
import TemplateBundle.Proofs.Template.Rewriting

/-!
# Leaving out empty appends

Where the three rules for empty appends apply, and where they do not. They start at names that code
does not use, and what they look for does not stand in a literal: there every quote is escaped, and
no line ends. So each rule applies at the places that the layout of a template gives it, and at no
others.
-/

namespace TemplateBundle.Template

open Text (after? after_eq_none_iff after_eq_some_iff prefix_of_prefix_append)

variable {rule : Rule} {code rest : List Char}

/-! ## Where rules start -/

/-- The names at which rules start. -/
def heads : List (List Char) :=
  ["__p".toList, "__e".toList, "__t".toList]

/-- The rule applies only to texts that start with one of the names. -/
def Headed (rule : Rule) : Prop :=
  ∀ previous text, (∀ head ∈ heads, ¬ head <+: text) → rule previous text = none

/-- The code uses none of the names, and does not hold the empty end of a sum. -/
def IsPlain (code : List Char) : Prop :=
  (∀ head ∈ heads, ¬ head <:+: code) ∧ ¬ emptyEnd <:+: code

instance (code : List Char) : Decidable (IsPlain code) :=
  inferInstanceAs (Decidable (_ ∧ _))

/-- The rule applies only to texts in which an empty literal follows the name of the output. -/
def LooksForEmpty (rule : Rule) : Prop :=
  ∀ previous text, ¬ "__p += ''".toList <+: text → rule previous text = none

/-- The rules keep the code: it does not hold an empty literal behind the name of the output, and it
uses no names at all at which rules start, or stands on one line. -/
structure IsSpared (code : List Char) : Prop where
  no_append : ¬ "__p += ''".toList <:+: code
  plain_or_line : IsPlain code ∨ '\n' ∉ code

theorem IsPlain.spared (h : IsPlain code) : IsSpared code where
  no_append := fun happend =>
    h.1 "__p".toList (by decide) (List.IsInfix.trans (by decide) happend)
  plain_or_line := .inl h

theorem empty_statement_none {previous : Option Char} {text : List Char}
    (h : ¬ "__p += '';".toList <+: text) : emptyStatement previous text = none := by
  unfold emptyStatement
  split_ifs
  · rw [Option.map_eq_none_iff, after_eq_none_iff]
    exact h
  · rfl

theorem empty_first_none {previous : Option Char} {text : List Char}
    (h : ¬ "__p += '' +".toList <+: text) : emptyFirst previous text = none := by
  unfold emptyFirst
  split_ifs
  · rw [Option.map_eq_none_iff, after_eq_none_iff]
    exact h
  · rfl

theorem looks_for_empty_statement : LooksForEmpty emptyStatement := by
  intro previous text h
  exact empty_statement_none fun hprefix => h (List.IsPrefix.trans (by decide) hprefix)

theorem looks_for_empty_first : LooksForEmpty emptyFirst := by
  intro previous text h
  exact empty_first_none fun hprefix => h (List.IsPrefix.trans (by decide) hprefix)

theorem LooksForEmpty.headed (hrule : LooksForEmpty rule) : Headed rule := by
  intro previous text h
  refine hrule previous text fun hprefix => h "__p".toList (by decide) ?_
  exact List.IsPrefix.trans (by decide) hprefix

theorem headed_empty_last : Headed emptyLast := by
  intro previous text h
  have hescaped : after? "__e(".toList text = none := by
    rw [after_eq_none_iff]
    intro hprefix
    exact h "__e".toList (by decide) (List.IsPrefix.trans (by decide) hprefix)
  have hvalue : after? ("__t)".toList ++ emptyEnd) text = none := by
    rw [after_eq_none_iff]
    intro hprefix
    exact h "__t".toList (by decide) (List.IsPrefix.trans (by decide) hprefix)
  unfold emptyLast
  rw [hescaped, hvalue]
  simp

/-- A text without underscores is quiet. -/
theorem quiet_of_no_underscore (hheaded : Headed rule) {text : List Char} (h : '_' ∉ text) :
    Quiet rule text rest := by
  refine quiet_of_suffixes fun c behind hsuffix previous => hheaded _ _ fun head hhead hprefix => ?_
  have hunderscore := (by decide : ∀ head ∈ heads, head.head? = some '_') head hhead
  obtain ⟨behind, rfl⟩ := List.head?_eq_some_iff.mp hunderscore
  have hc := (List.cons_prefix_cons.mp hprefix).1
  exact h (hc ▸ hsuffix.subset List.mem_cons_self)

/-- Plain code is quiet in front of a sign. -/
theorem quiet_code (hheaded : Headed rule) (hplain : IsPlain code) {sign : Char}
    (hsign : ∀ head ∈ heads, sign ∉ head) : Quiet rule code (sign :: rest) := by
  refine quiet_of_suffixes fun c behind hsuffix previous => hheaded _ _ fun head hhead hprefix => ?_
  have hinside : head <+: c :: behind := prefix_of_prefix_append hprefix (hsign head hhead)
  exact hplain.1 head hhead (hinside.isInfix.trans hsuffix.isInfix)

/-- Code that is kept is quiet in front of a sign for the rules that look for an empty literal. -/
theorem LooksForEmpty.quiet_code (hrule : LooksForEmpty rule) (hspared : IsSpared code) {sign : Char}
    (hsign : sign ∉ "__p += ''".toList) : Quiet rule code (sign :: rest) := by
  refine quiet_of_suffixes fun c behind hsuffix previous => hrule _ _ fun hprefix => ?_
  have hinside : "__p += ''".toList <+: c :: behind := prefix_of_prefix_append hprefix hsign
  exact hspared.no_append (hinside.isInfix.trans hsuffix.isInfix)

/-- Code that is run is kept by them. -/
theorem LooksForEmpty.turns_code (hrule : LooksForEmpty rule) (hspared : IsSpared code) :
    Turns rule (code ++ ";\n".toList) (code ++ ";\n".toList) := by
  refine .of_quiet (fun rest => ?_) (EndsWords.append ⟨'\n', by decide, by decide⟩ _)
  refine .append (hrule.quiet_code hspared ?_) (quiet_of_no_underscore hrule.headed (by decide))
  decide

/-! ## Literals -/

/-- A character of a literal stands for itself, or behind a backslash. -/
theorem escape_char_cases (c : Char) :
    (escapeChar c = [c] ∧ c ≠ '\'' ∧ c ≠ '\n') ∨
      ∃ behind, escapeChar c = '\\' :: behind ∧ '_' ∉ behind ∧ '\n' ∉ behind := by
  unfold escapeChar
  split
  · exact Or.inr ⟨_, rfl, by decide, by decide⟩
  · exact Or.inr ⟨_, rfl, by decide, by decide⟩
  · exact Or.inr ⟨_, rfl, by decide, by decide⟩
  · exact Or.inr ⟨_, rfl, by decide, by decide⟩
  · exact Or.inr ⟨_, rfl, by decide, by decide⟩
  · exact Or.inr ⟨_, rfl, by decide, by decide⟩
  · exact Or.inr ⟨_, rfl, by decide, by decide⟩
  · rename_i hquote hbreak _ _ _ _
    exact Or.inl ⟨rfl, hquote, hbreak⟩

/-- A literal is on one line. -/
theorem no_break_escape_text (text : List Char) : '\n' ∉ escapeText text := by
  intro hmem
  obtain ⟨c, -, hc⟩ := List.mem_flatMap.mp hmem
  rcases escape_char_cases c with ⟨hescape, -, hbreak⟩ | ⟨behind, hescape, -, hbreak⟩
  · rw [hescape, List.mem_singleton] at hc
    exact hbreak hc.symm
  · rw [hescape, List.mem_cons] at hc
    rcases hc with hc | hc
    · cases hc
    · exact hbreak hc

/-- Two quotes in a row behind signs that are none do not start in a literal. The induction is on
the signs; where the literal goes on with a backslash they do not fit, and where it ends there is one
quote only. -/
theorem quotes_not_in_literal {signs : List Char} (hsigns : '\\' ∉ signs ∧ '\'' ∉ signs)
    (text : List Char) {next : Char} (hnext : next ≠ '\'') :
    ¬ signs ++ ['\'', '\''] <+: escapeText text ++ '\'' :: next :: rest := by
  induction signs generalizing text with
  | nil =>
      cases text with
      | nil =>
          intro h
          have hsecond := (List.cons_prefix_cons.mp (List.cons_prefix_cons.mp h).2).1
          exact hnext hsecond.symm
      | cons c text =>
          intro h
          rw [escapeText, List.flatMap_cons] at h
          rcases escape_char_cases c with ⟨hescape, hquote, -⟩ | ⟨behind, hescape, -, -⟩
          · rw [hescape] at h
            exact hquote (List.cons_prefix_cons.mp h).1.symm
          · rw [hescape] at h
            cases (List.cons_prefix_cons.mp h).1
  | cons sign signs ih =>
      obtain ⟨hbackslash, hquote⟩ := hsigns
      cases text with
      | nil =>
          intro h
          exact hquote ((List.cons_prefix_cons.mp h).1 ▸ List.mem_cons_self)
      | cons c text =>
          intro h
          rw [escapeText, List.flatMap_cons] at h
          rcases escape_char_cases c with ⟨hescape, -, -⟩ | ⟨behind, hescape, -, -⟩
          · rw [hescape] at h
            refine ih ⟨?_, ?_⟩ text (List.cons_prefix_cons.mp h).2
            · exact fun hmem => hbackslash (List.mem_cons_of_mem _ hmem)
            · exact fun hmem => hquote (List.mem_cons_of_mem _ hmem)
          · rw [hescape] at h
            exact hbackslash ((List.cons_prefix_cons.mp h).1 ▸ List.mem_cons_self)

/-- A rule that looks for an empty literal does not apply in a literal, if no quote follows it. -/
theorem LooksForEmpty.quiet_literal (hrule : LooksForEmpty rule) (text : List Char) {next : Char}
    (hnext : next ≠ '\'') : Quiet rule (escapeText text) ('\'' :: next :: rest) := by
  induction text with
  | nil => trivial
  | cons c text ih =>
      have hmark : ¬ "__p += ".toList ++ ['\'', '\''] <+:
          escapeText (c :: text) ++ '\'' :: next :: rest :=
        quotes_not_in_literal (by decide) (c :: text) hnext
      rw [escapeText, List.flatMap_cons] at hmark ⊢
      rcases escape_char_cases c with ⟨hescape, -, -⟩ | ⟨behind, hescape, hbehind, -⟩
      · rw [hescape] at hmark ⊢
        exact ⟨fun previous => hrule previous _ hmark, ih⟩
      · -- the output's name does not start with a backslash
        rw [hescape]
        exact (quiet_of_no_underscore hrule.headed (by simpa using hbehind)).append ih

/-! ## Empty literals at the start of a statement -/

/-- A sum as pieces write it, behind the open literal in front of it. -/
def sumTail : List Summand → List Char
  | [] => "';\n".toList
  | summand :: others =>
      "' +\n".toList ++ summand.value ++ " +\n'".toList ++ escapeText summand.literal ++
        sumTail others

theorem sum_tail_nil : sumTail [] = "';\n".toList := rfl

theorem sum_tail_cons (summand : Summand) (others : List Summand) :
    sumTail (summand :: others) = "' +\n".toList ++ summand.value ++ " +\n'".toList ++
      escapeText summand.literal ++ sumTail others := rfl

/-- The rules keep the codes of the sum. -/
def AllSpared (sum : List Summand) : Prop :=
  ∀ summand ∈ sum, IsSpared summand.code

/-- A value holds no name of the output. -/
theorem LooksForEmpty.quiet_value (hrule : LooksForEmpty rule) {summand : Summand}
    (hspared : IsSpared summand.code) : Quiet rule summand.value rest := by
  have hcode : ∀ rest, Quiet rule summand.code (')' :: rest) :=
    fun _ => hrule.quiet_code hspared (by decide)
  unfold Summand.value
  split_ifs
  · refine .append (.append ?_ (hcode _)) (quiet_of_no_underscore hrule.headed (by decide))
    simp [Quiet, hrule _ _]
  · refine .append (.append ?_ (hcode _)) ?_ <;> simp [Quiet, hrule _ _]

/-- Behind the literal in front of it, a sum holds no empty literal behind the name of the
output. -/
theorem LooksForEmpty.quiet_sum_tail (hrule : LooksForEmpty rule) {sum : List Summand}
    (hspared : AllSpared sum) : Quiet rule (sumTail sum) rest := by
  induction sum with
  | nil => exact quiet_of_no_underscore hrule.headed (by decide)
  | cons summand others ih =>
      have hothers := ih fun other hother => hspared other (List.mem_cons_of_mem _ hother)
      unfold sumTail
      refine .append (.append (.append (.append ?_ ?_) ?_) ?_) hothers
      · exact quiet_of_no_underscore hrule.headed (by decide)
      · exact hrule.quiet_value (hspared summand List.mem_cons_self)
      · exact quiet_of_no_underscore hrule.headed (by decide)
      · cases others with
        | nil => exact hrule.quiet_literal summand.literal (by decide)
        | cons other others => exact hrule.quiet_literal summand.literal (by decide)

/-- A sum ends with a line. -/
theorem ends_words_sum_tail (sum : List Summand) : EndsWords (sumTail sum) := by
  induction sum with
  | nil => exact ends_words_line_break "';".toList
  | cons summand others ih => exact ih.append _

/-- A stretch as pieces write it. -/
def Stretch.appendAll (stretch : Stretch) : List Char :=
  "__p += '".toList ++ escapeText stretch.first ++ sumTail stretch.sum

/-- An empty literal in front of a sum opens and closes at once, any other one does not. -/
theorem mark_of_first {first follow : List Char} (hfirst : first ≠ []) :
    ¬ "__p += ''".toList <+: "__p += '".toList ++ (escapeText first ++ follow) := by
  intro h
  have hquote : ['\''] <+: escapeText first ++ follow :=
    (List.prefix_append_right_inj "__p += '".toList).mp h
  obtain ⟨c, first, rfl⟩ := List.exists_cons_of_ne_nil hfirst
  rw [escapeText, List.flatMap_cons] at hquote
  rcases escape_char_cases c with ⟨hescape, hc, -⟩ | ⟨behind, hescape, -, -⟩
  · rw [hescape] at hquote
    exact hc (List.cons_prefix_cons.mp hquote).1.symm
  · rw [hescape] at hquote
    cases (List.cons_prefix_cons.mp hquote).1

theorem LooksForEmpty.quiet_opening (hrule : LooksForEmpty rule)
    (hstart : ∀ previous, rule previous ("__p += '".toList ++ rest) = none) :
    Quiet rule "__p += '".toList rest := by
  simp [Quiet, hrule _ _]
  simpa using hstart

/-- A stretch is quiet if the rule does not apply at its start. -/
theorem LooksForEmpty.quiet_stretch (hrule : LooksForEmpty rule) {stretch : Stretch}
    (hspared : AllSpared stretch.sum)
    (hstart : ∀ previous, rule previous (stretch.appendAll ++ rest) = none) :
    Quiet rule stretch.appendAll rest := by
  unfold Stretch.appendAll at hstart ⊢
  refine .append (.append ?_ ?_) (hrule.quiet_sum_tail hspared)
  · simp only [List.append_assoc] at hstart ⊢
    exact hrule.quiet_opening hstart
  · cases hsum : stretch.sum with
    | nil => exact hrule.quiet_literal stretch.first (by decide)
    | cons summand others => exact hrule.quiet_literal stretch.first (by decide)

/-- A line break is a block of its own. -/
theorem turns_line_break (hheaded : Headed rule) : Turns rule "\n".toList "\n".toList :=
  .of_quiet (fun _ => quiet_of_no_underscore hheaded (by decide)) (ends_words_line_break [])

/-- A stretch is kept if the rule does not apply at its start. -/
theorem LooksForEmpty.turns_stretch (hrule : LooksForEmpty rule) {stretch : Stretch}
    (hspared : AllSpared stretch.sum)
    (hstart : ∀ previous rest, rule previous (stretch.appendAll ++ rest) = none) :
    Turns rule stretch.appendAll stretch.appendAll := by
  refine .of_quiet (fun rest => hrule.quiet_stretch hspared fun previous => hstart previous rest) ?_
  unfold Stretch.appendAll
  exact (ends_words_sum_tail stretch.sum).append _

/-- No rule applies at a stretch that starts with text. -/
theorem LooksForEmpty.none_of_first (hrule : LooksForEmpty rule) {stretch : Stretch}
    (hfirst : stretch.first ≠ []) (previous : Option Char) (rest : List Char) :
    rule previous (stretch.appendAll ++ rest) = none := by
  refine hrule previous _ ?_
  unfold Stretch.appendAll
  rw [List.append_assoc, List.append_assoc]
  exact mark_of_first hfirst

/-- What is left of a stretch without statements that append nothing. -/
def Stretch.kept (evaluates : Bool) (stretch : Stretch) : List Char :=
  if evaluates && stretch.first.isEmpty && stretch.sum.isEmpty then "\n".toList
  else stretch.appendAll

/-- Statements that append nothing are dropped, others are not. -/
theorem turns_empty_statement {stretch : Stretch} (hspared : AllSpared stretch.sum) :
    Turns emptyStatement stretch.appendAll (stretch.kept true) := by
  have hheaded := looks_for_empty_statement.headed
  unfold Stretch.kept
  split_ifs with hempty
  · simp only [Bool.true_and, Bool.and_eq_true, List.isEmpty_iff] at hempty
    have hhit : Turns emptyStatement "__p += '';".toList [] := by
      refine .of_hit (by simp) fun previous rest hstart => ?_
      simp [emptyStatement, hstart, after?]
    have hall : stretch.appendAll = "__p += '';".toList ++ "\n".toList := by
      unfold Stretch.appendAll
      rw [hempty.1, hempty.2]
      rfl
    rw [hall]
    exact hhit.append (turns_line_break hheaded)
  · refine looks_for_empty_statement.turns_stretch hspared fun previous rest => ?_
    by_cases hfirst : stretch.first = []
    · -- an empty literal in front of a value goes on with a sign for addition
      obtain ⟨summand, others, hsum⟩ : ∃ summand others, stretch.sum = summand :: others :=
        List.exists_cons_of_ne_nil (by simpa [hfirst] using hempty)
      refine empty_statement_none ?_
      unfold Stretch.appendAll
      rw [hfirst, hsum]
      unfold sumTail
      simp [escapeText]
    · exact looks_for_empty_statement.none_of_first hfirst previous rest

/-- A sum from its first line break on. -/
def sumLines (summand : Summand) (others : List Summand) : List Char :=
  "\n".toList ++ summand.value ++ " +\n'".toList ++ escapeText summand.literal ++ sumTail others

theorem LooksForEmpty.turns_sum_lines (hrule : LooksForEmpty rule) {summand : Summand}
    {others : List Summand} (hspared : AllSpared (summand :: others)) :
    Turns rule (sumLines summand others) (sumLines summand others) := by
  refine .of_quiet (fun rest => ?_) ((ends_words_sum_tail others).append _)
  -- the lines are what is left of a quiet sum behind its first three signs
  have hquiet : Quiet rule ("' +".toList ++ sumLines summand others) rest :=
    hrule.quiet_sum_tail hspared
  exact hquiet.2.2.2

/-- What is left of a stretch without empty literals at the start. -/
def Stretch.opened (evaluates : Bool) (stretch : Stretch) : List Char :=
  match stretch.sum with
  | [] => stretch.kept evaluates
  | summand :: others =>
      if stretch.first.isEmpty then "__p +=".toList ++ sumLines summand others
      else stretch.appendAll

/-- Empty literals are dropped in front of sums. -/
theorem turns_empty_first {stretch : Stretch} (hspared : AllSpared stretch.sum) (evaluates : Bool) :
    Turns emptyFirst (stretch.kept evaluates) (stretch.opened evaluates) := by
  have hheaded := looks_for_empty_first.headed
  unfold Stretch.opened
  cases hsum : stretch.sum with
  | nil =>
      show Turns emptyFirst (stretch.kept evaluates) (stretch.kept evaluates)
      unfold Stretch.kept
      split_ifs
      · exact turns_line_break hheaded
      · refine looks_for_empty_first.turns_stretch hspared fun previous rest => ?_
        by_cases hfirst : stretch.first = []
        · refine empty_first_none ?_
          unfold Stretch.appendAll
          rw [hfirst, hsum]
          unfold sumTail
          simp [escapeText]
        · exact looks_for_empty_first.none_of_first hfirst previous rest
  | cons summand others =>
      -- the rule for empty appends, which comes before, leaves a sum as it is
      have hkept : stretch.kept evaluates = stretch.appendAll := by
        unfold Stretch.kept
        rw [hsum, List.isEmpty_cons, Bool.and_false]
        rfl
      simp only [hkept]
      split_ifs with hempty
      · have hhit : Turns emptyFirst "__p += '' +".toList "__p +=".toList := by
          refine .of_hit (by simp) fun previous rest hstart => ?_
          simp [emptyFirst, hstart, after?]
        have hall : stretch.appendAll = "__p += '' +".toList ++ sumLines summand others := by
          unfold Stretch.appendAll
          rw [List.isEmpty_iff.mp hempty, hsum]
          rfl
        rw [hall]
        exact hhit.append (looks_for_empty_first.turns_sum_lines (hsum ▸ hspared))
      · refine looks_for_empty_first.turns_stretch hspared fun previous rest => ?_
        exact looks_for_empty_first.none_of_first (by simpa using hempty) previous rest

end TemplateBundle.Template

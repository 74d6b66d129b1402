import TemplateBundle.Text.LetterCase
import TemplateBundle.Text.CharacterClass

/-!
# What the tables of characters say

The tables of the character database are read from their written form. Two facts about them are
needed elsewhere: white space never belongs to a word (`is_word_of_white`), and letters of ASCII
that differ in case only fold to the same character (`fold_case_to_lower`). Both are decided by
going through the runs once, with the written tables opened as lists of characters.
-/

namespace TemplateBundle.Text

/-! ## Opening a table -/

/-- The entries of a table from the characters that it is written in. -/
theorem table_entries_of_list (chars : List Char) :
    tableEntries (String.ofList chars) =
      ((chars.map fun c => if c = '\n' then ' ' else c).splitOn ' ').filter (!·.isEmpty) := by
  unfold tableEntries
  rw [String.toList_ofList]

/-- No run of the set holds one of the code points. -/
def CodePointSet.avoids (set : CodePointSet) (codes : List Nat) : Bool :=
  set.runs.toList.all fun run => codes.all fun code => !run.contains code

/-- Whether a set avoids code points is read off the characters of its table. -/
theorem avoids_of_table (chars : List Char) (codes : List Nat) :
    (CodePointSet.ofTable (String.ofList chars)).avoids codes =
      ((((chars.map fun c => if c = '\n' then ' ' else c).splitOn ' ').filter (!·.isEmpty)).map
        CodePointRun.ofWritten).all fun run => codes.all fun code => !run.contains code := by
  unfold CodePointSet.avoids CodePointSet.ofTable
  rw [table_entries_of_list]

/-- A code point that is found belongs to one of the runs, whatever their order. -/
theorem search_sound {runs : Array CodePointRun} {code low high : Nat}
    (h : CodePointSet.search runs code low high = true) :
    ∃ run ∈ runs.toList, run.contains code = true := by
  fun_induction CodePointSet.search runs code low high with
  | case1 => cases h
  | case2 low high hlt middle run hrun hless ih => exact ih h
  | case3 low high hlt middle run hrun hless hmore ih => exact ih h
  | case4 low high hlt middle run hrun hless hmore =>
      exact ⟨run, Array.mem_toList_iff.mpr (Array.mem_of_getElem? hrun), h⟩
  | case5 => cases h

/-- A set that avoids the code point of a character does not contain the character. -/
theorem contains_of_avoids {set : CodePointSet} {codes : List Nat} {c : Char}
    (h : set.avoids codes = true) (hc : c.toNat ∈ codes) : set.contains c = false := by
  cases hfound : set.contains c with
  | false => rfl
  | true =>
      obtain ⟨run, hrun, hcontains⟩ := search_sound hfound
      have hnone := List.all_eq_true.mp (List.all_eq_true.mp h run hrun) c.toNat hc
      rw [hcontains] at hnone
      cases hnone

/-! ## White space and words -/

/-- The code points of white space outside ASCII. -/
def wideSpaces : List Nat :=
  [0x85, 0xA0, 0x1680, 0x2000, 0x2001, 0x2002, 0x2003, 0x2004, 0x2005, 0x2006, 0x2007, 0x2008,
   0x2009, 0x200A, 0x2028, 0x2029, 0x202F, 0x205F, 0x3000]

/-- The categories of which characters of words are made. -/
def wordCategories : List Category :=
  Category.letters ++ Category.marks ++
    [Category.letterNumber, Category.decimalNumber, Category.connectorPunctuation]

/-- No category of characters of words has white space in it. -/
theorem word_categories_avoid {category : Category} (h : category ∈ wordCategories) :
    category.members.avoids wideSpaces = true := by
  simp only [wordCategories, Category.letters, Category.marks, List.cons_append, List.nil_append,
    List.mem_cons, List.not_mem_nil, or_false] at h
  -- each category has a table of its own, which is opened and gone through once
  rcases h with rfl | rfl | rfl | rfl | rfl | rfl | rfl | rfl | rfl | rfl | rfl <;>
    simp only [Category.members, Category.uppercaseLetterSet, Category.lowercaseLetterSet,
      Category.titlecaseLetterSet, Category.modifierLetterSet, Category.otherLetterSet,
      Category.nonspacingMarkSet, Category.spacingMarkSet, Category.enclosingMarkSet,
      Category.letterNumberSet, Category.decimalNumberSet, Category.connectorPunctuationSet] <;>
    rw [avoids_of_table] <;>
    decide +kernel

/-- The further alphabetic characters have no white space among them. -/
theorem other_alphabetic_avoids : otherAlphabetic.avoids wideSpaces = true := by
  unfold otherAlphabetic
  rw [avoids_of_table]
  decide +kernel

/-- White space is a blank or control character of ASCII or one of the wide spaces. -/
theorem blank_or_wide_of_white {c : Char} (h : isWhite c = true) :
    c.toNat < 0x21 ∨ c.toNat ∈ wideSpaces := by
  simp only [isWhite, Bool.or_eq_true, Bool.and_eq_true, decide_eq_true_eq, beq_iff_eq] at h
  simp only [wideSpaces, List.mem_cons, List.not_mem_nil, or_false]
  omega

/-- The wide spaces have no category of characters of words. -/
theorem has_of_wide {category : Category} {c : Char} (h : category ∈ wordCategories)
    (hc : c.toNat ∈ wideSpaces) : category.has c = false :=
  contains_of_avoids (word_categories_avoid h) hc

/-- The wide spaces have none of several such categories. -/
theorem has_any_of_wide {categories : List Category} {c : Char}
    (h : categories ⊆ wordCategories) (hc : c.toNat ∈ wideSpaces) :
    Category.hasAny categories c = false := by
  unfold Category.hasAny
  rw [List.any_eq_false]
  intro category hcategory
  rw [has_of_wide (h hcategory) hc]
  exact Bool.false_ne_true

/-- White space does not belong to words. -/
theorem is_word_of_white {c : Char} (h : isWhite c = true) : isWord c = false := by
  rcases blank_or_wide_of_white h with hblank | hwide
  · have hnone : ∀ code < 0x21, isWord (Char.ofNat code) = false := by decide
    have hc := hnone c.toNat hblank
    rwa [Char.ofNat_toNat] at hc
  · have hcodes : ∀ code ∈ wideSpaces, ¬ code < 0x80 ∧ code ≠ 0x200C ∧ code ≠ 0x200D := by
      decide
    obtain ⟨hascii, hnonjoiner, hjoiner⟩ := hcodes c.toNat hwide
    have halphabetic : isAlphabetic c = false := by
      unfold isAlphabetic
      rw [has_any_of_wide (by decide) hwide, has_of_wide (by decide) hwide,
        contains_of_avoids other_alphabetic_avoids hwide]
      rfl
    -- outside ASCII a character of a word has a category of words, or is one of the joiners
    unfold isWord
    rw [if_neg hascii, halphabetic, has_any_of_wide (by decide) hwide,
      has_of_wide (by decide) hwide, has_of_wide (by decide) hwide,
      beq_eq_false_iff_ne.mpr hnonjoiner, beq_eq_false_iff_ne.mpr hjoiner]
    rfl

/-! ## Case of letters -/

/-- The first run of the table folds the small letters of ASCII to the capital ones. -/
theorem fold_runs_head :
    foldRuns.head? = some { run := ⟨0x61, 0x7A, 1⟩, target := 0x41 } := by
  unfold foldRuns
  rw [table_entries_of_list]
  rfl

/-- The other runs of the table lie outside ASCII. They lead there again, but for the two of `ſ` and
of the sign for kelvin. -/
theorem fold_runs_tail : (foldRuns.tail.all fun fold => 0x80 ≤ fold.run.first &&
    (0x80 ≤ fold.target ||
      fold.run.first == 0x17F && fold.run.last == 0x17F && fold.target == 0x53 ||
      fold.run.first == 0x212A && fold.run.last == 0x212A && fold.target == 0x4B)) = true := by
  unfold foldRuns
  rw [table_entries_of_list]
  decide +kernel

/-- A run outside ASCII folds no character of ASCII. -/
theorem fold_of_outside {fold : FoldRun} {code : Nat} (h : 0x80 ≤ fold.run.first)
    (hcode : code < 0x80) : fold.fold? code = none := by
  have hless : ¬ fold.run.first ≤ code := by omega
  simp [FoldRun.fold?, CodePointRun.contains, hless]

/-- What the table has for a character of ASCII. -/
theorem find_fold_of_ascii {code : Nat} (h : code < 0x80) :
    (foldRuns.findSome? fun fold => fold.fold? code) =
      if 0x61 ≤ code ∧ code ≤ 0x7A then some (code - 0x20) else none := by
  obtain ⟨others, hruns⟩ := List.head?_eq_some_iff.mp fold_runs_head
  have hothers := fold_runs_tail
  rw [hruns, List.tail_cons, List.all_eq_true] at hothers
  have hnone : others.findSome? (fun fold => fold.fold? code) = none := by
    rw [List.findSome?_eq_none_iff]
    intro fold hfold
    have houtside := (Bool.and_eq_true_iff.mp (hothers fold hfold)).1
    exact fold_of_outside (of_decide_eq_true houtside) h
  rw [hruns, List.findSome?_cons, hnone]
  by_cases hsmall : 0x61 ≤ code ∧ code ≤ 0x7A
  · have hcode : 0x41 + (code - 0x61) = code - 0x20 := by omega
    simp [FoldRun.fold?, CodePointRun.contains, hsmall, Nat.mod_one, hcode]
  · simp [FoldRun.fold?, CodePointRun.contains, hsmall, Nat.mod_one]

/-- Folding a character of ASCII turns small letters into capital ones. -/
theorem fold_case_of_ascii {c : Char} (h : c.toNat < 0x80) : foldCase c = c.toUpper := by
  have hupper : ∀ code < 0x80, (Char.ofNat code).toUpper =
      if 0x61 ≤ code ∧ code ≤ 0x7A then Char.ofNat (code - 0x20) else Char.ofNat code := by
    decide
  have hc := hupper c.toNat h
  rw [Char.ofNat_toNat] at hc
  unfold foldCase
  rw [find_fold_of_ascii h, hc]
  by_cases hsmall : 0x61 ≤ c.toNat ∧ c.toNat ≤ 0x7A
  · rw [if_pos hsmall, if_pos hsmall]
    rfl
  · rw [if_neg hsmall, if_neg hsmall]
    rfl

/-- Writing a letter of ASCII small does not change what it folds to. -/
theorem fold_case_to_lower (c : Char) : foldCase c.toLower = foldCase c := by
  by_cases hascii : c.toNat < 0x80
  · have hsame : ∀ code < 0x80, (Char.ofNat code).toLower.toNat < 0x80 ∧
        (Char.ofNat code).toLower.toUpper = (Char.ofNat code).toUpper := by
      decide
    obtain ⟨hlower, hfold⟩ := hsame c.toNat hascii
    rw [Char.ofNat_toNat] at hlower hfold
    rw [fold_case_of_ascii hlower, fold_case_of_ascii hascii, hfold]
  · have hcapital : ¬ (c.val ≥ 'A'.val ∧ c.val ≤ 'Z'.val) := by
      rintro ⟨-, hle⟩
      have hcode : c.toNat ≤ 0x5A := UInt32.le_iff_toNat_le.mp hle
      omega
    unfold Char.toLower
    rw [dif_neg hcapital]

/-- The letter `ſ` differs from `s` in case only. -/
theorem fold_case_long : foldCase 'ſ' = 'S' := by
  have hfound : (foldRuns.findSome? fun fold => fold.fold? 0x17F) = some 0x53 := by
    unfold foldRuns
    rw [table_entries_of_list]
    decide +kernel
  unfold foldCase
  exact congrArg (fun target => (target.map Char.ofNat).getD 'ſ') hfound

/-- What a run that leads out of ASCII folds to is no letter of ASCII. -/
theorem outside_of_fold {fold : FoldRun} {code target : Nat} (h : 0x80 ≤ fold.target)
    (hfold : fold.fold? code = some target) :
    (Char.ofNat target).toNat = 0 ∨ 0x80 ≤ (Char.ofNat target).toNat := by
  rw [FoldRun.fold?, Option.ite_none_right_eq_some] at hfold
  have htarget := Option.some.inj hfold.2
  by_cases hvalid : target.isValidChar
  · have hcode : (Char.ofNat target).toNat = target := by
      rw [Char.ofNat, dif_pos hvalid]
      rfl
    exact .inr (by omega)
  · rw [Char.ofNat, dif_neg hvalid]
    exact .inl rfl

/-- A run of one character folds this one. -/
theorem code_of_single {fold : FoldRun} {code target single : Nat}
    (hrun : fold.run.first = single ∧ fold.run.last = single)
    (hfold : fold.fold? code = some target) : code = single ∧ target = fold.target := by
  rw [FoldRun.fold?, Option.ite_none_right_eq_some] at hfold
  obtain ⟨hcontains, htarget⟩ := hfold
  simp only [CodePointRun.contains, Bool.and_eq_true, decide_eq_true_eq] at hcontains
  have heq := Option.some.inj htarget
  omega

/-- Outside ASCII two characters differ from letters of ASCII in case only. -/
theorem letter_of_fold_case {c : Char} (hc : 0x80 ≤ c.toNat)
    (hfold : (foldCase c).toNat ≠ 0 ∧ (foldCase c).toNat < 0x80) :
    c = 'ſ' ∧ foldCase c = 'S' ∨ c = '\u212a' ∧ foldCase c = 'K' := by
  obtain ⟨others, hruns⟩ := List.head?_eq_some_iff.mp fold_runs_head
  have htargets := fold_runs_tail
  rw [hruns, List.tail_cons, List.all_eq_true] at htargets
  -- the first run of the table folds the small letters of ASCII; all others were checked once
  have hhead : FoldRun.fold? { run := ⟨0x61, 0x7A, 1⟩, target := 0x41 } c.toNat = none := by
    have hlast : ¬ c.toNat ≤ 0x7A := by omega
    simp [FoldRun.fold?, CodePointRun.contains, hlast]
  cases hfound : foldRuns.findSome? fun fold => fold.fold? c.toNat with
  | none =>
      have hsame : foldCase c = c := by rw [foldCase, hfound]; rfl
      rw [hsame] at hfold
      omega
  | some target =>
      have hresult : foldCase c = Char.ofNat target := by rw [foldCase, hfound]; rfl
      rw [hruns, List.findSome?_cons, hhead] at hfound
      obtain ⟨fold, hmem, hcode⟩ := List.exists_of_findSome?_eq_some hfound
      have htarget := (Bool.and_eq_true_iff.mp (htargets fold hmem)).2
      simp only [Bool.or_eq_true, Bool.and_eq_true, decide_eq_true_eq, beq_iff_eq] at htarget
      have hchar {single : Nat} (hsingle : c.toNat = single) : c = Char.ofNat single := by
        rw [← hsingle, Char.ofNat_toNat]
      rcases htarget with (houtside | ⟨hrun, hlong⟩) | ⟨hrun, hkelvin⟩
      · rw [hresult] at hfold
        have hoff := outside_of_fold houtside hcode
        omega
      · obtain ⟨hsingle, htarget⟩ := code_of_single hrun hcode
        exact .inl ⟨hchar hsingle, by rw [hresult, htarget, hlong]⟩
      · obtain ⟨hsingle, htarget⟩ := code_of_single hrun hcode
        exact .inr ⟨hchar hsingle, by rw [hresult, htarget, hkelvin]⟩

end TemplateBundle.Text

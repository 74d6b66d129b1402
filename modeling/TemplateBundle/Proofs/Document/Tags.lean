import Mathlib.Data.List.Forall2
import TemplateBundle.Document.Element
import TemplateBundle.Proofs.Text.Prefix
import TemplateBundle.Proofs.Text.Tables

/-!
# Tags and bodies of script elements

What counts as the name of a script element and as its closing tag, stated on the written text, and
what the readers of openings, closing tags and bodies make of it. A body ends at the first closing
tag: `split_body_of_closing` shows that no closing tag is found that begins in the body and ends in
the element's own one, since behind its first character a closing tag has no `<`.
-/

namespace TemplateBundle.Document.Element

/-! ## Names -/

/-- The text is `word` in letters of any case. -/
def IsWritten (word text : List Char) : Prop :=
  List.Forall₂ (fun letter c => sameLetter letter c = true) word text

/-- The text is the name of script elements in letters of any case. -/
def IsTagName (name : List Char) : Prop :=
  IsWritten tagName name

/-- A word is read off its written form and nothing else. -/
theorem after_word_eq_some_iff {word text rest : List Char} :
    afterWord? word text = some rest ↔ ∃ name, IsWritten word name ∧ text = name ++ rest := by
  constructor
  · intro h
    induction word generalizing text with
    | nil =>
        cases h
        exact ⟨[], .nil, rfl⟩
    | cons letter word ih =>
        cases text with
        | nil => cases h
        | cons c text =>
            rw [afterWord?] at h
            split at h
            case isTrue hsame =>
              obtain ⟨name, hname, rfl⟩ := ih h
              exact ⟨c :: name, .cons hsame hname, rfl⟩
            case isFalse => cases h
  · rintro ⟨name, hname, rfl⟩
    induction hname with
    | nil => rfl
    | cons hsame _ ih => rw [List.cons_append, afterWord?, if_pos hsame, ih]

/-- A word is written by every text that is the word once its letters of ASCII are made small. -/
theorem is_written_of_lower {word text : List Char} (h : text.map Char.toLower = word) :
    IsWritten word text := by
  subst h
  induction text with
  | nil => exact .nil
  | cons c text ih =>
      refine .cons ?_ ih
      rw [sameLetter, Text.fold_case_to_lower, beq_self_eq_true, Bool.or_true]

/-- An opening bracket stands for none of the letters of the name. -/
theorem same_letter_bracket {letter : Char} (h : letter ∈ tagName) :
    sameLetter letter '<' = false := by
  have hall : (tagName.all fun letter => letter.toNat < 0x80 &&
      !(letter == '<' || letter.toUpper == '<'.toUpper)) = true := by
    decide
  have hletter := List.all_eq_true.mp hall letter h
  rw [Bool.and_eq_true, decide_eq_true_eq, Bool.not_eq_eq_eq_not, Bool.not_true] at hletter
  rw [sameLetter, Text.fold_case_of_ascii hletter.1, Text.fold_case_of_ascii (by decide),
    hletter.2]

/-- No opening bracket stands in the name of a tag. -/
theorem bracket_not_mem_name {name : List Char} (h : IsTagName name) : '<' ∉ name := by
  have hword : ∀ {word text : List Char}, word ⊆ tagName → IsWritten word text → '<' ∉ text := by
    intro word text hsubset hwritten
    induction hwritten with
    | nil => exact List.not_mem_nil
    | cons hsame _ ih =>
        rw [List.cons_subset] at hsubset
        rintro (_ | ⟨_, hmem⟩)
        · rw [same_letter_bracket hsubset.1] at hsame
          cases hsame
        · exact ih hsubset.2 hmem
  exact hword (List.Subset.refl tagName) h

/-! ## Opening tags -/

/-- An opening is read where a bracket and the name stand and the name does not go on. -/
theorem after_opening_eq_some_iff {text behind : List Char} :
    afterOpening? text = some behind ↔
      ∃ name, IsTagName name ∧ text = '<' :: (name ++ behind) ∧
        ∀ c ∈ behind.head?, Text.isWord c = false := by
  constructor
  · intro h
    unfold afterOpening? at h
    split at h
    case h_1 rest =>
      split at h
      case h_1 hword =>
        cases h
        obtain ⟨name, hname, rfl⟩ := after_word_eq_some_iff.mp hword
        exact ⟨name, hname, rfl, by simp⟩
      case h_2 c following hword =>
        split at h
        case isTrue => cases h
        case isFalse hend =>
          cases h
          obtain ⟨name, hname, rfl⟩ := after_word_eq_some_iff.mp hword
          exact ⟨name, hname, rfl, by simpa using hend⟩
      case h_3 => cases h
    case h_2 => cases h
  · rintro ⟨name, hname, rfl, hend⟩
    have hword : afterWord? tagName (name ++ behind) = some behind :=
      after_word_eq_some_iff.mpr ⟨name, hname, rfl⟩
    cases behind with
    | nil => simp only [afterOpening?, hword]
    | cons c behind => simp [afterOpening?, hword, hend c rfl]

/-! ## Closing tags -/

/-- The text is a closing tag: the name in letters of any case, and white space behind it. -/
def IsClosingTag (tag : List Char) : Prop :=
  ∃ name blanks, IsTagName name ∧ (∀ c ∈ blanks, Text.isWhite c = true) ∧
    tag = '<' :: '/' :: (name ++ blanks ++ ['>'])

/-- A closing tag is read where one stands. -/
theorem after_closing_eq_some_iff {text following : List Char} :
    afterClosing? text = some following ↔ ∃ tag, IsClosingTag tag ∧ text = tag ++ following := by
  constructor
  · intro h
    unfold afterClosing? at h
    split at h
    case h_1 rest =>
      split at h
      case h_1 behind hword =>
        split at h
        case h_1 last hlast =>
          cases h
          obtain ⟨name, hname, rfl⟩ := after_word_eq_some_iff.mp hword
          refine ⟨_, ⟨name, behind.takeWhile Text.isWhite, hname, ?_, rfl⟩, ?_⟩
          · exact List.all_eq_true.mp List.all_takeWhile
          · have hsplit := List.takeWhile_append_dropWhile (p := Text.isWhite) (l := behind)
            rw [hlast] at hsplit
            simp [hsplit]
        case h_2 => cases h
      case h_2 => cases h
    case h_2 => cases h
  · rintro ⟨tag, ⟨name, blanks, hname, hblanks, rfl⟩, rfl⟩
    have hword : afterWord? tagName (name ++ (blanks ++ '>' :: following)) =
        some (blanks ++ '>' :: following) := after_word_eq_some_iff.mpr ⟨name, hname, rfl⟩
    have hdrop : (blanks ++ '>' :: following).dropWhile Text.isWhite = '>' :: following := by
      rw [List.dropWhile_append_of_pos hblanks]
      rfl
    simp [afterClosing?, hword, hdrop]

/-- Behind its first character a closing tag has no opening bracket. -/
theorem bracket_not_mem_closing {tag : List Char} (h : IsClosingTag tag) :
    ∃ inner, tag = '<' :: inner ∧ '<' ∉ inner := by
  obtain ⟨name, blanks, hname, hblanks, rfl⟩ := h
  refine ⟨_, rfl, ?_⟩
  intro hmem
  rcases List.mem_cons.mp hmem with hslash | hmem
  · exact absurd hslash (by decide)
  rcases List.mem_append.mp hmem with hmem | hlast
  · rcases List.mem_append.mp hmem with hname' | hblank
    · exact bracket_not_mem_name hname hname'
    · exact absurd (hblanks _ hblank) (by decide)
  · exact absurd (List.mem_singleton.mp hlast) (by decide)

/-! ## Bodies -/

/-- No closing tag stands in the text. -/
def NoClosingTag (text : List Char) : Prop :=
  ∀ tag, IsClosingTag tag → ¬ tag <:+: text

/-- A text in which no bracket and slash stand together holds no closing tag. -/
theorem no_closing_tag_of_no_mark {text : List Char} (h : ¬ ['<', '/'] <:+: text) :
    NoClosingTag text := by
  rintro tag ⟨name, blanks, -, -, rfl⟩ hlies
  have hmark : ['<', '/'] <+: '<' :: '/' :: (name ++ blanks ++ ['>']) :=
    ⟨name ++ blanks ++ ['>'], rfl⟩
  exact h (hmark.isInfix.trans hlies)

/-- A text without a closing tag is read as the body in front of the next closing tag. -/
theorem split_body_of_closing {body tag : List Char} (following : List Char)
    (hbody : NoClosingTag body) (htag : IsClosingTag tag) :
    splitBody? (body ++ (tag ++ following)) = some (body, following) := by
  obtain ⟨inner, hinner, -⟩ := bracket_not_mem_closing htag
  induction body with
  | nil =>
      have hclosing : afterClosing? (tag ++ following) = some following :=
        after_closing_eq_some_iff.mpr ⟨tag, htag, rfl⟩
      subst hinner
      rw [List.nil_append, List.cons_append, splitBody?, ← List.cons_append, hclosing]
  | cons c body ih =>
      have hrest : NoClosingTag body := fun other hother hlies =>
        hbody other hother (hlies.trans (List.suffix_cons c body).isInfix)
      have hnone : afterClosing? (c :: (body ++ (tag ++ following))) = none := by
        cases hfound : afterClosing? (c :: (body ++ (tag ++ following))) with
        | none => rfl
        | some behind =>
            -- a tag that begins in the body ends there: else it holds the next tag's bracket
            obtain ⟨other, hother, heq⟩ := after_closing_eq_some_iff.mp hfound
            obtain ⟨last, rfl, hlast⟩ := bracket_not_mem_closing hother
            have hprefix : '<' :: last <+: (c :: body) ++ '<' :: (inner ++ following) := by
              refine ⟨behind, ?_⟩
              rw [← heq, hinner]
              rfl
            have hinside : '<' :: last <+: c :: body :=
              Text.prefix_of_prefix_append_of_tail hprefix (List.cons_ne_nil c body) hlast
            exact absurd hinside.isInfix (hbody _ hother)
      rw [List.cons_append, splitBody?, hnone, ih hrest]
      rfl

end TemplateBundle.Document.Element

namespace TemplateBundle.Document

/-! ## Comments -/

/-- A comment is left behind the first end mark. -/
theorem after_comment_of_closed {text : List Char} (following : List Char)
    (h : ¬ ['-', '-', '>'] <:+: text) :
    afterComment (text ++ '-' :: '-' :: '>' :: following) = following := by
  induction text with
  | nil => rfl
  | cons c text ih =>
      have hrest : ¬ ['-', '-', '>'] <:+: text := fun hlies =>
        h (hlies.trans (List.suffix_cons c text).isInfix)
      have hnone : Text.after? ['-', '-', '>']
          (c :: (text ++ '-' :: '-' :: '>' :: following)) = none := by
        rw [Text.after_eq_none_iff]
        intro hprefix
        -- of an end mark that begins in the comment, the third character lies there too
        match text with
        | [] => simp at hprefix
        | [d] => simp at hprefix
        | d :: e :: text =>
            refine h (List.IsPrefix.isInfix ?_)
            simpa using hprefix
      rw [List.cons_append, afterComment, hnone]
      exact ih hrest

end TemplateBundle.Document

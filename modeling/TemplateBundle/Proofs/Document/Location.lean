import TemplateBundle.Proofs.Document.Extraction

/-!
# Where regions lie

Every region of a document is the body of an element in it (`regions_located`): in front of the body
stand a bracket, a name, and attributes up to a closing bracket, and behind it a closing tag. The
names are `script` in letters of ASCII, or begin with the letter `ſ`, which differs from `s` in case
only. The name ends where the word does, so an element whose name goes on behind a hyphen marks a
region as well (`longer_name_marks_region`).
-/

namespace TemplateBundle.Document

namespace Element

/-! ## Names of elements -/

/-- The letters that stand for a letter of the name. -/
theorem same_letter_iff {letter c : Char} (h : letter ∈ tagName) :
    sameLetter letter c = true ↔ c.toLower = letter ∨ letter = 's' ∧ c = 'ſ' := by
  have hletters : (tagName.all fun letter => letter.toNat < 0x80 && letter.toLower == letter &&
      letter.toUpper.toLower == letter && letter.toUpper.toNat != 0 &&
      letter.toUpper.toNat < 0x80 && letter.toUpper != 'K' && (letter.toUpper != 'S' || letter == 's')) = true := by
    decide
  have hletter := List.all_eq_true.mp hletters letter h
  simp only [Bool.and_eq_true, Bool.or_eq_true, bne_iff_ne, beq_iff_eq, decide_eq_true_eq]
    at hletter
  obtain ⟨⟨⟨⟨⟨⟨hascii, hsmall⟩, hback⟩, hnonzero⟩, hupper⟩, hkelvin⟩, hlong⟩ := hletter
  rw [sameLetter, Bool.or_eq_true, beq_iff_eq, beq_iff_eq, Text.fold_case_of_ascii hascii]
  constructor
  · rintro (rfl | hfold)
    · exact .inl hsmall
    · by_cases hc : c.toNat < 0x80
      · -- within ASCII there are few enough letters to look at each of them
        have hsame : ∀ code < 0x80,
            (Char.ofNat code).toUpper.toLower = (Char.ofNat code).toLower := by
          decide +kernel
        have hlower := hsame c.toNat hc
        rw [Text.fold_case_of_ascii hc] at hfold
        rw [Char.ofNat_toNat, ← hfold, hback] at hlower
        exact .inl hlower.symm
      · rw [hfold] at hnonzero hupper hkelvin hlong
        rcases Text.letter_of_fold_case (by omega) ⟨hnonzero, hupper⟩ with ⟨rfl, hs⟩ | ⟨-, hk⟩
        · exact .inr ⟨hlong.resolve_left (not_not.mpr hs), rfl⟩
        · exact absurd hk hkelvin
  · rintro (rfl | ⟨rfl, rfl⟩)
    · exact .inr (by rw [← Text.fold_case_of_ascii hascii, Text.fold_case_to_lower])
    · exact .inr Text.fold_case_long.symm

/-- The text is a word in letters of ASCII of any case. -/
def IsPlainWord (word text : List Char) : Prop :=
  text.map Char.toLower = word

/-- The names of elements are `script` in letters of ASCII, of any case, and the same with a `ſ` in
front. -/
theorem is_tag_name_iff {name : List Char} : IsTagName name ↔
    IsPlainWord tagName name ∨ ∃ rest, name = 'ſ' :: rest ∧ IsPlainWord tagName.tail rest := by
  have hplain {word text : List Char} (hword : word ⊆ tagName.tail) :
      IsWritten word text ↔ IsPlainWord word text := by
    constructor
    · intro hwritten
      induction hwritten with
      | nil => rfl
      | cons hsame _ ih =>
          obtain ⟨hletter, hrest⟩ := List.cons_subset.mp hword
          rcases (same_letter_iff (List.mem_of_mem_tail hletter)).mp hsame with hlower | ⟨rfl, -⟩
          · exact congrArg₂ List.cons hlower (ih hrest)
          · exact absurd hletter (by decide)
    · exact is_written_of_lower
  constructor
  · intro h
    cases h with
    | cons hsame hrest =>
        have hbehind := (hplain (List.Subset.refl _)).mp hrest
        rcases (same_letter_iff (by decide)).mp hsame with hlower | ⟨-, rfl⟩
        · exact .inl (congrArg₂ List.cons hlower hbehind)
        · exact .inr ⟨_, rfl, hbehind⟩
  · rintro (hname | ⟨rest, rfl, hrest⟩)
    · exact is_written_of_lower hname
    · exact .cons ((same_letter_iff (by decide)).mpr (.inr ⟨rfl, rfl⟩))
        ((hplain (List.Subset.refl _)).mpr hrest)

/-! ## Elements -/

/-- The attributes are read up to a closing bracket. -/
theorem split_attributes_eq {quote : Option Char} {text attributes rest : List Char}
    (h : splitAttributes? quote text = some (attributes, rest)) :
    text = attributes ++ '>' :: rest := by
  induction text generalizing quote attributes with
  | nil => cases quote <;> nomatch h
  | cons c text ih =>
      cases quote with
      | some quote =>
          obtain ⟨⟨others, behind⟩, hothers, heq⟩ := Option.map_eq_some_iff.mp h
          obtain ⟨rfl, rfl⟩ := Prod.mk.inj heq
          exact congrArg (c :: ·) (ih hothers)
      | none =>
          rw [splitAttributes?] at h
          by_cases hc : c = '>'
          · rw [if_pos hc] at h
            obtain ⟨rfl, rfl⟩ := Prod.mk.inj (Option.some.inj h)
            exact congrArg (· :: text) hc
          · rw [if_neg hc] at h
            obtain ⟨⟨others, behind⟩, hothers, heq⟩ := Option.map_eq_some_iff.mp h
            obtain ⟨rfl, rfl⟩ := Prod.mk.inj heq
            exact congrArg (c :: ·) (ih hothers)

/-- The body is read up to a closing tag. -/
theorem split_body_eq {text body rest : List Char} (h : splitBody? text = some (body, rest)) :
    ∃ tag, IsClosingTag tag ∧ text = body ++ (tag ++ rest) := by
  induction text generalizing body with
  | nil => nomatch h
  | cons c text ih =>
      rw [splitBody?] at h
      split at h
      · rename_i behind hclosing
        obtain ⟨rfl, rfl⟩ := Prod.mk.inj (Option.some.inj h)
        exact after_closing_eq_some_iff.mp hclosing
      · obtain ⟨⟨others, behind⟩, hothers, heq⟩ := Option.map_eq_some_iff.mp h
        obtain ⟨rfl, rfl⟩ := Prod.mk.inj heq
        obtain ⟨tag, htag, rfl⟩ := ih hothers
        exact ⟨tag, htag, rfl⟩

/-- The element is written so: its name, which ends with a word, its attributes up to a closing
bracket, and its body up to a closing tag. -/
def IsWrittenAs (element : Element) (text : List Char) : Prop :=
  ∃ name tag, IsTagName name ∧ IsClosingTag tag ∧
    (∀ c ∈ element.attributes.head?, Text.isWord c = false) ∧
    text = '<' :: (name ++ element.attributes ++ '>' :: (element.body ++ tag))

theorem of_text_written_as {text rest : List Char} {element : Element}
    (h : ofText? text = some (element, rest)) :
    ∃ written, element.IsWrittenAs written ∧ text = written ++ rest := by
  unfold ofText? at h
  split at h
  · rename_i behind hopening
    split at h
    · rename_i attributes inside hattributes
      obtain ⟨⟨body, following⟩, hbody, heq⟩ := Option.map_eq_some_iff.mp h
      obtain ⟨rfl, rfl⟩ := Prod.mk.inj heq
      obtain ⟨name, hname, rfl, hend⟩ := after_opening_eq_some_iff.mp hopening
      obtain ⟨tag, htag, rfl⟩ := split_body_eq hbody
      have hbehind := split_attributes_eq hattributes
      subst hbehind
      refine ⟨_, ⟨name, tag, hname, htag, fun c hc => ?_, rfl⟩, by simp⟩
      obtain ⟨others, hothers⟩ := List.head?_eq_some_iff.mp hc
      exact hend c (by rw [show attributes = c :: others from hothers]; rfl)
    · nomatch h
  · nomatch h

end Element

theorem after_comment_suffix (text : List Char) : afterComment text <:+ text := by
  induction text with
  | nil => exact List.suffix_rfl
  | cons c text ih =>
      rw [afterComment]
      split
      · rename_i behind hend
        exact ⟨_, (Text.after_eq_some_iff.mp hend).symm⟩
      · exact ih.trans (List.suffix_cons c text)

/-- Every element is written in the document. The induction follows the reading of the document. -/
theorem element_in_document {document : List Char} {element : Element}
    (h : element ∈ elements document) : ∃ written, element.IsWrittenAs written ∧
      written <:+: document := by
  induction document using elements.induct with
  | case1 => exact absurd h (by simp [elements])
  | case2 c rest inside hcomment ih =>
      rw [elements_of_comment hcomment] at h
      obtain ⟨written, hwritten, hinside⟩ := ih h
      -- what a comment holds is passed over, but it is part of the document
      have hbehind : inside <:+ c :: rest := ⟨_, (Text.after_eq_some_iff.mp hcomment).symm⟩
      exact ⟨written, hwritten, hinside.trans ((after_comment_suffix inside).trans hbehind).isInfix⟩
  | case3 c rest hcomment first following hfirst ih =>
      rw [elements_of_element hcomment hfirst, List.mem_cons] at h
      obtain ⟨text, htext, hdocument⟩ := Element.of_text_written_as hfirst
      rcases h with rfl | h
      · exact ⟨text, htext, ⟨[], following, hdocument.symm⟩⟩
      · obtain ⟨written, hwritten, hinside⟩ := ih h
        exact ⟨written, hwritten, hinside.trans ⟨text, [], by rw [hdocument, List.append_nil]⟩⟩
  | case4 c rest hcomment helement ih =>
      have hnone : elements (c :: rest) = elements rest := by
        rw [elements]
        split
        · rename_i hfound
          exact absurd (hcomment.symm.trans hfound) (Option.some_ne_none _).symm
        · split
          · rename_i hfound
            exact absurd (helement.symm.trans hfound) (Option.some_ne_none _).symm
          · rfl
      rw [hnone] at h
      obtain ⟨written, hwritten, hinside⟩ := ih h
      exact ⟨written, hwritten, hinside.trans (List.suffix_cons c rest).isInfix⟩

/-- Every region is the body of an element of the document whose type is the template type. The name
of the element is `script` in letters of ASCII or with a `ſ` in front, and no word goes on behind it;
so is the name in the closing tag behind the body. -/
theorem regions_located (templateType document : String) :
    ∀ region ∈ regions templateType document, ∃ element : Element, ∃ written,
      element.IsWrittenAs written ∧ written <:+: document.toList ∧
      Region.ofElement? templateType element = some region ∧
      region.body = String.ofList element.body := by
  intro region hregion
  obtain ⟨element, helement, hof⟩ := List.mem_filterMap.mp hregion
  obtain ⟨written, hwritten, hinside⟩ := element_in_document helement
  refine ⟨element, written, hwritten, hinside, hof, ?_⟩
  rw [Region.ofElement?, Option.ite_none_right_eq_some] at hof
  rw [← Option.some.inj hof.2]

theorem name_type : "type".toList.all Attribute.isNameChar = true ∧ "type".toList ≠ [] ∧
    '"' ∉ "text/template".toList := by
  decide

theorem name_id : "id".toList.all Attribute.isNameChar = true ∧ "id".toList ≠ [] ∧
    '"' ∉ "a".toList := by
  decide

/-- The attributes that mark a region with an identifier. -/
def markingAttributes : List WrittenAttribute :=
  [doubleQuoted "type" "text/template" name_type.1 name_type.2.1 name_type.2.2,
    doubleQuoted "id" "a" name_id.1 name_id.2.1 name_id.2.2]

/-- The element whose name goes on behind a hyphen. -/
def longerElement : Element where
  attributes := '-' :: 'x' :: attributesText markingAttributes
  body := ['t']

/-- An element whose name goes on behind a hyphen marks a region as well. -/
theorem longer_name_marks_region :
    regions standardType "<script-x type=\"text/template\" id=\"a\">t</script>" =
      [{ id := some "a", body := "t" }] := by
  have helement : Element.ofText?
      "<script-x type=\"text/template\" id=\"a\">t</script>".toList = some (longerElement, []) := by
    decide +kernel
  have hread : Attribute.readAll longerElement.attributes =
      [⟨"-x", ""⟩, ⟨"type", "text/template"⟩, ⟨"id", "a"⟩] := by
    have hbehind := Attribute.read_all_attributes markingAttributes
    have hnone := Attribute.assigned_of_attributes markingAttributes
    have hdrop : ('x' :: attributesText markingAttributes).dropWhile Attribute.isNameChar =
        attributesText markingAttributes := by
      decide
    refine (Attribute.read_all_of_absent (by decide) (hdrop ▸ hnone)).trans ?_
    rw [hdrop, hbehind]
    decide +kernel
  have hregion : Region.ofElement? standardType longerElement = some ⟨some "a", "t"⟩ := by
    rw [Region.ofElement?, hread]
    rfl
  rw [regions, elements_of_element (by decide) helement, elements, List.filterMap_cons, hregion]
  rfl

end TemplateBundle.Document

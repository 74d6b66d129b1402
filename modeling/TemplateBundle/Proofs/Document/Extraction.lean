import TemplateBundle.Document.Fragment
import TemplateBundle.Proofs.Document.Tags
import TemplateBundle.Proofs.Document.Attributes

/-!
# Extraction undoes writing

A document is written as a sequence of pieces: filler, comments and script elements. The main
result, `regions_of_written`, says that the regions of the written document are those of its
elements whose `type` is the template type, in order, and that whatever is written behind the
pieces is read as a document of its own. Filler is the only piece with a condition on what follows
it: no comment and no element may begin in it when both are read together.
-/

namespace TemplateBundle.Document

/-! ## Elements -/

/-- A script element as it is written. Both tags have the name in letters of ASCII of any case, and
the body holds no closing tag. -/
structure WrittenElement where
  opening : List Char
  attributes : List WrittenAttribute
  body : List Char
  closing : List Char
  hopening : opening.map Char.toLower = Element.tagName
  hbody : Element.NoClosingTag body
  hclosing : closing.map Char.toLower = Element.tagName

namespace WrittenElement

/-- The element as it stands in the document. -/
def text (element : WrittenElement) : List Char :=
  '<' :: (element.opening ++ attributesText element.attributes ++ '>' :: element.body ++
    '<' :: '/' :: (element.closing ++ ['>']))

/-- The decoded value of the first attribute with the name, in letters of ASCII of any case. -/
def value? (element : WrittenElement) (name : String) : Option String :=
  (element.attributes.find? fun written =>
    String.ofList (written.name.map Char.toLower) == name).map
      fun written => String.ofList (Entity.decode written.value.raw)

/-- The region that the element marks, if its type is the template type. -/
def region? (templateType : String) (element : WrittenElement) : Option Region :=
  if element.value? "type" = some templateType then
    some { id := element.value? "id", body := String.ofList element.body }
  else none

end WrittenElement

/-! ## Pieces of a document -/

/-- A piece of a document. A comment holds no end mark. -/
inductive Piece where
  | filler (text : List Char)
  | comment (text : List Char) (hopen : ¬ ['-', '-', '>'] <:+: text)
  | element (element : WrittenElement)

namespace Piece

/-- The piece as it stands in the document. -/
def text : Piece → List Char
  | .filler text => text
  | .comment text _ => '<' :: '!' :: '-' :: '-' :: (text ++ ['-', '-', '>'])
  | .element written => written.text

/-- The region that the piece marks. -/
def region? (templateType : String) : Piece → Option Region
  | .element written => written.region? templateType
  | _ => none

end Piece

/-- The pieces as they stand in the document, one behind the other. -/
def piecesText (pieces : List Piece) : List Char :=
  pieces.flatMap Piece.text

/-- A comment or a script element begins the text, whether or not it is completed. -/
def BeginsMarkup (text : List Char) : Prop :=
  ['<', '!', '-', '-'] <+: text ∨ ∃ name, Element.IsTagName name ∧ '<' :: name <+: text

/-- No comment and no script element begins in the text when it is read with what follows. -/
def IsFiller (text following : List Char) : Prop :=
  ∀ rest, rest ≠ [] → rest <:+ text → ¬ BeginsMarkup (rest ++ following)

/-- All filler among the pieces is filler when it is read with what follows it. -/
def Fits : List Piece → List Char → Prop
  | [], _ => True
  | .filler text :: pieces, tail =>
      IsFiller text (piecesText pieces ++ tail) ∧ Fits pieces tail
  | _ :: pieces, tail => Fits pieces tail

/-- A text without an opening bracket is filler whatever follows. -/
theorem is_filler_of_no_bracket {text following : List Char} (h : '<' ∉ text) :
    IsFiller text following := by
  intro rest hne hsuffix hbegins
  obtain ⟨c, others, rfl⟩ := List.exists_cons_of_ne_nil hne
  have hc : c ≠ '<' := fun heq => h (heq ▸ hsuffix.subset List.mem_cons_self)
  rcases hbegins with hcomment | ⟨name, -, hname⟩
  · exact hc (List.cons_prefix_cons.mp hcomment).1.symm
  · exact hc (List.cons_prefix_cons.mp hname).1.symm

/-! ## Reading one piece -/

/-- A comment is passed over. -/
theorem elements_of_comment {text inside : List Char}
    (h : Text.after? ['<', '!', '-', '-'] text = some inside) :
    elements text = elements (afterComment inside) := by
  cases text with
  | nil => cases h
  | cons c rest =>
      rw [elements]
      split
      case h_1 hfound =>
        rw [h] at hfound
        cases hfound
        rfl
      case h_2 hfound =>
        rw [h] at hfound
        cases hfound

/-- An element is read where one stands. -/
theorem elements_of_element {text following : List Char} {element : Element}
    (hcomment : Text.after? ['<', '!', '-', '-'] text = none)
    (helement : Element.ofText? text = some (element, following)) :
    elements text = element :: elements following := by
  cases text with
  | nil => cases helement
  | cons c rest =>
      rw [elements]
      split
      case h_1 hfound =>
        rw [hcomment] at hfound
        cases hfound
      case h_2 =>
        split
        case h_1 hfound =>
          rw [helement] at hfound
          cases hfound
          rfl
        case h_2 hfound =>
          rw [helement] at hfound
          cases hfound

/-- A character at which no comment and no element begins is passed over. -/
theorem elements_of_plain {c : Char} {rest : List Char} (h : ¬ BeginsMarkup (c :: rest)) :
    elements (c :: rest) = elements rest := by
  rw [BeginsMarkup, not_or] at h
  have hopening : Element.afterOpening? (c :: rest) = none := by
    cases hfound : Element.afterOpening? (c :: rest) with
    | none => rfl
    | some behind =>
        obtain ⟨name, hname, heq, -⟩ := Element.after_opening_eq_some_iff.mp hfound
        exact absurd ⟨name, hname, behind, heq.symm⟩ h.2
  have helement : Element.ofText? (c :: rest) = none := by
    rw [Element.ofText?, hopening]
  rw [elements]
  split
  case h_1 hfound =>
    rw [Text.after_eq_none_iff.mpr h.1] at hfound
    cases hfound
  case h_2 =>
    split
    case h_1 hfound =>
      rw [helement] at hfound
      cases hfound
    case h_2 => rfl

/-- Filler is passed over. -/
theorem elements_of_filler {text following : List Char} (h : IsFiller text following) :
    elements (text ++ following) = elements following := by
  induction text with
  | nil => rfl
  | cons c text ih =>
      have hplain : ¬ BeginsMarkup (c :: (text ++ following)) :=
        h (c :: text) (List.cons_ne_nil c text) (List.suffix_refl _)
      rw [List.cons_append, elements_of_plain hplain]
      exact ih fun rest hne hsuffix => h rest hne (hsuffix.trans (List.suffix_cons c text))

/-- The name of an opening tag does not go on behind it, whether or not there are attributes. -/
theorem ends_name_attributes (attributes : List WrittenAttribute) (behind : List Char) :
    ∀ c ∈ (attributesText attributes ++ '>' :: behind).head?, Text.isWord c = false := by
  intro c hc
  rw [List.head?_append] at hc
  cases hhead : (attributesText attributes).head? with
  | none =>
      rw [hhead] at hc
      cases hc
      decide
  | some d =>
      rw [hhead] at hc
      cases hc
      exact Text.is_word_of_white (Attribute.ends_value_attributes attributes c hhead)

/-- A written element is read with its attributes and its body. -/
theorem of_text_written (written : WrittenElement) (following : List Char) :
    Element.ofText? (written.text ++ following) =
      some ({ attributes := attributesText written.attributes, body := written.body },
        following) := by
  -- what each reader leaves is what the next one starts from
  have hclosing : Element.IsClosingTag ('<' :: '/' :: (written.closing ++ ['>'])) :=
    ⟨written.closing, [], Element.is_written_of_lower written.hclosing, by simp, by simp⟩
  have hbody := Element.split_body_of_closing following written.hbody hclosing
  have hattributes := Element.split_attributes_of_written written.attributes
    (written.body ++ ('<' :: '/' :: (written.closing ++ ['>']) ++ following))
  have hopening := Element.after_opening_eq_some_iff.mpr
    ⟨written.opening, Element.is_written_of_lower written.hopening, rfl,
      ends_name_attributes written.attributes
        (written.body ++ ('<' :: '/' :: (written.closing ++ ['>']) ++ following))⟩
  have htext : written.text ++ following = '<' :: (written.opening ++
      (attributesText written.attributes ++ '>' ::
        (written.body ++ ('<' :: '/' :: (written.closing ++ ['>']) ++ following)))) := by
    simp [WrittenElement.text]
  rw [htext, Element.ofText?, hopening]
  simp only [hattributes, hbody, Option.map_some]

/-- A written element is read as one element of the document. -/
theorem elements_of_written (written : WrittenElement) (following : List Char) :
    elements (written.text ++ following) =
      { attributes := attributesText written.attributes, body := written.body } ::
        elements following := by
  refine elements_of_element ?_ (of_text_written written following)
  -- the character behind the bracket is the first one of the name
  obtain ⟨c, name, hname, hc, -⟩ := List.map_eq_cons_iff.mp written.hopening
  rw [Text.after_eq_none_iff, WrittenElement.text, hname]
  intro hprefix
  have hmark : '!' = c := by
    simp only [List.cons_append, List.cons_prefix_cons] at hprefix
    exact hprefix.2.1
  rw [← hmark] at hc
  exact absurd hc (by decide)

/-! ## Regions -/

/-- The attributes that are looked up in an element are the written ones. -/
theorem first_of_written (written : WrittenElement) (name : String) :
    Attribute.first? (Attribute.readAll (attributesText written.attributes)) name =
      written.value? name := by
  rw [Attribute.read_all_attributes, Attribute.first?, List.find?_map, Option.map_map]
  rfl

/-- The region of an element that was read is the region of the written one. -/
theorem of_element_written (templateType : String) (written : WrittenElement) :
    Region.ofElement? templateType
        { attributes := attributesText written.attributes, body := written.body } =
      written.region? templateType := by
  unfold Region.ofElement?
  simp only [first_of_written]
  rfl

/-- The regions of a written document are those that its elements mark, followed by those of the
text behind it. -/
theorem regions_of_written (templateType : String) (pieces : List Piece) (tail : String)
    (hfits : Fits pieces tail.toList) :
    regions templateType (String.ofList (piecesText pieces) ++ tail) =
      pieces.filterMap (Piece.region? templateType) ++ regions templateType tail := by
  unfold regions
  rw [String.toList_append, String.toList_ofList]
  induction pieces with
  | nil => rfl
  | cons piece pieces ih =>
      have htext : piecesText (piece :: pieces) ++ tail.toList =
          piece.text ++ (piecesText pieces ++ tail.toList) := by
        simp [piecesText]
      rw [htext]
      cases piece with
      | filler text =>
          rw [Piece.text, elements_of_filler hfits.1, ih hfits.2]
          rfl
      | comment text hopen =>
          have hcomment : Text.after? ['<', '!', '-', '-']
              (Piece.text (.comment text hopen) ++ (piecesText pieces ++ tail.toList)) =
                some (text ++ '-' :: '-' :: '>' :: (piecesText pieces ++ tail.toList)) :=
            Text.after_eq_some_iff.mpr (by simp [Piece.text])
          rw [elements_of_comment hcomment, after_comment_of_closed _ hopen, ih hfits]
          rfl
      | element written =>
          rw [Piece.text, elements_of_written, List.filterMap_cons, of_element_written,
            List.filterMap_cons, ih hfits, Piece.region?]
          cases written.region? templateType with
          | none => rfl
          | some region => rfl

/-- An attribute with a value in double quotes, behind a blank. -/
def doubleQuoted (name value : String) (hname : name.toList.all Attribute.isNameChar = true)
    (hname_ne : name.toList ≠ []) (hvalue : '"' ∉ value.toList) : WrittenAttribute where
  blanks := [' ']
  name := name.toList
  value := .quoted '"' value.toList (.inl rfl) hvalue
  hblanks := List.all_eq_true.mp rfl
  hblanks_ne := List.cons_ne_nil _ _
  hname := List.all_eq_true.mp hname
  hname_ne := hname_ne

/-- The element of the small document, with a value in quotes, none, and a bare one. -/
def smallElement : WrittenElement where
  opening := ['S', 'c', 'r', 'i', 'p', 't']
  attributes :=
    [{ blanks := [' '], name := ['T', 'y', 'p', 'e']
       value := .quoted '"' ['a', '>', 'b'] (by decide) (by decide)
       hblanks := List.all_eq_true.mp (by decide), hblanks_ne := by decide
       hname := List.all_eq_true.mp (by decide), hname_ne := by decide },
     { blanks := [' '], name := ['x'], value := .absent
       hblanks := List.all_eq_true.mp (by decide), hblanks_ne := by decide
       hname := List.all_eq_true.mp (by decide), hname_ne := by decide },
     { blanks := ['\n'], name := ['i', 'd']
       value := .bare ['&', 'l', 't', ';'] (by decide) (List.all_eq_true.mp (by decide))
       hblanks := List.all_eq_true.mp (by decide), hblanks_ne := by decide
       hname := List.all_eq_true.mp (by decide), hname_ne := by decide }]
  body := ['<', 'p', '>']
  closing := ['s', 'c', 'r', 'i', 'p', 't']
  hopening := by decide
  hbody := Element.no_closing_tag_of_no_mark (by decide)
  hclosing := by decide

/-- A small document: filler, a comment, and an element. -/
def smallDocument : List Piece :=
  [.filler ['x'], .comment ['<', 'y'] (by decide), .element smallElement]

/-- The region of the small document, in front of whatever the text behind it has. -/
theorem regions_small_document :
    Fits smallDocument "</p>".toList ∧
      regions "a>b" "x<!--<y--><Script Type=\"a>b\" x\nid=&lt;><p></script></p>" =
        { id := some "<", body := "<p>" } :: regions "a>b" "</p>" := by
  have hfits : Fits smallDocument "</p>".toList := ⟨is_filler_of_no_bracket (by decide), trivial⟩
  have htext : String.ofList (piecesText smallDocument) ++ "</p>" =
      "x<!--<y--><Script Type=\"a>b\" x\nid=&lt;><p></script></p>" := by
    decide +kernel
  have hmarked : smallDocument.filterMap (Piece.region? "a>b") =
      [{ id := some "<", body := "<p>" }] := by
    decide +kernel
  refine ⟨hfits, ?_⟩
  rw [← htext, regions_of_written "a>b" smallDocument "</p>" hfits, hmarked]
  rfl

end TemplateBundle.Document

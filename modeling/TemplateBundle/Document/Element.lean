import TemplateBundle.Text.Replace
import TemplateBundle.Text.CharacterClass
import TemplateBundle.Text.LetterCase

/-!
# Script elements of a document

A document is read for nothing but its script elements and its comments. A comment hides what it
holds and reaches to the end of the document when it is not closed. An element begins with
`<script`, in letters of any case, where the name is not part of a longer word; its attributes
reach to the first closing bracket outside quotes, and its body to the first closing tag. Where
any of that is missing, the text at this place is no element.
-/

namespace TemplateBundle.Document

/-- A script element: the text of its attributes and its body. -/
structure Element where
  attributes : List Char
  body : List Char
  deriving DecidableEq, Repr

namespace Element

/-- The two characters are the same apart from case. -/
def sameLetter (left right : Char) : Bool :=
  left == right || Text.foldCase left == Text.foldCase right

/-- The text behind `word`, if it starts with it in letters of any case. -/
def afterWord? : (word text : List Char) → Option (List Char)
  | [], text => some text
  | _ :: _, [] => none
  | w :: word, c :: text => if sameLetter w c then afterWord? word text else none

/-- The name of the elements that are looked for. -/
def tagName : List Char := ['s', 'c', 'r', 'i', 'p', 't']

/-- The text behind the name of an opening tag. The name must not go on as a longer word. -/
def afterOpening? (text : List Char) : Option (List Char) :=
  match text with
  | '<' :: rest =>
      match afterWord? tagName rest with
      | some [] => some []
      | some (c :: behind) => if Text.isWord c then none else some (c :: behind)
      | none => none
  | _ => none

/-- The text behind a closing tag, which may hold white space behind its name. -/
def afterClosing? (text : List Char) : Option (List Char) :=
  match text with
  | '<' :: '/' :: rest =>
      match afterWord? tagName rest with
      | some behind =>
          match behind.dropWhile Text.isWhite with
          | '>' :: following => some following
          | _ => none
      | none => none
  | _ => none

/-- The text up to the first closing bracket outside quotes, and the text behind it. The first
argument is the quote that is open. -/
def splitAttributes? : Option Char → List Char → Option (List Char × List Char)
  | _, [] => none
  | some quote, c :: rest =>
      (splitAttributes? (if c = quote then none else some quote) rest).map
        fun (attributes, behind) => (c :: attributes, behind)
  | none, c :: rest =>
      if c = '>' then some ([], rest)
      else
        (splitAttributes? (if c = '"' ∨ c = '\'' then some c else none) rest).map
          fun (attributes, behind) => (c :: attributes, behind)

/-- The text up to the first closing tag, and the text behind the tag. -/
def splitBody? : List Char → Option (List Char × List Char)
  | [] => none
  | c :: rest =>
      match afterClosing? (c :: rest) with
      | some behind => some ([], behind)
      | none => (splitBody? rest).map fun (body, behind) => (c :: body, behind)

/-- An element at the start of the text, and what follows it. -/
def ofText? (text : List Char) : Option (Element × List Char) :=
  match afterOpening? text with
  | some behind =>
      match splitAttributes? none behind with
      | some (attributes, inside) =>
          (splitBody? inside).map fun (body, following) => ({ attributes, body }, following)
      | none => none
  | none => none

end Element

/-- The text behind the comment whose opening has been read. -/
def afterComment : List Char → List Char
  | [] => []
  | c :: rest =>
      match Text.after? ['-', '-', '>'] (c :: rest) with
      | some behind => behind
      | none => afterComment rest

namespace Element

/-- Reading behind a word leaves less text. -/
theorem length_afterWord? {word text rest : List Char} (h : afterWord? word text = some rest) :
    text.length = word.length + rest.length := by
  induction word generalizing text with
  | nil => simp_all [afterWord?]
  | cons w word ih =>
      cases text with
      | nil => simp [afterWord?] at h
      | cons c text =>
          simp only [afterWord?] at h
          split at h
          · have := ih h
            simp only [List.length_cons]
            omega
          · simp at h

/-- Reading an opening leaves less text. -/
theorem length_afterOpening? {text rest : List Char} (h : afterOpening? text = some rest) :
    rest.length < text.length := by
  unfold afterOpening? at h
  split at h
  · rename_i behind
    split at h
    · rename_i heq
      have := length_afterWord? heq
      simp only [Option.some.injEq] at h
      subst h
      simp
    · rename_i heq
      have := length_afterWord? heq
      split at h
      · simp at h
      · simp only [Option.some.injEq] at h
        subst h
        simp only [List.length_cons] at this ⊢
        omega
    · simp at h
  · simp at h

/-- Reading a closing tag leaves less text. -/
theorem length_afterClosing? {text rest : List Char} (h : afterClosing? text = some rest) :
    rest.length ≤ text.length := by
  unfold afterClosing? at h
  split at h
  · rename_i behind
    split at h
    · rename_i following heq
      have first := length_afterWord? heq
      have second := (List.dropWhile_sublist Text.isWhite (l := following)).length_le
      split at h
      · rename_i last found
        rw [found] at second
        simp only [Option.some.injEq] at h
        subst h
        simp only [List.length_cons] at second ⊢
        omega
      · simp at h
    · simp at h
  · simp at h

/-- Reading the attributes leaves less text. -/
theorem length_splitAttributes? {quote : Option Char} {text attributes rest : List Char}
    (h : splitAttributes? quote text = some (attributes, rest)) :
    rest.length ≤ text.length := by
  induction text generalizing quote attributes with
  | nil => cases quote <;> simp [splitAttributes?] at h
  | cons c text ih =>
      cases quote with
      | none =>
          simp only [splitAttributes?] at h
          split at h
          · simp only [Option.some.injEq, Prod.mk.injEq] at h
            simp [← h.2]
          · simp only [Option.map_eq_some_iff, Prod.exists, Prod.mk.injEq] at h
            obtain ⟨_, _, heq, -, rfl⟩ := h
            have := ih heq
            simp only [List.length_cons]
            omega
      | some quote =>
          simp only [splitAttributes?, Option.map_eq_some_iff, Prod.exists, Prod.mk.injEq] at h
          obtain ⟨_, _, heq, -, rfl⟩ := h
          have := ih heq
          simp only [List.length_cons]
          omega

/-- Reading the body leaves less text. -/
theorem length_splitBody? {text body rest : List Char}
    (h : splitBody? text = some (body, rest)) : rest.length ≤ text.length := by
  induction text generalizing body with
  | nil => simp [splitBody?] at h
  | cons c text ih =>
      simp only [splitBody?] at h
      split at h
      · rename_i heq
        have := length_afterClosing? heq
        simp only [Option.some.injEq, Prod.mk.injEq] at h
        rw [← h.2]
        exact this
      · simp only [Option.map_eq_some_iff, Prod.exists, Prod.mk.injEq] at h
        obtain ⟨_, _, heq, -, rfl⟩ := h
        have := ih heq
        simp only [List.length_cons]
        omega

/-- Reading an element leaves less text. -/
theorem length_ofText? {text rest : List Char} {element : Element}
    (h : ofText? text = some (element, rest)) : rest.length < text.length := by
  unfold ofText? at h
  split at h
  · rename_i heq
    have first := length_afterOpening? heq
    split at h
    · rename_i heq'
      have second := length_splitAttributes? heq'
      simp only [Option.map_eq_some_iff, Prod.exists, Prod.mk.injEq] at h
      obtain ⟨_, _, heq'', -, rfl⟩ := h
      have third := length_splitBody? heq''
      omega
    · simp at h
  · simp at h

end Element

/-- Reading a comment leaves no more text. -/
theorem length_afterComment (text : List Char) : (afterComment text).length ≤ text.length := by
  induction text with
  | nil => simp [afterComment]
  | cons c text ih =>
      simp only [afterComment]
      split
      · rename_i heq
        have := Text.length_after? heq
        omega
      · simp only [List.length_cons]
        omega

/-- The script elements of a document, in order. An element inside the body of another one is part
of that body. -/
def elements : List Char → List Element
  | [] => []
  | c :: rest =>
      match _comment : Text.after? ['<', '!', '-', '-'] (c :: rest) with
      | some inside => elements (afterComment inside)
      | none =>
          match _element : Element.ofText? (c :: rest) with
          | some (element, following) => element :: elements following
          | none => elements rest
  termination_by text => text.length
  decreasing_by
    · have first := Text.length_after? _comment
      have second := length_afterComment inside
      simp only [List.length_cons, List.length_nil] at first ⊢
      omega
    · exact Element.length_ofText? _element
    · simp

end TemplateBundle.Document

import TemplateBundle.Text.WhiteSpace
import TemplateBundle.Document.Entity

/-!
# Attributes of an element

The attributes in the text between the name of an element and its closing bracket. Whatever is
neither a name nor a value behind `=` is passed over.
-/

namespace TemplateBundle.Document

/-- An attribute with its name in ASCII lower case and its decoded value. An attribute without a
value has the empty one. -/
structure Attribute where
  name : String
  value : String
  deriving DecidableEq, Repr

namespace Attribute

/-- Characters that names of attributes are made of. -/
def isNameChar (c : Char) : Bool :=
  !(Text.isWhite c || c == '"' || c == '\'' || c == '=' || c == '<' || c == '>' || c == '/')

/-- Characters that values without quotes are made of. -/
def isBareChar (c : Char) : Bool :=
  !(Text.isWhite c || c == '"' || c == '\'' || c == '=' || c == '<' || c == '>' || c == '\x60')

/-- The text up to the next `quote` and the text behind it. -/
def untilQuote? (quote : Char) : List Char → Option (List Char × List Char)
  | [] => none
  | c :: rest =>
      if c = quote then some ([], rest)
      else (untilQuote? quote rest).map fun (value, behind) => (c :: value, behind)

/-- A written value at the start of the text, and what follows it. -/
def value? (text : List Char) : Option (List Char × List Char) :=
  match text with
  | '"' :: rest => untilQuote? '"' rest
  | '\'' :: rest => untilQuote? '\'' rest
  | _ =>
      match text.takeWhile isBareChar with
      | [] => none
      | value => some (value, text.dropWhile isBareChar)

/-- A value behind `=` at the start of the text, with white space allowed around the sign, and
what follows it. -/
def assigned? (text : List Char) : Option (List Char × List Char) :=
  match text.dropWhile Text.isWhite with
  | '=' :: rest => value? (rest.dropWhile Text.isWhite)
  | _ => none

/-- The attribute with the given written name and value. -/
def ofWritten (name value : List Char) : Attribute :=
  { name := String.ofList (name.map Char.toLower)
    value := String.ofList (Entity.decode value) }

/-- What follows a value is no longer than the text it was read from. -/
theorem length_untilQuote? {quote : Char} {text value rest : List Char}
    (h : untilQuote? quote text = some (value, rest)) : rest.length ≤ text.length := by
  induction text generalizing value with
  | nil => simp [untilQuote?] at h
  | cons c text ih =>
      simp only [untilQuote?] at h
      split at h
      · simp only [Option.some.injEq, Prod.mk.injEq] at h
        simp [← h.2]
      · simp only [Option.map_eq_some_iff, Prod.exists, Prod.mk.injEq] at h
        obtain ⟨found, behind, heq, -, rfl⟩ := h
        have := ih heq
        simp only [List.length_cons]
        omega

/-- What follows a value is no longer than the text it was read from. -/
theorem length_value? {text value rest : List Char} (h : value? text = some (value, rest)) :
    rest.length ≤ text.length := by
  unfold value? at h
  split at h
  · have := length_untilQuote? h
    simp only [List.length_cons]
    omega
  · have := length_untilQuote? h
    simp only [List.length_cons]
    omega
  · split at h
    · simp at h
    · simp only [Option.some.injEq, Prod.mk.injEq] at h
      rw [← h.2]
      exact (List.dropWhile_sublist _).length_le

/-- What follows an assigned value is no longer than the text it was read from. -/
theorem length_assigned? {text value rest : List Char}
    (h : assigned? text = some (value, rest)) : rest.length ≤ text.length := by
  unfold assigned? at h
  split at h
  · rename_i behind heq
    have first := length_value? h
    have second := (List.dropWhile_sublist Text.isWhite (l := behind)).length_le
    have third := (List.dropWhile_sublist Text.isWhite (l := text)).length_le
    rw [heq] at third
    simp only [List.length_cons] at third
    omega
  · simp at h

/-- Dropping a run of characters gives a text that is no longer. -/
theorem length_dropWhile_le (p : Char → Bool) (text : List Char) :
    (text.dropWhile p).length ≤ text.length :=
  (List.dropWhile_sublist p).length_le

/-- All attributes in the text, in order. -/
def readAll : List Char → List Attribute
  | [] => []
  | c :: rest =>
      if isNameChar c then
        match _found : assigned? (rest.dropWhile isNameChar) with
        | some (value, following) =>
            ofWritten (c :: rest.takeWhile isNameChar) value :: readAll following
        | none =>
            ofWritten (c :: rest.takeWhile isNameChar) [] ::
              readAll (rest.dropWhile isNameChar)
      else readAll rest
  termination_by text => text.length
  decreasing_by
    · have first := length_assigned? _found
      have second := length_dropWhile_le isNameChar rest
      simp only [List.length_cons]
      omega
    · have := length_dropWhile_le isNameChar rest
      simp only [List.length_cons]
      omega
    · simp

/-- The value of the first attribute with the name; later ones of the same name do not count. -/
def first? (attributes : List Attribute) (name : String) : Option String :=
  (attributes.find? fun candidate => candidate.name == name).map Attribute.value

end Attribute

end TemplateBundle.Document

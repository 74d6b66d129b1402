import TemplateBundle.Document.Attribute
import TemplateBundle.Document.Element

/-!
# Written attributes

An attribute as an author writes it: white space, a name, and a value in quotes, a bare value or
none. `read_all_attributes` shows that reading the attributes of an opening tag gives back their
names and values, and `split_attributes_of_written` that the tag ends at the first closing bracket
behind them, whatever stands in quotes.
-/

namespace TemplateBundle.Document

/-- What is written behind the name of an attribute. The raw text of a value in quotes is without
that quote; a bare value has at least one character. -/
inductive WrittenValue where
  | absent
  | quoted (quote : Char) (raw : List Char) (hquote : quote = '"' ∨ quote = '\'')
      (hraw : quote ∉ raw)
  | bare (raw : List Char) (hne : raw ≠ [])
      (hraw : ∀ c ∈ raw, Attribute.isBareChar c = true)

namespace WrittenValue

/-- The value as it stands in the document. -/
def text : WrittenValue → List Char
  | absent => []
  | quoted quote raw _ _ => '=' :: quote :: (raw ++ [quote])
  | bare raw _ _ => '=' :: raw

/-- The raw text of the value, which is empty where there is none. -/
def raw : WrittenValue → List Char
  | absent => []
  | quoted _ raw _ _ => raw
  | bare raw _ _ => raw

end WrittenValue

/-- An attribute with the white space in front of it. -/
structure WrittenAttribute where
  blanks : List Char
  name : List Char
  value : WrittenValue
  hblanks : ∀ c ∈ blanks, Text.isWhite c = true
  hblanks_ne : blanks ≠ []
  hname : ∀ c ∈ name, Attribute.isNameChar c = true
  hname_ne : name ≠ []

/-- The attribute as it stands in the document. -/
def WrittenAttribute.text (written : WrittenAttribute) : List Char :=
  written.blanks ++ written.name ++ written.value.text

/-- The attributes as they stand in an opening tag. -/
def attributesText (attributes : List WrittenAttribute) : List Char :=
  attributes.flatMap WrittenAttribute.text

/-! ## Characters of attributes -/

/-- Characters that neither open a quotation nor end a tag. -/
def IsPlain (c : Char) : Prop :=
  c ≠ '>' ∧ c ≠ '"' ∧ c ≠ '\''

/-- Characters of a kind to which neither quotes nor the closing bracket belong are plain. -/
theorem is_plain_of_kind {kind : Char → Bool}
    (hkind : kind '>' = false ∧ kind '"' = false ∧ kind '\'' = false) {c : Char}
    (h : kind c = true) : IsPlain c := by
  obtain ⟨hend, hdouble, hsingle⟩ := hkind
  refine ⟨?_, ?_, ?_⟩
  · rintro rfl
    exact Bool.false_ne_true (hend.symm.trans h)
  · rintro rfl
    exact Bool.false_ne_true (hdouble.symm.trans h)
  · rintro rfl
    exact Bool.false_ne_true (hsingle.symm.trans h)

/-- White space belongs to no name. -/
theorem is_name_char_of_white {c : Char} (h : Text.isWhite c = true) :
    Attribute.isNameChar c = false := by
  simp [Attribute.isNameChar, h]

/-- White space belongs to no bare value. -/
theorem is_bare_char_of_white {c : Char} (h : Text.isWhite c = true) :
    Attribute.isBareChar c = false := by
  simp [Attribute.isBareChar, h]

/-- A character of a name is neither white space nor the sign in front of a value. -/
theorem not_white_of_name {c : Char} (h : Attribute.isNameChar c = true) :
    Text.isWhite c = false ∧ c ≠ '=' := by
  refine ⟨?_, ?_⟩
  · cases hwhite : Text.isWhite c with
    | false => rfl
    | true =>
        rw [is_name_char_of_white hwhite] at h
        cases h
  · rintro rfl
    exact absurd h (by decide)

/-- A character of a bare value is no white space. -/
theorem not_white_of_bare {c : Char} (h : Attribute.isBareChar c = true) :
    Text.isWhite c = false := by
  cases hwhite : Text.isWhite c with
  | false => rfl
  | true =>
      rw [is_bare_char_of_white hwhite] at h
      cases h

/-! ## Where the attributes end -/

namespace Element

/-- Reading the text leads from the open quote `start` to the open quote `finish`, and not to the
end of the tag. -/
def Crosses (start : Option Char) (text : List Char) (finish : Option Char) : Prop :=
  ∀ rest, splitAttributes? start (text ++ rest) =
    (splitAttributes? finish rest).map fun found => (text ++ found.1, found.2)

/-- The empty text leads nowhere. -/
theorem Crosses.nil {start : Option Char} : Crosses start [] start := by
  intro rest
  simp

/-- Two texts are read one after the other. -/
theorem Crosses.append {start middle finish : Option Char} {first second : List Char}
    (hfirst : Crosses start first middle) (hsecond : Crosses middle second finish) :
    Crosses start (first ++ second) finish := by
  intro rest
  rw [List.append_assoc, hfirst, hsecond, Option.map_map]
  congr 1
  funext found
  simp

/-- Plain characters outside quotes are passed. -/
theorem Crosses.plain {text : List Char} (h : ∀ c ∈ text, IsPlain c) :
    Crosses none text none := by
  induction text with
  | nil => exact .nil
  | cons c text ih =>
      obtain ⟨hend, hdouble, hsingle⟩ := h c List.mem_cons_self
      have hrest := ih fun d hd => h d (List.mem_cons_of_mem c hd)
      intro rest
      rw [List.cons_append, splitAttributes?, if_neg hend, if_neg (not_or.mpr ⟨hdouble, hsingle⟩),
        hrest rest, Option.map_map]
      rfl

/-- Inside a quotation all other characters are passed. -/
theorem Crosses.inside {quote : Char} {text : List Char} (h : quote ∉ text) :
    Crosses (some quote) text (some quote) := by
  induction text with
  | nil => exact .nil
  | cons c text ih =>
      rw [List.mem_cons, not_or] at h
      intro rest
      rw [List.cons_append, splitAttributes?, if_neg (Ne.symm h.1), ih h.2 rest, Option.map_map]
      rfl

/-- A quotation is passed as a whole. -/
theorem Crosses.quotation {quote : Char} {text : List Char}
    (hquote : quote = '"' ∨ quote = '\'') (h : quote ∉ text) :
    Crosses none (quote :: (text ++ [quote])) none := by
  have hopen : Crosses none [quote] (some quote) := by
    intro rest
    have hend : quote ≠ '>' := by rcases hquote with rfl | rfl <;> decide
    rw [List.singleton_append, splitAttributes?, if_neg hend, if_pos hquote]
    rfl
  have hclose : Crosses (some quote) [quote] none := by
    intro rest
    rw [List.singleton_append, splitAttributes?, if_pos rfl]
    rfl
  exact hopen.append ((Crosses.inside h).append hclose)

/-- A written value is passed as a whole. -/
theorem Crosses.value (value : WrittenValue) : Crosses none value.text none := by
  have hsign : Crosses none ['='] none :=
    .plain fun c hc => List.mem_singleton.mp hc ▸ ⟨by decide, by decide, by decide⟩
  cases value with
  | absent => exact .nil
  | quoted quote raw hquote hraw => exact hsign.append (.quotation hquote hraw)
  | bare raw hne hraw =>
      exact hsign.append (.plain fun c hc => is_plain_of_kind (by decide) (hraw c hc))

/-- Written attributes are passed one after the other. -/
theorem Crosses.attributes (attributes : List WrittenAttribute) :
    Crosses none (attributesText attributes) none := by
  induction attributes with
  | nil => exact .nil
  | cons written attributes ih =>
      have hblanks : Crosses none written.blanks none :=
        .plain fun c hc => is_plain_of_kind (by decide) (written.hblanks c hc)
      have hname : Crosses none written.name none :=
        .plain fun c hc => is_plain_of_kind (by decide) (written.hname c hc)
      exact ((hblanks.append hname).append (.value written.value)).append ih

/-- The attributes of a tag end at the closing bracket behind them. -/
theorem split_attributes_of_written (attributes : List WrittenAttribute) (behind : List Char) :
    splitAttributes? none (attributesText attributes ++ '>' :: behind) =
      some (attributesText attributes, behind) := by
  rw [Crosses.attributes attributes, splitAttributes?, if_pos rfl]
  simp

end Element

/-! ## Reading the attributes -/

namespace Attribute

/-- The text may stand behind a value: it is empty or goes on with white space. -/
def EndsValue (rest : List Char) : Prop :=
  ∀ c ∈ rest.head?, Text.isWhite c = true

/-- Written attributes may stand behind a value. -/
theorem ends_value_attributes (attributes : List WrittenAttribute) :
    EndsValue (attributesText attributes) := by
  cases attributes with
  | nil => simp [EndsValue, attributesText]
  | cons written attributes =>
      obtain ⟨c, blanks, hblanks⟩ := List.exists_cons_of_ne_nil written.hblanks_ne
      intro d hd
      have hc : c = d := by
        simpa [attributesText, WrittenAttribute.text, hblanks] using hd
      rw [← hc]
      exact written.hblanks c (hblanks ▸ List.mem_cons_self)

/-- A run of characters ends where it is followed by none of them. -/
theorem span_of_ends {p : Char → Bool} {run rest : List Char} (hrun : ∀ c ∈ run, p c = true)
    (hrest : ∀ c ∈ rest.head?, p c = false) :
    (run ++ rest).takeWhile p = run ∧ (run ++ rest).dropWhile p = rest := by
  rw [List.takeWhile_append_of_pos hrun, List.dropWhile_append_of_pos hrun]
  cases rest with
  | nil => simp
  | cons c rest => simp [hrest c rfl]

/-- A quotation ends at its quote. -/
theorem until_quote_of_closed {quote : Char} {raw : List Char} (h : quote ∉ raw)
    (rest : List Char) : untilQuote? quote (raw ++ quote :: rest) = some (raw, rest) := by
  induction raw with
  | nil => simp [untilQuote?]
  | cons c raw ih =>
      rw [List.mem_cons, not_or] at h
      rw [List.cons_append, untilQuote?, if_neg (Ne.symm h.1), ih h.2]
      rfl

/-- A bare value is read up to what may stand behind it. -/
theorem value_of_bare {raw rest : List Char} (hne : raw ≠ [])
    (hraw : ∀ c ∈ raw, isBareChar c = true) (hrest : EndsValue rest) :
    value? (raw ++ rest) = some (raw, rest) := by
  obtain ⟨htake, hdrop⟩ := span_of_ends hraw fun c hc => is_bare_char_of_white (hrest c hc)
  obtain ⟨c, others, rfl⟩ := List.exists_cons_of_ne_nil hne
  obtain ⟨-, hdouble, hsingle⟩ := is_plain_of_kind (by decide) (hraw c List.mem_cons_self)
  unfold value?
  split
  case h_1 heq => exact absurd (List.cons.inj heq).1 hdouble
  case h_2 heq => exact absurd (List.cons.inj heq).1 hsingle
  case h_3 =>
    rw [htake, hdrop]

/-- Where no value is written, none is read, since a name or nothing follows. -/
theorem assigned_of_attributes (attributes : List WrittenAttribute) :
    assigned? (attributesText attributes) = none := by
  cases attributes with
  | nil => rfl
  | cons written attributes =>
      obtain ⟨c, name, hname⟩ := List.exists_cons_of_ne_nil written.hname_ne
      obtain ⟨hwhite, hsign⟩ := not_white_of_name (written.hname c (hname ▸ List.mem_cons_self))
      have hdrop : (attributesText (written :: attributes)).dropWhile Text.isWhite =
          c :: (name ++ written.value.text ++ attributesText attributes) := by
        simp [attributesText, WrittenAttribute.text, hname,
          List.dropWhile_append_of_pos written.hblanks, hwhite]
      unfold assigned?
      rw [hdrop]
      split
      case h_1 heq => exact absurd (List.cons.inj heq).1 hsign
      case h_2 => rfl

/-- A name with a value behind it is read as an attribute. -/
theorem read_all_of_value {c : Char} {rest value following : List Char}
    (hc : isNameChar c = true)
    (h : assigned? (rest.dropWhile isNameChar) = some (value, following)) :
    readAll (c :: rest) =
      ofWritten (c :: rest.takeWhile isNameChar) value :: readAll following := by
  rw [readAll.eq_def]
  dsimp only
  rw [if_pos hc]
  split
  case h_1 hfound =>
    rw [h] at hfound
    cases hfound
    rfl
  case h_2 hfound =>
    rw [h] at hfound
    cases hfound

/-- A name without a value behind it is read as an attribute with the empty value. -/
theorem read_all_of_absent {c : Char} {rest : List Char} (hc : isNameChar c = true)
    (h : assigned? (rest.dropWhile isNameChar) = none) :
    readAll (c :: rest) =
      ofWritten (c :: rest.takeWhile isNameChar) [] :: readAll (rest.dropWhile isNameChar) := by
  rw [readAll.eq_def]
  dsimp only
  rw [if_pos hc]
  split
  case h_1 hfound =>
    rw [h] at hfound
    cases hfound
  case h_2 => rfl

/-- White space in front of an attribute is passed over. -/
theorem read_all_of_blanks {blanks : List Char} (rest : List Char)
    (h : ∀ c ∈ blanks, Text.isWhite c = true) : readAll (blanks ++ rest) = readAll rest := by
  induction blanks with
  | nil => rfl
  | cons c blanks ih =>
      have hc := is_name_char_of_white (h c List.mem_cons_self)
      rw [List.cons_append, readAll.eq_def]
      dsimp only
      rw [if_neg (Bool.eq_false_iff.mp hc)]
      exact ih fun d hd => h d (List.mem_cons_of_mem c hd)

/-- A written value that is there is read with what stands behind it. -/
theorem assigned_of_value {value : WrittenValue} {rest : List Char} (hvalue : value ≠ .absent)
    (hrest : EndsValue rest) : assigned? (value.text ++ rest) = some (value.raw, rest) := by
  cases value with
  | absent => exact absurd rfl hvalue
  | quoted quote raw hquote hraw =>
      have hclosed : untilQuote? quote (raw ++ [quote] ++ rest) = some (raw, rest) := by
        rw [List.append_assoc]
        exact until_quote_of_closed hraw rest
      rcases hquote with rfl | rfl <;> exact hclosed
  | bare raw hne hraw =>
      have hdrop : (raw ++ rest).dropWhile Text.isWhite = raw ++ rest := by
        obtain ⟨c, others, rfl⟩ := List.exists_cons_of_ne_nil hne
        have hc := not_white_of_bare (hraw c List.mem_cons_self)
        rw [List.cons_append, List.dropWhile_cons, if_neg (Bool.eq_false_iff.mp hc)]
      show value? ((raw ++ rest).dropWhile Text.isWhite) = some (raw, rest)
      rw [hdrop]
      exact value_of_bare hne hraw hrest

/-- What follows the name of a written attribute belongs to no name. -/
theorem not_name_of_value (value : WrittenValue) {rest : List Char} (hrest : EndsValue rest) :
    ∀ c ∈ (value.text ++ rest).head?, isNameChar c = false := by
  cases value with
  | absent => exact fun c hc => is_name_char_of_white (hrest c hc)
  | quoted quote raw hquote hraw =>
      rintro c ⟨⟩
      decide
  | bare raw hne hraw =>
      rintro c ⟨⟩
      decide

/-- A written attribute is read with what stands behind it. -/
theorem read_all_attribute (written : WrittenAttribute) {rest : List Char}
    (hrest : EndsValue rest) (hnone : assigned? rest = none) :
    readAll (written.text ++ rest) =
      ofWritten written.name written.value.raw :: readAll rest := by
  obtain ⟨c, name, hname⟩ := List.exists_cons_of_ne_nil written.hname_ne
  have hchars := written.hname
  rw [hname, List.forall_mem_cons] at hchars
  obtain ⟨htake, hdrop⟩ := span_of_ends hchars.2 (not_name_of_value written.value hrest)
  -- the name ends where the value begins, or without one at what stands behind the attribute
  rw [WrittenAttribute.text, List.append_assoc, List.append_assoc,
    read_all_of_blanks _ written.hblanks, hname, List.cons_append]
  by_cases hvalue : written.value = .absent
  · have hread :
        assigned? ((name ++ (written.value.text ++ rest)).dropWhile isNameChar) = none := by
      rw [hdrop, hvalue]
      exact hnone
    rw [read_all_of_absent hchars.1 hread, htake, hdrop, hvalue]
    rfl
  · have hread : assigned? ((name ++ (written.value.text ++ rest)).dropWhile isNameChar) =
        some (written.value.raw, rest) := by
      rw [hdrop]
      exact assigned_of_value hvalue hrest
    rw [read_all_of_value hchars.1 hread, htake]

/-- Reading written attributes gives back their names and values. -/
theorem read_all_attributes (attributes : List WrittenAttribute) :
    readAll (attributesText attributes) =
      attributes.map fun written => ofWritten written.name written.value.raw := by
  induction attributes with
  | nil =>
      show readAll [] = []
      rw [readAll.eq_def]
  | cons written attributes ih =>
      show readAll (written.text ++ attributesText attributes) = _
      rw [read_all_attribute written (ends_value_attributes attributes)
        (assigned_of_attributes attributes), ih]
      rfl

end Attribute

end TemplateBundle.Document

import Mathlib.Data.List.Nodup
import Mathlib.Tactic.SplitIfs
import TemplateBundle.Project.Record
import TemplateBundle.Project.Writing
import TemplateBundle.Proofs.Project.Loading
import TemplateBundle.Proofs.Yaml.Documents

/-!
# Reading written records

What a decoder reads back from written data. Scalars stand for what they were, and a record whose
fields have names of their own is read by filling the start of its shape, one field after the
other: `recovers_record`.
-/

namespace TemplateBundle.Project

open Yaml (nodeOf nodesOf pairsOf Value)
open Yaml.Printer (styleOf)
open Yaml.Scanner (readStyle style_of_cases)

/-- The data can be written as a block, and the node of the block is read as the value, wherever it
stands. -/
def Recovers {α : Type} (decoder : NodeDecoder α) (data : Data) (value : α) : Prop :=
  data.IsBlock ∧ ∀ place, decoder place (nodeOf data) = .ok value

/-! ## Scalars and lists -/

/-- A plain scalar that needs no quotes stands for its text. -/
theorem of_plain_text {text : String} (h : Value.needsQuotes text = false) :
    Value.ofPlain text = .text text := by
  unfold Value.needsQuotes at h
  split at h
  · rename_i value hvalue
    unfold Value.ofPlain at hvalue ⊢
    split_ifs at hvalue ⊢ with hnothing
    -- the text is none of the other values, and a text stands for itself
    cases htruth : Value.truth? text with
    | some value => simp [htruth] at hvalue
    | none =>
        cases hinteger : Value.integer? text.toList with
        | some value => simp [htruth, hinteger] at hvalue
        | none =>
            cases hfractional : Value.fractional? text.toList with
            | some value => simp [htruth, hinteger, hfractional] at hvalue
            | none => rfl
  · cases h

/-- A text that needs no quotes does not stand for nothing. -/
theorem not_nothing_of_plain {text : String} (h : Value.needsQuotes text = false) :
    (text.isEmpty || Value.isNothing text) = false := by
  have htext := of_plain_text h
  unfold Value.ofPlain at htext
  split_ifs at htext with hnothing
  exact Bool.eq_false_iff.mpr hnothing

/-- A text is written in a plain style only if it needs no quotes. -/
theorem no_quotes_of_plain {text : String}
    (h : readStyle (styleOf text) = .plain) : Value.needsQuotes text = false := by
  rcases style_of_cases text with ⟨-, -, hquotes⟩ | ⟨hstyle, -⟩ | hstyle | ⟨hstyle, -⟩
  · exact hquotes
  all_goals
    rw [hstyle] at h
    cases h

theorem recovers_text (wanted text : String) :
    Recovers (.textWanted wanted) (.text text) text :=
  ⟨trivial, fun _ => rfl⟩

/-- What is written as a text is not taken for a text that is left out. -/
theorem recovers_optional_text (text : String) :
    Recovers .optionalText (.text text) (some text) := by
  refine ⟨trivial, fun place => ?_⟩
  rw [nodeOf]
  cases hstyle : readStyle (styleOf text) with
  | plain =>
      have hnothing := not_nothing_of_plain (no_quotes_of_plain hstyle)
      simp [NodeDecoder.optionalText, hnothing]
  | quoted => rfl
  | literal => rfl
  | folded => rfl

theorem recovers_truth (value : Bool) : Recovers .truth (.truth value) value := by
  refine ⟨trivial, fun place => ?_⟩
  cases value <;> rfl

variable {α β : Type} {decoder : NodeDecoder α} {write : α → Data}

/-- The items of a list are read one after the other. -/
theorem items_of_recovers (h : ∀ value, Recovers decoder (write value) value)
    (place : NodePlace) (start : Nat) (values : List α) :
    NodeDecoder.items decoder place start (nodesOf (values.map write)) = .ok values := by
  induction values generalizing start with
  | nil => rfl
  | cons value values ih =>
      rw [List.map_cons, nodesOf, NodeDecoder.items, (h value).2, ih]
      rfl

/-- Items that are no lists can be written one below the other. -/
theorem are_items_of_recovers (h : ∀ value, Recovers decoder (write value) value)
    (hitems : ∀ value items, write value ≠ .list items) (values : List α) :
    Data.AreItems (values.map write) := by
  induction values with
  | nil => trivial
  | cons value values ih => exact ⟨hitems value, (h value).1, ih⟩

/-- A list is recovered where each of its items is. -/
theorem recovers_list (h : ∀ value, Recovers decoder (write value) value)
    (hitems : ∀ value items, write value ≠ .list items) (values : List α) :
    Recovers (.list decoder) (.list (values.map write)) values :=
  ⟨are_items_of_recovers h hitems values, fun place => items_of_recovers h place 0 values⟩

/-! ## Records -/

/-- The data of a record are in the order of its fields, each of which is written or left out, and
reading them turns the one record into the other. -/
inductive Fills : List (RecordField α) → List (String × Data) → α → α → Prop where
  | nil (record : α) : Fills [] [] record record
  | leftOut {field : RecordField α} {fields : List (RecordField α)}
      {written : List (String × Data)} {record last : α} :
      Fills fields written record last →
      Fills (field :: fields) written record last
  | cons {field : RecordField α} {fields : List (RecordField α)} {data : Data}
      {written : List (String × Data)} {record next last : α} :
      Yaml.IsWord field.name.toList →
      Recovers (field.read record) data next →
      Fills fields written next last →
      Fills (field :: fields) ((field.name, data) :: written) record last

variable {shape : RecordShape α} {fields : List (RecordField α)} {written : List (String × Data)}
  {record last : α} {name : String} {content : NodeDecoder β} {put : α → β → α}

/-- A field puts what it holds into the record. -/
theorem Fills.field {data : Data} {value : β} (hname : Yaml.IsWord name.toList)
    (hvalue : Recovers content data value) (h : Fills fields written (put record value) last) :
    Fills (.of name content put :: fields) ((name, data) :: written) record last := by
  refine .cons hname ⟨hvalue.1, fun place => ?_⟩ h
  show (content place (nodeOf data)).map (put record) = .ok (put record value)
  rw [hvalue.2]
  rfl

/-- A field may be left out if what it holds would change nothing. -/
theorem Fills.optional {data : Option Data} (value : β) (hname : Yaml.IsWord name.toList)
    (hsome : ∀ given, data = some given → Recovers content given value)
    (hnone : data = none → put record value = record)
    (h : Fills fields written (put record value) last) :
    Fills (.of name content put :: fields) (Data.optional name data ++ written) record last := by
  cases data with
  | some given => exact .field hname (hsome given rfl) h
  | none =>
      rw [hnone rfl] at h
      exact .leftOut h

/-- What is left out as the standard is recovered if it is recovered otherwise. -/
theorem Fills.unless {isStandard : Bool} {data : Data} (value : β)
    (hname : Yaml.IsWord name.toList)
    (hvalue : ¬isStandard = true → Recovers content data value)
    (hstandard : isStandard = true → put record value = record)
    (h : Fills fields written (put record value) last) :
    Fills (.of name content put :: fields)
      (Data.optional name (if isStandard then none else some data) ++ written) record last := by
  cases isStandard with
  | true => exact .optional value hname nofun (fun _ => hstandard rfl) h
  | false =>
      refine .optional value hname ?_ nofun h
      rintro given ⟨⟩
      exact hvalue Bool.false_ne_true

/-- A text that is not set is left out. -/
theorem Fills.optional_text {put : α → Option String → α} {value : Option String}
    (hname : Yaml.IsWord name.toList) (hnone : put record none = record)
    (h : Fills fields written (put record value) last) :
    Fills (.of name .optionalText put :: fields) (Data.optionalText name value ++ written)
      record last := by
  refine .optional value hname ?_ ?_ h
  · intro given hgiven
    obtain ⟨text, rfl, rfl⟩ := Option.map_eq_some_iff.mp hgiven
    exact recovers_optional_text text
  · intro hvalue
    rw [Option.map_eq_none_iff.mp hvalue]
    exact hnone

/-- Data that fill a record can be written. -/
theorem Fills.are_fields (h : Fills fields written record last) : Data.AreFields written := by
  induction h with
  | nil => trivial
  | leftOut _ ih => exact ih
  | cons hname hvalue _ ih => exact ⟨hname, hvalue.1, ih⟩

/-- The fields are read one after the other, if their names are new and those that are required
come in the end. -/
theorem read_pairs_of_fills (h : Fills fields written record last) (place : NodePlace)
    (seen : List String)
    (hfind : ∀ field ∈ fields,
      (shape.fields.find? fun other => other.name == field.name) = some field)
    (hnodup : (fields.map RecordField.name).Nodup)
    (hnew : ∀ field ∈ fields, seen.contains field.name = false)
    (hrequired : ∀ name ∈ shape.required, name ∈ seen ∨ name ∈ written.map Prod.fst) :
    shape.readPairs place (pairsOf written) seen record = .ok last := by
  induction h generalizing seen with
  | nil record =>
      have hall : (shape.required.find? fun name => !seen.contains name) = none := by
        rw [List.find?_eq_none]
        intro name hname
        simpa using hrequired name hname
      rw [pairsOf, RecordShape.readPairs, hall]
  | leftOut _ ih =>
      rw [List.forall_mem_cons] at hfind hnew
      exact ih seen hfind.2 (List.nodup_cons.mp hnodup).2 hnew.2 hrequired
  | @cons field fields data written record next last _ hvalue _ ih =>
      rw [List.forall_mem_cons] at hfind hnew
      rw [List.map_cons, List.nodup_cons] at hnodup
      -- behind the field its name counts as seen, which none of the other fields has
      have hothers := ih (field.name :: seen) hfind.2 hnodup.2
        (by
          intro other hother
          have hname : other.name ≠ field.name :=
            fun hname => hnodup.1 (List.mem_map.mpr ⟨other, hother, hname⟩)
          simpa [hname] using hnew.2 other hother)
        (by
          intro required hmem
          rcases hrequired required hmem with hmem | hmem
          · exact .inl (List.mem_cons_of_mem _ hmem)
          · rcases List.mem_cons.mp hmem with rfl | hmem
            · exact .inl List.mem_cons_self
            · exact .inr hmem)
      rw [pairsOf, RecordShape.readPairs]
      simp only [NodeDecoder.textWanted, hfind.1, hnew.1, hvalue.2, bind, Except.bind,
        Bool.false_eq_true, if_false]
      exact hothers

/-- A record whose fields have names of their own is recovered by filling the start of its shape, if
no field that is required is missing. -/
theorem recovers_record (h : Fills shape.fields written shape.start last) (hne : written ≠ [])
    (hnodup : shape.names.Nodup)
    (hrequired : ∀ name ∈ shape.required, name ∈ written.map Prod.fst) :
    Recovers shape.read (.record written) last := by
  refine ⟨⟨hne, h.are_fields⟩, fun place => ?_⟩
  rw [nodeOf, RecordShape.read]
  refine read_pairs_of_fills h place [] ?_ hnodup (fun _ _ => rfl)
    fun name hname => .inr (hrequired name hname)
  exact fun field hmem => find_of_nodup hnodup hmem

end TemplateBundle.Project

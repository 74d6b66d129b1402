import Mathlib.Data.List.Forall2
import Mathlib.Data.List.Infix
import TemplateBundle.Bundle.Assembly
import TemplateBundle.Proofs.Except
import TemplateBundle.Proofs.Text.Prefix
import TemplateBundle.Proofs.Text.QuotedValue
import TemplateBundle.Proofs.Text.Trimming

/-!
# What names resolve to

The expression for an object is the root with quoted names in brackets, and is read back as these
names (`names_of_object_at`). So a dotted name resolves to an expression for its parts and to a
guard for each object on the way, and fails for blank parts alone (`resolve_reads_back`).
-/

namespace TemplateBundle.Namespace

open Text.Quoted (value?)

/-! ## Expressions for objects -/

/-- The names in brackets of which a text consists; nothing if it is no such text. The bound is on
the number of characters. -/
def bracketedNames? : Nat → List Char → Option (List String)
  | _, [] => some []
  | bound + 1, '[' :: text =>
      match value? text with
      | some (name, ']' :: rest) => (bracketedNames? bound rest).map (name :: ·)
      | _ => none
  | _, _ => none

/-- The names by which an expression goes on from the root: a literal in brackets for each. -/
def namesOf? (expression : String) : Option (List String) :=
  (Text.after? rootObject.toList expression.toList).bind fun rest =>
    bracketedNames? rest.length rest

/-- A field of an object. -/
def fieldOf (object name : String) : String :=
  object ++ "[" ++ Text.quote name ++ "]"

/-- The object that names lead to from the root. -/
def objectAt (names : List String) : String :=
  names.foldl fieldOf rootObject

/-- The induction is on the names; each of them takes a character at least. -/
theorem bracketed_names_written (names : List String) :
    ∃ text, (∀ object, (names.foldl fieldOf object).toList = object.toList ++ text) ∧
      ∀ bound, text.length ≤ bound → bracketedNames? bound text = some names := by
  induction names with
  | nil => exact ⟨[], fun object => (List.append_nil _).symm, fun bound _ => by cases bound <;> rfl⟩
  | cons name names ih =>
      obtain ⟨text, hwritten, hread⟩ := ih
      refine ⟨'[' :: ((Text.quote name).toList ++ ']' :: text), fun object => ?_,
        fun bound hbound => ?_⟩
      · rw [List.foldl_cons, hwritten, fieldOf]
        simp only [String.toList_append, String.reduceToList, List.append_assoc, List.cons_append,
          List.nil_append]
      · rw [List.length_cons, List.length_append, List.length_cons] at hbound
        obtain ⟨fewer, rfl⟩ := Nat.exists_eq_add_of_lt (show 0 < bound by omega)
        rw [Nat.zero_add, bracketedNames?, Text.Quoted.value_quote]
        show (bracketedNames? fewer text).map _ = _
        rw [hread fewer (by omega), Option.map_some]

/-- The expression for an object is read back as the names that lead there. -/
theorem names_of_object_at (names : List String) : namesOf? (objectAt names) = some names := by
  obtain ⟨text, hwritten, hread⟩ := bracketed_names_written names
  have hafter : Text.after? rootObject.toList (objectAt names).toList = some text :=
    Text.after_eq_some_iff.mpr (hwritten rootObject)
  unfold namesOf?
  rw [hafter, Option.bind_some]
  exact hread _ (Nat.le_refl _)

theorem object_at_inj {names others : List String} :
    objectAt names = objectAt others ↔ names = others := by
  refine ⟨fun h => ?_, congrArg objectAt⟩
  have hnames := names_of_object_at names
  rw [h, names_of_object_at] at hnames
  exact (Option.some.inj hnames).symm

theorem object_at_concat (names : List String) (name : String) :
    objectAt (names ++ [name]) = fieldOf (objectAt names) name := by
  unfold objectAt
  rw [List.foldl_append, List.foldl_cons, List.foldl_nil]

theorem break_not_in_encode_char (c : Char) : '\n' ∉ Text.Quoted.encodeChar c := by
  have hdigit : ∀ digit < 16, Text.Quoted.hexDigit digit ≠ '\n' := by
    decide
  unfold Text.Quoted.encodeChar
  split_ifs with hquote hbackslash hfeed hreturn htab hback hform hcontrol
  iterate 7
    · decide
  · have hhigh := hdigit (c.toNat / 16) (by omega)
    have hlow := hdigit (c.toNat % 16) (Nat.mod_lt _ (by decide))
    simp [hhigh.symm, hlow.symm]
  · exact fun hmem => hfeed (List.mem_singleton.mp hmem).symm

/-- The expression for an object stands on one line. -/
theorem break_not_in_object_at (names : List String) : '\n' ∉ (objectAt names).toList := by
  have hquote (name : String) : '\n' ∉ (Text.quote name).toList := by
    unfold Text.quote Text.Quoted.encode
    rw [String.toList_ofList]
    simp [break_not_in_encode_char]
  induction names using List.reverseRecOn with
  | nil => decide
  | append_singleton names name ih =>
      rw [object_at_concat, fieldOf]
      simp [ih, hquote]

/-! ## Walking along a name -/

/-- The names among segments: a segment that names the root stays there. -/
def withoutRoot (segments : List String) : List String :=
  segments.filter (· ≠ rootObject)

theorem without_root_cons_root (segments : List String) :
    withoutRoot (rootObject :: segments) = withoutRoot segments :=
  List.filter_cons_of_neg (by simp)

theorem without_root_cons {segment : String} (h : segment ≠ rootObject) (segments : List String) :
    withoutRoot (segment :: segments) = segment :: withoutRoot segments :=
  List.filter_cons_of_pos (by simpa using h)

/-- The beginnings of a list that are not empty, the shortest first. -/
def beginnings (names : List String) : List (List String) :=
  names.inits.tail

theorem beginnings_cons (name : String) (names : List String) :
    beginnings (name :: names) = [name] :: (beginnings names).map (name :: ·) := by
  unfold beginnings
  rw [List.inits_cons, List.tail_cons]
  cases names with
  | nil => rfl
  | cons second names => rw [List.inits_cons, List.map_cons, List.tail_cons]

/-- The walk enters the object of each name in turn. -/
theorem walk_eq (object : String) (segments : List String) :
    walk object segments = ((withoutRoot segments).foldl fieldOf object,
      (beginnings (withoutRoot segments)).map fun names =>
        guardStatement (names.foldl fieldOf object)) := by
  induction segments generalizing object with
  | nil => rfl
  | cons segment segments ih =>
      by_cases hroot : segment = rootObject
      · rw [hroot, without_root_cons_root, walk, if_pos rfl]
        exact ih object
      · rw [without_root_cons hroot, walk, if_neg hroot]
        simp only [ih, beginnings_cons, List.map_cons, List.map_map, List.foldl_cons]
        rfl

/-! ## Parts of a dotted name -/

/-- The parts of a name between dots, without white space around them. -/
def trimmedParts (name : String) : List String :=
  (Text.trimmedPieces '.' name.toList).map String.ofList

/-- The parts of a name that lead away from the root. -/
def partsOf (name : String) : List String :=
  withoutRoot (trimmedParts name)

/-- Some part of the name between dots is blank. -/
def HasBlankPart (name : String) : Prop :=
  ∃ part ∈ name.toList.splitOn '.', Text.isBlank (String.ofList part) = true

theorem is_blank_iff {name : String} : Text.isBlank name = true ↔ Text.IsWhiteText name.toList :=
  List.all_eq_true

theorem segments_of_eq (name : String) : segmentsOf name = trimmedParts name := by
  have hdot : Text.isWhite '.' = false := by decide
  have htrim := Text.trimmed_pieces_trim hdot name.toList
  unfold segmentsOf trimmedParts
  rw [← htrim, Text.trimmedPieces, Text.trim, String.toList_ofList, List.map_map]
  refine List.map_congr_left fun piece _ => ?_
  rw [Text.trim, String.toList_ofList]
  rfl

theorem contains_blank_iff (name : String) :
    (trimmedParts name).contains "" = true ↔ HasBlankPart name := by
  unfold trimmedParts Text.trimmedPieces HasBlankPart
  rw [List.contains_iff_mem, List.map_map, List.mem_map]
  refine exists_congr fun part => and_congr_right fun _ => ?_
  rw [is_blank_iff, String.toList_ofList, ← Text.trim_list_eq_nil_iff, Function.comp_apply,
    String.ofList_eq_empty_iff]

/-! ## Resolving -/

/-- The statement sees to it that there is an object where the names lead from the root. -/
def Declares (statement : String) (names : List String) : Prop :=
  ∃ object, namesOf? object = some names ∧ statement = object ++ " = " ++ object ++ " || \x7b\x7d;"

theorem guard_declares (names : List String) : Declares (guardStatement (objectAt names)) names :=
  ⟨objectAt names, names_of_object_at names, rfl⟩

theorem break_not_in_guard (names : List String) :
    '\n' ∉ (guardStatement (objectAt names)).toList := by
  have hobject := break_not_in_object_at names
  unfold guardStatement
  simp [hobject]

/-- The object for names, with guards for all objects on the way. -/
def objectFor (names : List String) : ResolvedNamespace where
  declaration := "\n".intercalate
    ((beginnings names).map fun names => guardStatement (objectAt names))
  expression := objectAt names

/-- There are three kinds of names: blank ones, others with a blank part, and those that resolve. -/
theorem resolve_cases (name : String) :
    (Text.isBlank name = true ∧ resolve name = .error .blank) ∨
    (¬Text.isBlank name = true ∧ HasBlankPart name ∧
      resolve name = .error (.blankSegment name)) ∨
    ¬Text.isBlank name = true ∧ ¬HasBlankPart name ∧
      resolve name = .ok (objectFor (partsOf name)) := by
  by_cases hblank : Text.isBlank name = true
  · refine .inl ⟨hblank, ?_⟩
    unfold resolve
    rw [if_pos hblank]
  refine .inr ?_
  have hresolve : resolve name = if (trimmedParts name).contains "" then
      .error (.blankSegment name)
    else .ok (objectFor (partsOf name)) := by
    unfold resolve
    rw [if_neg hblank]
    simp only [segments_of_eq, walk_eq]
    rfl
  by_cases hpart : HasBlankPart name
  · rw [if_pos ((contains_blank_iff name).mpr hpart)] at hresolve
    exact .inl ⟨hblank, hpart, hresolve⟩
  · rw [if_neg fun hcontains => hpart ((contains_blank_iff name).mp hcontains)] at hresolve
    exact .inr ⟨hblank, hpart, hresolve⟩

theorem expression_of_resolve {name : String} {resolved : ResolvedNamespace}
    (h : resolve name = .ok resolved) : resolved.expression = objectAt (partsOf name) := by
  rcases resolve_cases name with ⟨-, hresolve⟩ | ⟨-, -, hresolve⟩ | ⟨-, -, hresolve⟩
  all_goals
    rw [hresolve] at h
    cases h
  rfl

/-- What was resolved is the object for these names: its expression leads there, its declaration has
a line for each object on the way, and a key in brackets leads one name further. -/
structure IsObjectFor (names : List String) (resolved : ResolvedNamespace) : Prop where
  expression : namesOf? resolved.expression = some names
  declaration : ∃ statements, resolved.declaration = "\n".intercalate statements ∧
    (∀ statement ∈ statements, '\n' ∉ statement.toList) ∧
      List.Forall₂ Declares statements (beginnings names)
  slot : ∀ id, namesOf? (Bundle.slot resolved id) = some (names ++ [id])

theorem is_object_for_names (names : List String) : IsObjectFor names (objectFor names) where
  expression := names_of_object_at names
  declaration := by
    refine ⟨_, rfl, fun statement hmem => ?_, ?_⟩
    · obtain ⟨names, -, rfl⟩ := List.mem_map.mp hmem
      exact break_not_in_guard names
    · rw [List.forall₂_map_left_iff, List.forall₂_same]
      exact fun names _ => guard_declares names
  slot := fun id => by
    rw [← names_of_object_at, object_at_concat]
    rfl

/-- A dotted name fails to resolve for blank parts alone. Otherwise it resolves to the object for
its parts, trimmed and without those that name the root, whatever characters they have, and another
name resolves to the same expression just if it has the same parts. -/
theorem resolve_reads_back (name : String) :
    (resolve name = .error .blank ↔ Text.isBlank name = true) ∧
    (resolve name = .error (.blankSegment name) ↔
      ¬Text.isBlank name = true ∧ HasBlankPart name) ∧
    (¬Text.isBlank name = true → ¬HasBlankPart name →
      ∃ resolved, resolve name = .ok resolved ∧ IsObjectFor (partsOf name) resolved) ∧
    ∀ other resolved otherResolved,
      resolve name = .ok resolved → resolve other = .ok otherResolved →
        (resolved.expression = otherResolved.expression ↔ partsOf name = partsOf other) := by
  have hsame (other : String) (resolved otherResolved : ResolvedNamespace)
      (h : resolve name = .ok resolved) (hother : resolve other = .ok otherResolved) :
      resolved.expression = otherResolved.expression ↔ partsOf name = partsOf other := by
    rw [expression_of_resolve h, expression_of_resolve hother, object_at_inj]
  rcases resolve_cases name with ⟨hblank, h⟩ | ⟨hblank, hpart, h⟩ | ⟨hblank, hpart, h⟩
  · exact ⟨by simp [h, hblank], by simp [h, hblank], fun hnot => absurd hblank hnot, hsame⟩
  · exact ⟨by simp [h, hblank], by simp [h, hblank, hpart], fun _ hnot => absurd hpart hnot, hsame⟩
  · refine ⟨by simp [h, hblank], by simp [h, hpart], fun _ _ => ?_, hsame⟩
    exact ⟨_, h, is_object_for_names _⟩

/-- Quotes, brackets and the root among the parts. -/
example : (resolve " this . A\"] .b\n.this").toOption.map ResolvedNamespace.expression =
    some "this[\"A\\\"]\"][\"b\"]" := by
  decide +kernel

end TemplateBundle.Namespace

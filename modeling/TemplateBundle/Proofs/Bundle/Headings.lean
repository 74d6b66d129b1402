import Mathlib.Tactic.SplitIfs
import TemplateBundle.Bundle.Assembly
import TemplateBundle.Script.Lexer

/-!
# The line above the assignments of a document

The name of a document stands in a comment above the assignments of its templates. Quoting escapes
line feeds and carriage returns, but leaves the two separators beyond ASCII that end a line of a
script too. So the comment ends with its line just for names without separators
(`heading_ends_with_line_iff`), and what follows a separator in a name is read as code
(`skip_heading_separator`).
-/

namespace TemplateBundle

/-! ## Comments to the end of the line -/

namespace Script

/-- A comment is passed over up to the character that ends its line. -/
theorem skip_line_comment {comment : List Char} (hcomment : ∀ c ∈ comment, isLineEnd c = false)
    {stop : Char} (hstop : isLineEnd stop = true) (rest : List Char) (line : Nat)
    (newline : Bool) :
    skipGap .lineComment (comment ++ stop :: rest) line newline =
      skipGap .blank rest (lineBehind stop line) true := by
  induction comment with
  | nil =>
      rw [List.nil_append, skipGap]
      exact if_pos hstop
  | cons c comment ih =>
      obtain ⟨hc, hcomment⟩ := List.forall_mem_cons.mp hcomment
      rw [List.cons_append, skipGap, hc]
      exact ih hcomment

end Script

/-! ## Separators in quoted texts -/

namespace Text.Quoted

open Script (isLineEnd)

/-- The character ends a line of a script, and quoting leaves it as it is. -/
def isSeparator (c : Char) : Bool :=
  c == '\u2028' || c == '\u2029'

/-- What is written for a character ends a line just if the character is a separator. -/
theorem any_line_end_encode_char (c : Char) :
    (encodeChar c).any isLineEnd = isSeparator c := by
  have hdigit : ∀ digit < 16, isLineEnd (hexDigit digit) = false := by
    decide
  unfold encodeChar
  split_ifs with hquote hbackslash hfeed hreturn htab hback hform hcontrol
  iterate 7
    · subst c
      decide
  · have hc : isSeparator c = false := by
      unfold isSeparator
      rw [Bool.or_eq_false_iff, beq_eq_false_iff_ne, beq_eq_false_iff_ne]
      constructor <;> rintro rfl <;> exact absurd hcontrol (by decide)
    rw [hc]
    simp only [List.any_cons, List.any_nil, hdigit _ (show c.toNat / 16 < 16 by omega),
      hdigit _ (Nat.mod_lt c.toNat (by decide))]
    decide
  · have hother : isLineEnd c = isSeparator c := by
      unfold isLineEnd isSeparator
      rw [beq_eq_false_iff_ne.mpr hfeed, beq_eq_false_iff_ne.mpr hreturn]
      rfl
    rw [List.any_cons, List.any_nil, Bool.or_false, hother]

/-- A text without separators is quoted on one line. -/
theorem any_line_end_encode (text : List Char) :
    (encode text).any isLineEnd = text.any isSeparator := by
  unfold encode
  rw [List.any_flatMap]
  exact congrArg text.any (funext any_line_end_encode_char)

theorem line_end_not_mem_encode {text : List Char} (h : text.any isSeparator = false) :
    ∀ c ∈ encode text, isLineEnd c = false :=
  fun c hc => Bool.eq_false_iff.mpr
    (List.any_eq_false.mp ((any_line_end_encode text).trans h) c hc)

end Text.Quoted

/-! ## Headings -/

namespace Bundle

open Script (isLineEnd skipGap)
open Text.Quoted (isSeparator encode line_end_not_mem_encode any_line_end_encode)

variable {name : String} {before after : List Char} {separator : Char}

/-- The comment with the name of a document, without the end of its line. -/
def heading (name : String) : List Char :=
  "// ".toList ++ (Text.quote name).toList

/-- The assignments below the heading. -/
def assignmentLines (resolved : ResolvedNamespace) (templates : List CompiledTemplate) :
    List Char :=
  ("\n".intercalate (templates.map fun template =>
    slot resolved template.id ++ "=" ++ template.source ++ ";")).toList

theorem document_entry_eq (resolved : ResolvedNamespace) (name : String)
    (templates : List CompiledTemplate) :
    (documentEntry resolved name templates).toList =
      heading name ++ '\n' :: assignmentLines resolved templates := by
  simp only [documentEntry, heading, assignmentLines, String.toList_append, List.append_assoc]
  rfl

theorem heading_eq (name : String) :
    heading name = '/' :: '/' :: ([' ', '"'] ++ encode name.toList ++ ['"']) := by
  unfold heading Text.quote
  simp only [String.toList_ofList, List.cons_append, List.nil_append]
  rfl

theorem line_end_not_mem_heading (h : name.toList.any isSeparator = false) :
    ∀ c ∈ heading name, isLineEnd c = false := by
  intro c hc
  rw [heading_eq] at hc
  simp only [List.mem_cons, List.mem_append, List.not_mem_nil, or_false] at hc
  rcases hc with rfl | rfl | (((rfl | rfl) | hencoded) | rfl)
  · rfl
  · rfl
  · rfl
  · rfl
  · exact line_end_not_mem_encode h c hencoded
  · rfl

/-- Below a heading without separators the first assignment comes next: no part of the name is
code, and none of the assignments belongs to the comment. -/
theorem skip_heading (h : name.toList.any isSeparator = false) (resolved : ResolvedNamespace)
    (templates : List CompiledTemplate) (behind : List Char) (line : Nat) (newline : Bool) :
    skipGap .blank ((documentEntry resolved name templates).toList ++ behind) line newline =
      skipGap .blank (assignmentLines resolved templates ++ behind) (line + 1) true := by
  have hcomment : ∀ c ∈ [' ', '"'] ++ encode name.toList ++ ['"'], isLineEnd c = false :=
    fun c hc => line_end_not_mem_heading h c
      (heading_eq name ▸ List.mem_cons_of_mem _ (List.mem_cons_of_mem _ hc))
  rw [document_entry_eq, heading_eq, List.append_assoc, List.cons_append, List.cons_append,
    List.cons_append, skipGap]
  exact Script.skip_line_comment hcomment rfl _ line newline

/-- The first separator in a name ends the comment, and the name goes on as code. -/
theorem skip_heading_separator (hname : name.toList = before ++ separator :: after)
    (hbefore : before.any isSeparator = false) (hseparator : isSeparator separator = true)
    (resolved : ResolvedNamespace) (templates : List CompiledTemplate) (behind : List Char)
    (line : Nat) (newline : Bool) :
    skipGap .blank ((documentEntry resolved name templates).toList ++ behind) line newline =
      skipGap .blank (encode after ++ '"' :: '\n' :: assignmentLines resolved templates ++ behind)
        line true := by
  have hencode : encode (separator :: after) = separator :: encode after ∧
      isLineEnd separator = true ∧ Script.lineBehind separator line = line := by
    unfold isSeparator at hseparator
    rcases Bool.or_eq_true_iff.mp hseparator with hc | hc <;> obtain rfl := eq_of_beq hc <;>
      exact ⟨rfl, rfl, rfl⟩
  -- the comment holds what stands before the separator, where no line ends
  have hcomment : ∀ c ∈ [' ', '"'] ++ encode before, isLineEnd c = false := by
    intro c hc
    simp only [List.mem_cons, List.mem_append, List.not_mem_nil, or_false] at hc
    rcases hc with (rfl | rfl) | hencoded
    · rfl
    · rfl
    · exact line_end_not_mem_encode hbefore c hencoded
  have hwritten : encode name.toList = encode before ++ separator :: encode after := by
    rw [hname, ← hencode.1]
    exact List.flatMap_append
  have htext : (documentEntry resolved name templates).toList ++ behind =
      '/' :: '/' :: (([' ', '"'] ++ encode before) ++ separator ::
        (encode after ++ '"' :: '\n' :: assignmentLines resolved templates ++ behind)) := by
    rw [document_entry_eq, heading_eq, hwritten]
    simp only [List.append_assoc, List.cons_append, List.nil_append]
  rw [htext, skipGap, Script.skip_line_comment hcomment hencode.2.1, hencode.2.2]

/-- The comment of a document ends with its line, in front of the first assignment, just for names
without separators. -/
theorem heading_ends_with_line_iff (resolved : ResolvedNamespace) (name : String)
    (templates : List CompiledTemplate) :
    (documentEntry resolved name templates).toList.takeWhile (fun c => !isLineEnd c) =
        heading name ↔
      ∀ c ∈ name.toList, isSeparator c = false := by
  rw [document_entry_eq]
  constructor
  · intro hheading c hc
    have hall := List.all_takeWhile (p := fun c => !isLineEnd c)
      (l := heading name ++ '\n' :: assignmentLines resolved templates)
    rw [hheading, heading_eq] at hall
    simp only [List.all_cons, List.all_append, Bool.and_eq_true] at hall
    refine Bool.eq_false_iff.mpr fun hseparator => ?_
    have hany : (encode name.toList).any isLineEnd = true := by
      rw [any_line_end_encode]
      exact List.any_eq_true.mpr ⟨c, hc, hseparator⟩
    obtain ⟨found, hfound, hend⟩ := List.any_eq_true.mp hany
    have hnot := List.all_eq_true.mp hall.2.2.1.2 found hfound
    rw [hend] at hnot
    cases hnot
  · intro hname
    have hall : ∀ c ∈ heading name, (!isLineEnd c) = true := by
      intro c hc
      rw [line_end_not_mem_heading (List.any_eq_false.mpr fun c hc => by rw [hname c hc]; decide)
        c hc]
      rfl
    rw [List.takeWhile_append_of_pos hall]
    exact List.append_nil _

/-- A separator in the name of a document ends its comment: the first word behind the heading is
none of the assignments. -/
theorem separator_leaves_heading :
    ((Script.lex ⟨(documentEntry ⟨"", "this"⟩ "a\u2028b" [⟨"t", "f"⟩]).toList, 1⟩).map
      Script.Lexeme.token).toOption = some (.name "b" false) := by
  decide +kernel

end Bundle

end TemplateBundle

import TemplateBundle.Proofs.Yaml.Characters
import TemplateBundle.Yaml.Scalar

/-!
# Reading plain scalars back

A text that can be plain is read back from its line: `plain_scalar_written`. The line after it starts
with at most the indentation of the block, so it does not belong to the text.
-/

namespace TemplateBundle.Yaml

open Printer

/-! ## Marks -/

section Marks

variable (mark : Mark) (first second : Nat)

@[simp] theorem Mark.column_next : mark.next.column = mark.column + 1 := rfl

@[simp] theorem Mark.column_forward : (mark.forward first).column = mark.column + first := rfl

@[simp] theorem Mark.line_forward : (mark.forward first).line = mark.line := rfl

@[simp] theorem Mark.index_forward : (mark.forward first).index = mark.index + first := rfl

@[simp] theorem Mark.column_next_line : (mark.nextLine first).column = 0 := rfl

@[simp] theorem Mark.line_next_line : (mark.nextLine first).line = mark.line + 1 := rfl

@[simp] theorem Mark.forward_zero : mark.forward 0 = mark := rfl

theorem Mark.forward_one : mark.forward 1 = mark.next := rfl

theorem Mark.forward_forward :
    (mark.forward first).forward second = mark.forward (first + second) := by
  simp only [Mark.forward, Nat.add_assoc]

theorem Mark.next_forward : mark.next.forward first = mark.forward (first + 1) := by
  rw [← Mark.forward_one, Mark.forward_forward, Nat.add_comm]

end Marks

/-! ## What stands behind a scalar -/

/-- A token starts here, or the text ends. -/
def StartsToken (rest : List Char) : Prop :=
  ∀ c ∈ rest.head?, isBlank c = false ∧ isBreak c = false ∧ c ≠ '#' ∧ c ≠ '\ufeff'

theorem starts_token_nil : StartsToken [] :=
  fun _ h => absurd h (by simp)

variable {inFlow inGap : Bool} {indent column : Nat} {c : Char} {rest text read : List Char}
  {mark : Mark} {gap : Gap}

/-- The first character tells whether a token starts. -/
theorem starts_token_cons (h : isBlank c = false ∧ isBreak c = false ∧ c ≠ '#' ∧ c ≠ '\ufeff') :
    StartsToken (c :: rest) := by
  intro d hd
  obtain rfl := Option.some.inj hd
  exact h

/-- A line end is not the first character of a token. -/
theorem ne_return_of_not_break (h : isBreak c = false) : c ≠ '\r' := by
  rintro rfl
  cases h

/-! ## Steps of a plain scalar -/

theorem plain_rest_blank (h : isBlank c = true)
    (htab : (gap.hasBreak && mark.column < indent && c == '\t') = false) :
    plainRest inFlow indent inGap (c :: rest) mark read gap =
      plainRest inFlow indent true rest mark.next read (gap.blank c) := by
  have hreturn : c ≠ '\r' := by
    rintro rfl
    cases h
  rw [plainRest, if_pos h, htab, if_neg (by decide)]
  intro behind heq _
  exact hreturn heq

theorem plain_rest_line_end (hprintable : isPrintable c = true) (h : isBreak c = true) :
    plainRest inFlow indent inGap (c :: rest) mark read gap =
      plainRest inFlow indent true rest (mark.nextLine 1) read (gap.lineEnd c) := by
  have hblank : isBlank c = false := by
    apply Bool.eq_false_iff.mpr
    intro hblank
    rw [space_of_printable hprintable hblank] at h
    cases h
  rw [plainRest, hblank, if_neg (by decide), if_pos h]
  intro behind heq _
  exact ne_of_printable hprintable (by decide) heq

theorem plain_rest_char (hblank : isBlank c = false) (hbreak : isBreak c = false)
    (hstays : (inGap && (decide (mark.column < indent) ||
      atDocumentBound ⟨c :: rest, mark⟩ || c == '#')) = false)
    (hcolon : (c == ':' && endsWord rest) = false) :
    plainRest false indent inGap (c :: rest) mark read gap =
      plainRest false indent false rest mark.next (c :: (gap.folded ++ read)) {} := by
  rw [plainRest]
  · simp only [hblank, hbreak, Bool.not_false, Bool.true_and, hstays, Bool.false_and, hcolon,
      Bool.or_false, Bool.false_eq_true, if_false]
  · intro behind heq _
    exact ne_return_of_not_break hbreak heq

theorem plain_rest_stop (hblank : isBlank c = false) (hbreak : isBreak c = false)
    (hcolumn : mark.column < indent) :
    plainRest false indent true (c :: rest) mark read gap =
      some { text := read.reverse, after := ⟨c :: rest, mark⟩, brokenOff := gap.hasBreak } := by
  rw [plainRest]
  · simp only [hblank, hbreak, hcolumn, Bool.not_false, decide_true, Bool.true_and,
      Bool.true_or, Bool.false_eq_true, if_false, if_true]
  · intro behind heq _
    exact ne_return_of_not_break hbreak heq

/-! ## The end of a line -/

/-- Behind a line end blanks do not count. -/
theorem Gap.blank_of_has_break (h : gap.hasBreak = true) : gap.blank c = gap := by
  rw [Gap.blank, if_pos h]

theorem Gap.has_break_line_end : (gap.lineEnd c).hasBreak = true := by
  unfold Gap.lineEnd
  split_ifs with h
  · exact h
  · rfl

/-- The indentation of a further line is passed over. -/
theorem plain_rest_indentation (h : gap.hasBreak = true) (count : Nat) (mark : Mark) :
    plainRest inFlow indent true (List.replicate count ' ' ++ rest) mark read gap =
      plainRest inFlow indent true rest (mark.forward count) read gap := by
  induction count generalizing mark with
  | zero => rfl
  | succ count ih =>
      rw [List.replicate_succ, List.cons_append, plain_rest_blank rfl (Bool.and_false _),
        Gap.blank_of_has_break h, ih, Mark.next_forward]

/-- A scalar ends with its line if the next line starts with less than its indentation. -/
theorem plain_rest_end_of_line (hcolumn : column < indent) (hrest : StartsToken rest) :
    plainRest false indent inGap ('\n' :: (List.replicate column ' ' ++ rest)) mark read gap =
      some {
        text := read.reverse
        after := ⟨rest, (mark.nextLine 1).forward column⟩
        brokenOff := true } := by
  rw [plain_rest_line_end (by decide) rfl, plain_rest_indentation Gap.has_break_line_end]
  cases rest with
  | nil => rw [plainRest, Gap.has_break_line_end]
  | cons c rest =>
      obtain ⟨hblank, hbreak, -, -⟩ := hrest c rfl
      rw [plain_rest_stop hblank hbreak (by simpa using hcolumn), Gap.has_break_line_end]

/-! ## Texts in a line -/

/-- A part of a text that can be plain, up to its end. -/
structure IsPlain (text : List Char) : Prop where
  printable : ∀ c ∈ text, isPrintable c = true
  inLine : ∀ c ∈ text, isBreak c = false
  noValue : hasPair (· == ':') (fun c => isBlank c || isBreak c) text = false
  noComment : hasPair (fun c => isBlank c || isBreak c) (· == '#') text = false
  lastColon : text.getLast? ≠ some ':'
  lastSpace : text.getLast? ≠ some ' '

theorem get_last_tail_ne {last : Char} (h : (c :: text).getLast? ≠ some last) :
    text.getLast? ≠ some last := by
  cases text with
  | nil => exact nofun
  | cons next rest => rwa [List.getLast?_cons_cons] at h

theorem IsPlain.tail (h : IsPlain (c :: text)) : IsPlain text where
  printable d hd := h.printable d (List.mem_cons_of_mem _ hd)
  inLine d hd := h.inLine d (List.mem_cons_of_mem _ hd)
  noValue := has_pair_tail h.noValue
  noComment := has_pair_tail h.noComment
  lastColon := get_last_tail_ne h.lastColon
  lastSpace := get_last_tail_ne h.lastSpace

/-- A colon in the text is followed by a further character of a word. -/
theorem IsPlain.not_value (h : IsPlain (c :: text)) (behind : List Char) :
    (c == ':' && endsWord (text ++ '\n' :: behind)) = false := by
  rw [Bool.and_eq_false_iff]
  by_cases hcolon : c = ':'
  · right
    cases text with
    | nil =>
        rw [hcolon] at h
        exact absurd rfl h.lastColon
    | cons next rest => exact has_pair_head h.noValue (by simpa using hcolon)
  · left
    simpa using hcolon

/-- A blank in the text is followed by a further character, which does not start a comment. -/
theorem IsPlain.behind_blank (h : IsPlain (c :: text)) (hblank : isBlank c = true) :
    text ≠ [] ∧ text.head? ≠ some '#' := by
  have hspace : c = ' ' := space_of_printable (h.printable c List.mem_cons_self) hblank
  cases text with
  | nil =>
      rw [hspace] at h
      exact absurd rfl h.lastSpace
  | cons next rest =>
      have hnext := has_pair_head h.noComment (by simp [hblank])
      exact ⟨nofun, by simpa using hnext⟩

/-- A part of a plain text is read back, with the blanks that stand before it. -/
theorem plain_rest_written (htext : IsPlain text) (hcolumn : column < indent)
    (hmark : indent ≤ mark.column) (hrest : StartsToken rest) (blanks : List Char)
    (hblanks : blanks ≠ [] → text ≠ []) (hgap : inGap = true → text.head? ≠ some '#') :
    plainRest false indent inGap (text ++ '\n' :: (List.replicate column ' ' ++ rest)) mark read
        { blanks := blanks } =
      some {
        text := read.reverse ++ (blanks.reverse ++ text)
        after := ⟨rest, ((mark.forward text.length).nextLine 1).forward column⟩
        brokenOff := true } := by
  induction text generalizing inGap mark read blanks with
  | nil =>
      have hempty : blanks = [] := by
        by_contra h
        exact hblanks h rfl
      rw [List.nil_append, plain_rest_end_of_line hcolumn hrest, hempty, List.reverse_nil,
        List.nil_append, List.append_nil, List.length_nil, Mark.forward_zero]
  | cons c text ih =>
      have hnext : indent ≤ mark.next.column := by
        rw [Mark.column_next]
        omega
      rw [List.cons_append, List.length_cons, ← Mark.next_forward]
      by_cases hblank : isBlank c = true
      · obtain ⟨hne, hcomment⟩ := htext.behind_blank hblank
        rw [plain_rest_blank hblank rfl, show Gap.blank { blanks := blanks } c =
          { blanks := c :: blanks } from rfl, ih htext.tail hnext _ (fun _ => hne)
          (fun _ => hcomment), List.reverse_cons, List.append_assoc, List.singleton_append]
      · -- only behind a gap could the text end here: it is deep enough, and the character starts no
        -- comment
        have hstays : (inGap && (decide (mark.column < indent) ||
            atDocumentBound ⟨c :: (text ++ '\n' :: (List.replicate column ' ' ++ rest)), mark⟩ ||
              c == '#')) = false := by
          have hbound : mark.column ≠ 0 := by omega
          have hinside : ¬ mark.column < indent := by omega
          cases inGap with
          | false => rfl
          | true => simpa [atDocumentBound, hbound, hinside] using hgap rfl
        have hword : false = true → text.head? ≠ some '#' := nofun
        rw [plain_rest_char (by simpa using hblank) (htext.inLine c List.mem_cons_self) hstays
          (htext.not_value _), ih htext.tail hnext [] (absurd rfl) hword]
        simp [Gap.folded]

/-- The conditions for plain texts, part by part. -/
theorem is_plain_of_can_be_plain (h : canBePlain text = true) : IsPlain text := by
  simp only [canBePlain, isCutShort, bordersOn, Bool.and_eq_true, Bool.not_eq_true',
    Bool.or_eq_false_iff, beq_eq_false_iff_ne, List.all_eq_true, List.any_eq_false,
    Bool.not_eq_true] at h
  obtain ⟨⟨⟨⟨⟨hprintable, hline⟩, hborder⟩, -⟩, -⟩, ⟨hvalue, hcolon⟩, hcomment⟩ := h
  refine ⟨hprintable, hline, hvalue, hcomment, hcolon, fun hlast => ?_⟩
  rw [hlast] at hborder
  exact absurd hborder.2 (by decide)

/-- A text that can be plain is read back from its line. -/
theorem plain_scalar_written (htext : canBePlain text = true) (hcolumn : column < indent)
    (hmark : indent ≤ mark.column) (hrest : StartsToken rest) :
    plainScalar false indent ⟨text ++ '\n' :: (List.replicate column ' ' ++ rest), mark⟩ =
      some {
        text := text
        after := ⟨rest, ((mark.forward text.length).nextLine 1).forward column⟩
        brokenOff := true } := by
  have hgap : false = true → text.head? ≠ some '#' := nofun
  exact plain_rest_written (is_plain_of_can_be_plain htext) hcolumn hmark hrest [] (absurd rfl) hgap

/-! ## Words -/

/-- A lower-case letter or an underscore. -/
def isWordChar (c : Char) : Bool :=
  c.isLower || c == '_'

/-- A word that may be a key: it is not empty, and not too long. -/
def IsWord (text : List Char) : Prop :=
  text ≠ [] ∧ text.length < 1024 ∧ text.all isWordChar = true

instance (text : List Char) : Decidable (IsWord text) :=
  inferInstanceAs (Decidable (_ ∧ _ ∧ _))

/-- A character of a word is no other sign. -/
theorem ne_of_word_char {other : Char} (h : isWordChar c = true)
    (hother : isWordChar other = false) : c ≠ other := by
  rintro rfl
  rw [h] at hother
  cases hother

theorem not_blank_of_word_char (h : isWordChar c = true) : isBlank c = false := by
  have hspace : c ≠ ' ' := ne_of_word_char h (by decide)
  have htab : c ≠ '\t' := ne_of_word_char h (by decide)
  simp [isBlank, hspace, htab]

theorem not_break_of_word_char (h : isWordChar c = true) : isBreak c = false := by
  have hline : c ≠ '\n' := ne_of_word_char h (by decide)
  have hreturn : c ≠ '\r' := ne_of_word_char h (by decide)
  have hnext : c ≠ '\u0085' := ne_of_word_char h (by decide)
  have hseparator : c ≠ '\u2028' := ne_of_word_char h (by decide)
  have hparagraph : c ≠ '\u2029' := ne_of_word_char h (by decide)
  simp [isBreak, hline, hreturn, hnext, hseparator, hparagraph]

/-- Characters of a word are read up to the colon behind it. -/
theorem plain_rest_word (htext : text.all isWordChar = true) (hrest : endsWord rest = true) :
    plainRest false indent false (text ++ ':' :: rest) mark read {} =
      some {
        text := read.reverse ++ text
        after := ⟨':' :: rest, mark.forward text.length⟩
        brokenOff := false } := by
  induction text generalizing mark read with
  | nil =>
      rw [List.nil_append, plainRest]
      · simp [isBlank, isBreak, hrest, Gap.hasBreak]
      · exact nofun
  | cons c text ih =>
      rw [List.all_cons, Bool.and_eq_true] at htext
      have hcolon : c ≠ ':' := ne_of_word_char htext.1 (by decide)
      rw [List.cons_append, plain_rest_char (not_blank_of_word_char htext.1)
        (not_break_of_word_char htext.1) rfl (by simp [hcolon]), ih htext.2, List.length_cons,
        ← Mark.next_forward]
      simp [Gap.folded]

/-- A word in front of a colon is read as a plain scalar. -/
theorem plain_scalar_word (htext : IsWord text) (hrest : endsWord rest = true) :
    plainScalar false indent ⟨text ++ ':' :: rest, mark⟩ =
      some {
        text := text
        after := ⟨':' :: rest, mark.forward text.length⟩
        brokenOff := false } :=
  plain_rest_word htext.2.2 hrest

end TemplateBundle.Yaml

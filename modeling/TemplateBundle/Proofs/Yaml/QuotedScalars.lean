import TemplateBundle.Proofs.Yaml.PlainScalars

/-!
# Reading quoted scalars back

Every text is read back from double quotes (`double_scalar_written`), and one that can stand in
single quotes is read back from them, over several lines if it holds line ends
(`single_scalar_written`).
-/

namespace TemplateBundle.Yaml

open Printer

variable {quote c : Char} {bound indent : Nat} {inGap : Bool} {rest text read : List Char}
  {mark : Mark} {gap : Gap}

/-! ## Steps of a quoted scalar -/

/-- The reading of a quoted scalar from a character on that is no blank and ends no line. -/
def quotedWord (quote : Char) (bound : Nat) (c : Char) (rest : List Char) (mark : Mark)
    (read : List Char) : Option ScalarText :=
  if c = quote then
    if quote = '\'' ∧ rest.head? = some '\'' then
      quotedRest quote bound false ⟨rest.tail, mark.forward 2⟩ ('\'' :: read) {}
    else some { text := read.reverse, after := ⟨rest, mark.next⟩ }
  else if quote = '"' ∧ c = '\\' then
    match rest with
    | '\r' :: '\n' :: behind =>
        quotedRest quote bound true ⟨behind, mark.next.nextLine 2⟩ read { lead := some [] }
    | next :: behind =>
        if isBreak next then
          quotedRest quote bound true ⟨behind, mark.next.nextLine 1⟩ read { lead := some [] }
        else
          match escaped? rest with
          | some (c, length) =>
              quotedRest quote bound false ⟨rest.drop length, mark.forward (length + 1)⟩
                (c :: read) {}
          | none => none
    | [] => none
  else quotedRest quote bound false ⟨rest, mark.next⟩ (c :: read) {}

/-- A step of a quoted scalar. -/
theorem quoted_rest_step (hreturn : c ≠ '\r') :
    quotedRest quote (bound + 1) inGap ⟨c :: rest, mark⟩ read gap =
      if isBlank c then quotedRest quote bound true ⟨rest, mark.next⟩ read (gap.blank c)
      else if isBreak c then
        quotedRest quote bound true ⟨rest, mark.nextLine 1⟩ read (gap.lineEnd c)
      else if inGap && atDocumentBound ⟨c :: rest, mark⟩ then none
      else quotedWord quote bound c rest mark (gap.folded ++ read) := by
  rw [quotedRest]
  split
  · rename_i heq
    cases heq
  · rename_i heq
    exact absurd (List.cons.inj heq).1 hreturn
  · rename_i heq
    obtain ⟨rfl, rfl⟩ := List.cons.inj heq
    simp only [quotedWord, ← List.drop_one]
    rfl

theorem quoted_rest_blank (h : isBlank c = true) :
    quotedRest quote (bound + 1) inGap ⟨c :: rest, mark⟩ read gap =
      quotedRest quote bound true ⟨rest, mark.next⟩ read (gap.blank c) := by
  have hreturn : c ≠ '\r' := by
    rintro rfl
    cases h
  rw [quoted_rest_step hreturn, if_pos h]

theorem quoted_rest_line_end (hprintable : isPrintable c = true) (h : isBreak c = true) :
    quotedRest quote (bound + 1) inGap ⟨c :: rest, mark⟩ read gap =
      quotedRest quote bound true ⟨rest, mark.nextLine 1⟩ read (gap.lineEnd c) := by
  have hblank : isBlank c ≠ true := by
    intro hblank
    rw [space_of_printable hprintable hblank] at h
    cases h
  rw [quoted_rest_step (ne_of_printable hprintable (by decide)), if_neg hblank, if_pos h]

theorem quoted_rest_word (hblank : isBlank c = false) (hbreak : isBreak c = false)
    (hcolumn : mark.column ≠ 0) :
    quotedRest quote (bound + 1) inGap ⟨c :: rest, mark⟩ read gap =
      quotedWord quote bound c rest mark (gap.folded ++ read) := by
  have hbound : atDocumentBound ⟨c :: rest, mark⟩ = false := by
    simp [atDocumentBound, hcolumn]
  rw [quoted_rest_step (ne_return_of_not_break hbreak), hblank, hbreak, hbound, Bool.and_false,
    if_neg (by decide), if_neg (by decide), if_neg (by decide)]

/-- The quote that opened a scalar ends it. -/
theorem quoted_word_close (h : quote = '\'' → rest.head? ≠ some '\'') :
    quotedWord quote bound quote rest mark read =
      some { text := read.reverse, after := ⟨rest, mark.next⟩ } := by
  rw [quotedWord.eq_def, if_pos rfl, if_neg (fun hboth => h hboth.1 hboth.2)]

/-- Other characters stand for themselves. -/
theorem quoted_word_plain (hquote : c ≠ quote) (hescape : quote = '"' → c ≠ '\\') :
    quotedWord quote bound c rest mark read =
      quotedRest quote bound false ⟨rest, mark.next⟩ (c :: read) {} := by
  rw [quotedWord.eq_def, if_neg hquote, if_neg (fun hboth => hescape hboth.1 hboth.2)]

/-! ## Hexadecimal digits -/

/-- An upper-case digit has the value that it writes. -/
theorem hex_value_digit_char {digit : Nat} (h : digit < 16) :
    Text.hexValue? (Nat.digitChar digit).toUpper = some digit := by
  revert digit
  decide

theorem hex_number_append (digits : List Char) {digit : Nat} (h : Text.hexValue? c = some digit) :
    Text.hexNumber (digits ++ [c]) = 16 * Text.hexNumber digits + digit := by
  simp only [Text.hexNumber, List.foldl_append, List.foldl_cons, List.foldl_nil, h]

/-- Zeros in front of digits do not count. -/
theorem hex_number_zeros (count : Nat) (digits : List Char) :
    Text.hexNumber (List.replicate count '0' ++ digits) = Text.hexNumber digits := by
  induction count with
  | zero => rfl
  | succ count ih =>
      rw [List.replicate_succ, List.cons_append, ← ih]
      rfl

/-- The digits of a number are all digits, and write it. -/
theorem hex_number_to_digits (number : Nat) :
    (∀ c ∈ (Nat.toDigits 16 number).map Char.toUpper, (Text.hexValue? c).isSome = true) ∧
      Text.hexNumber ((Nat.toDigits 16 number).map Char.toUpper) = number := by
  induction number using Nat.strongRecOn with
  | ind number ih =>
      by_cases hsmall : number < 16
      · have hvalue := hex_value_digit_char hsmall
        rw [Nat.toDigits_of_lt_base hsmall, List.map_singleton]
        refine ⟨fun c hc => ?_, ?_⟩
        · rw [List.mem_singleton.mp hc, hvalue]
          rfl
        · rw [← List.nil_append [_], hex_number_append [] hvalue]
          exact Nat.zero_add number
      · have hvalue := hex_value_digit_char (Nat.mod_lt number (by decide : 0 < 16))
        obtain ⟨hall, hnumber⟩ := ih (number / 16) (by omega)
        rw [Nat.toDigits_eq_if (by decide), if_neg hsmall, List.map_append, List.map_singleton]
        refine ⟨fun c hc => ?_, ?_⟩
        · rcases List.mem_append.mp hc with hc | hc
          · exact hall c hc
          · rw [List.mem_singleton.mp hc, hvalue]
            rfl
        · rw [hex_number_append _ hvalue, hnumber]
          exact Nat.div_add_mod number 16

/-- A number that fits is written with exactly the digits of the width. -/
theorem length_hex_digits {width number : Nat} (hwidth : 0 < width) (h : number < 16 ^ width) :
    (hexDigits width number).length = width := by
  have hle : (Nat.toDigits 16 number).length ≤ width :=
    (Nat.length_toDigits_le_iff (by decide) hwidth).mpr h
  rw [hexDigits, List.length_append, List.length_replicate, List.length_map]
  exact Nat.sub_add_cancel hle

theorem hex_number_hex_digits (width number : Nat) :
    (∀ c ∈ hexDigits width number, (Text.hexValue? c).isSome = true) ∧
      Text.hexNumber (hexDigits width number) = number := by
  obtain ⟨hall, hnumber⟩ := hex_number_to_digits number
  refine ⟨fun c hc => ?_, (hex_number_zeros _ _).trans hnumber⟩
  rcases List.mem_append.mp hc with hc | hc
  · rw [List.eq_of_mem_replicate hc]
    rfl
  · exact hall c hc

/-! ## Escapes -/

/-- The letter of a short escape stands for the character that it was chosen for. -/
theorem letter_escape_of_letter {letter : Char} (h : escapeLetter? c = some letter) :
    letterEscape? letter = some c ∧ isBreak letter = false ∧ isAllowed letter = true := by
  unfold escapeLetter? at h
  split at h
  all_goals cases h
  all_goals exact ⟨rfl, rfl, rfl⟩

/-- An escape by code stands for the character with that code. -/
theorem escaped_of_code {letter : Char} {width : Nat} (hletter : letterEscape? letter = none)
    (hwidth : escapeDigits? letter = some width) (hpos : 0 < width)
    (hcode : c.toNat < 16 ^ width) (rest : List Char) :
    escaped? (letter :: (hexDigits width c.toNat ++ rest)) = some (c, width + 1) := by
  obtain ⟨hall, hnumber⟩ := hex_number_hex_digits width c.toNat
  have hlength := length_hex_digits hpos hcode
  have htake : (hexDigits width c.toNat ++ rest).take width = hexDigits width c.toNat := by
    rw [List.take_append_of_le_length (Nat.le_of_eq hlength.symm),
      List.take_of_length_le (Nat.le_of_eq hlength)]
  have hvalid : c.toNat.isValidChar := c.valid
  unfold escaped?
  simp only [hletter, hwidth, htake, hlength, hnumber, List.all_eq_true.mpr hall, hvalid,
    and_self, if_true, Char.ofNat_toNat]

/-- What a character becomes in double quotes: itself, or an escape that stands for it. -/
theorem escaped_cases (c : Char) :
    (escaped c = [c] ∧ isPrintable c = true ∧ isBreak c = false ∧ c ≠ '"' ∧ c ≠ '\\') ∨
      ∃ letter code, escaped c = '\\' :: letter :: code ∧ isBreak letter = false ∧
        ∀ rest, escaped? (letter :: (code ++ rest)) = some (c, code.length + 1) := by
  by_cases hraw : (isPrintable c && !isBreak c && c != '"' && c != '\\') = true
  · rw [escaped, if_pos hraw]
    simp only [Bool.and_eq_true, Bool.not_eq_true', bne_iff_ne] at hraw
    exact .inl ⟨rfl, hraw.1.1.1, hraw.1.1.2, hraw.1.2, hraw.2⟩
  right
  rw [escaped, if_neg hraw]
  cases hletter : escapeLetter? c with
  | some letter =>
      obtain ⟨hmeans, hbreak, -⟩ := letter_escape_of_letter hletter
      refine ⟨letter, [], rfl, hbreak, fun rest => ?_⟩
      simp only [escaped?, hmeans]
      rfl
  | none =>
      dsimp only
      split_ifs with hbyte hunit
      · have hcode : c.toNat < 16 ^ 2 := by omega
        refine ⟨'x', _, rfl, rfl, fun rest => ?_⟩
        rw [escaped_of_code rfl rfl (by decide) hcode, length_hex_digits (by decide) hcode]
      · have hcode : c.toNat < 16 ^ 4 := by omega
        refine ⟨'u', _, rfl, rfl, fun rest => ?_⟩
        rw [escaped_of_code rfl rfl (by decide) hcode, length_hex_digits (by decide) hcode]
      · have hcode : c.toNat < 16 ^ 8 := by
          have hlt : c.toNat < 4294967296 := c.val.toNat_lt
          omega
        refine ⟨'U', _, rfl, rfl, fun rest => ?_⟩
        rw [escaped_of_code rfl rfl (by decide) hcode, length_hex_digits (by decide) hcode]

/-! ## Double quotes -/

/-- An escape is read as the character that it stands for. -/
theorem quoted_word_escape {letter : Char} {code : List Char} (hbreak : isBreak letter = false)
    (h : escaped? (letter :: (code ++ rest)) = some (c, code.length + 1)) :
    quotedWord '"' bound '\\' (letter :: (code ++ rest)) mark read =
      quotedRest '"' bound false ⟨rest, mark.forward (code.length + 2)⟩ (c :: read) {} := by
  have hreturn : letter ≠ '\r' := ne_return_of_not_break hbreak
  rw [quotedWord, if_neg (by decide), if_pos ⟨rfl, rfl⟩, hbreak, if_neg (by decide), h]
  · simp only [List.drop_succ_cons, List.drop_left]
  · intro behind heq _
    exact hreturn heq

/-- The escaped characters of a text are read as the text. -/
theorem double_rest_written (text : List Char) {blanks : List Char} (hcolumn : mark.column ≠ 0)
    (hbound : (text.flatMap escaped ++ '"' :: rest).length < bound) :
    ∃ stop, quotedRest '"' bound inGap ⟨text.flatMap escaped ++ '"' :: rest, mark⟩ read
          { blanks := blanks } =
        some { text := read.reverse ++ (blanks.reverse ++ text), after := ⟨rest, stop⟩ } ∧
      mark.line ≤ stop.line := by
  induction text generalizing bound inGap mark read blanks with
  | nil =>
      obtain ⟨bound, rfl⟩ := Nat.exists_eq_succ_of_ne_zero (Nat.ne_zero_of_lt hbound)
      have hquote : '"' = '\'' → rest.head? ≠ some '\'' := fun h => absurd h (by decide)
      refine ⟨mark.next, ?_, Nat.le_refl _⟩
      rw [List.flatMap_nil, List.nil_append, quoted_rest_word rfl rfl hcolumn,
        quoted_word_close hquote, List.append_nil, ← List.reverse_append]
      rfl
  | cons c text ih =>
      obtain ⟨bound, rfl⟩ := Nat.exists_eq_succ_of_ne_zero (Nat.ne_zero_of_lt hbound)
      rw [List.flatMap_cons, List.append_assoc] at hbound ⊢
      -- a character stands for itself or is written as an escape of its own
      rcases escaped_cases c with ⟨hself, hprintable, hbreak, hquote, hescape⟩ |
        ⟨letter, code, hescaped, hbreak, hmeans⟩
      · rw [hself, List.singleton_append] at hbound ⊢
        have hshort := Nat.lt_of_succ_lt_succ hbound
        have hnext : mark.next.column ≠ 0 := Nat.succ_ne_zero _
        by_cases hblank : isBlank c = true
        · obtain ⟨stop, hstop, hline⟩ := ih hnext hshort
          refine ⟨stop, ?_, hline⟩
          rw [quoted_rest_blank hblank, show Gap.blank { blanks := blanks } c =
            { blanks := c :: blanks } from rfl, hstop, List.reverse_cons, List.append_assoc,
            List.singleton_append]
        · obtain ⟨stop, hstop, hline⟩ := ih hnext hshort
          refine ⟨stop, ?_, hline⟩
          rw [quoted_rest_word (by simpa using hblank) hbreak hcolumn,
            quoted_word_plain hquote (fun _ => hescape), hstop]
          simp [Gap.folded]
      · rw [hescaped, List.cons_append, List.cons_append] at hbound ⊢
        have hshort : (text.flatMap escaped ++ '"' :: rest).length < bound := by
          rw [List.length_cons, List.length_cons, List.length_append] at hbound
          omega
        have hnext : (mark.forward (code.length + 2)).column ≠ 0 := Nat.succ_ne_zero _
        obtain ⟨stop, hstop, hline⟩ := ih hnext hshort
        refine ⟨stop, ?_, hline⟩
        rw [quoted_rest_word rfl rfl hcolumn, quoted_word_escape hbreak (hmeans _), hstop]
        simp [Gap.folded]

/-- A text is read back from double quotes. -/
theorem double_scalar_written (text rest : List Char) (mark : Mark) :
    ∃ stop, quotedScalar ⟨'"' :: text.flatMap escaped ++ '"' :: rest, mark⟩ =
        some { text := text, after := ⟨rest, stop⟩ } ∧ mark.line ≤ stop.line := by
  have hcolumn : mark.next.column ≠ 0 := Nat.succ_ne_zero _
  exact double_rest_written text hcolumn (Nat.lt_succ_self _)

/-! ## Single quotes -/

/-- A character in single quotes. -/
def doubledQuote (c : Char) : List Char :=
  if c = '\'' then ['\'', '\''] else [c]

/-- A text in single quotes up to the closing one, behind the indentation of its lines. -/
def singleLines (indent : Nat) (atStart : Bool) (text : List Char) : List Char :=
  indentLines indent atStart (text.flatMap doubledQuote ++ ['\''])

/-- Doubling the quotes of a text keeps its last character. -/
theorem get_last_doubled (text : List Char) :
    (text.flatMap doubledQuote).getLast? = text.getLast? := by
  induction text with
  | nil => rfl
  | cons c text ih =>
      have hlast : (doubledQuote c).getLast? = some c := by
        unfold doubledQuote
        split_ifs with h
        · rw [h]; rfl
        · rfl
      rw [List.flatMap_cons, List.getLast?_append, ih, hlast, List.getLast?_cons]
      cases text.getLast? <;> rfl

/-- A text in single quotes, from the opening one on. -/
theorem single_eq_lines (indent : Nat) (text : List Char) :
    single indent text = '\'' :: singleLines indent false text := by
  have hend : indentLines indent (text.getLast?.elim false isBreak) ['\''] =
      (if text.getLast?.any isBreak then indentation indent else []) ++ ['\''] := by
    cases text.getLast? with
    | none => rfl
    | some last =>
        rw [Option.elim_some, Option.any_some]
        cases isBreak last
        · rfl
        · exact indent_lines_start indent rfl
  rw [singleLines, indent_lines_append, get_last_doubled, hend, ← List.append_assoc]
  rfl

/-- From a gap on, the lines of the text are read up to the closing quote, and the gap is read with
them. -/
def SingleReads (indent : Nat) (rest : List Char) (atStart : Bool) (text : List Char) (gap : Gap) :
    Prop :=
  ∀ (bound : Nat) (inGap : Bool) (mark : Mark) (read : List Char),
    (singleLines indent atStart text ++ rest).length < bound →
      (atStart = false → mark.column ≠ 0) →
        ∃ stop, quotedRest '\'' bound inGap ⟨singleLines indent atStart text ++ rest, mark⟩ read
              gap =
            some { text := read.reverse ++ (gap.folded.reverse ++ text), after := ⟨rest, stop⟩ } ∧
          mark.line ≤ stop.line

/-- The closing quote ends the text. -/
theorem single_reads_end (hrest : rest.head? ≠ some '\'') : SingleReads indent rest false [] gap := by
  intro bound inGap mark read hbound hcolumn
  obtain ⟨bound, rfl⟩ := Nat.exists_eq_succ_of_ne_zero (Nat.ne_zero_of_lt hbound)
  refine ⟨mark.next, ?_, Nat.le_refl _⟩
  rw [show singleLines indent false [] = ['\''] from rfl, List.singleton_append,
    quoted_rest_word rfl rfl (hcolumn rfl), quoted_word_close (fun _ => hrest), List.append_nil,
    List.reverse_append]

/-- A character of a word is read. -/
theorem single_reads_word (hblank : isBlank c = false) (hbreak : isBreak c = false)
    (h : SingleReads indent rest false text {}) : SingleReads indent rest false (c :: text) gap := by
  intro bound inGap mark read hbound hcolumn
  obtain ⟨bound, rfl⟩ := Nat.exists_eq_succ_of_ne_zero (Nat.ne_zero_of_lt hbound)
  by_cases hquote : c = '\''
  · have hlines : singleLines indent false (c :: text) =
        '\'' :: '\'' :: singleLines indent false text := by
      rw [hquote]
      rfl
    rw [hlines, List.cons_append, List.cons_append] at hbound ⊢
    obtain ⟨stop, hstop, hline⟩ := h bound false (mark.forward 2) ('\'' :: (gap.folded ++ read))
      (by rw [List.length_cons, List.length_cons] at hbound; omega) (fun _ => Nat.succ_ne_zero _)
    refine ⟨stop, ?_, hline⟩
    rw [quoted_rest_word rfl rfl (hcolumn rfl), quotedWord.eq_def, if_pos rfl, if_pos ⟨rfl, rfl⟩,
      List.tail_cons, hstop, hquote]
    simp [Gap.folded]
  · have hlines : singleLines indent false (c :: text) = c :: singleLines indent false text := by
      rw [singleLines, List.flatMap_cons, doubledQuote, if_neg hquote, List.singleton_append,
        List.cons_append, indent_lines_inside indent hbreak, singleLines]
    rw [hlines, List.cons_append] at hbound ⊢
    obtain ⟨stop, hstop, hline⟩ := h bound false mark.next (c :: (gap.folded ++ read))
      (Nat.lt_of_succ_lt_succ hbound) (fun _ => Nat.succ_ne_zero _)
    refine ⟨stop, ?_, hline⟩
    rw [quoted_rest_word hblank hbreak (hcolumn rfl),
      quoted_word_plain hquote (fun heq => absurd heq (by decide)), hstop]
    simp [Gap.folded]

/-- A space in a line is read with the gap. -/
theorem single_reads_space {blanks : List Char}
    (h : SingleReads indent rest false text { blanks := ' ' :: blanks }) :
    SingleReads indent rest false (' ' :: text) { blanks := blanks } := by
  intro bound inGap mark read hbound hcolumn
  obtain ⟨bound, rfl⟩ := Nat.exists_eq_succ_of_ne_zero (Nat.ne_zero_of_lt hbound)
  rw [show singleLines indent false (' ' :: text) = ' ' :: singleLines indent false text from rfl,
    List.cons_append] at hbound ⊢
  obtain ⟨stop, hstop, hline⟩ := h bound true mark.next read (Nat.lt_of_succ_lt_succ hbound)
    (fun _ => Nat.succ_ne_zero _)
  refine ⟨stop, ?_, hline⟩
  rw [quoted_rest_blank rfl]
  simpa [Gap.folded, Gap.blank, Gap.hasBreak] using hstop

/-- A line end is read with the gap, unless it counts as a space there. -/
theorem single_reads_break (hprintable : isPrintable c = true) (hbreak : isBreak c = true)
    {atStart : Bool} (hgap : (gap.lineEnd c).folded = c :: gap.folded)
    (h : SingleReads indent rest true text (gap.lineEnd c)) :
    SingleReads indent rest atStart (c :: text) gap := by
  intro bound inGap mark read hbound hcolumn
  obtain ⟨bound, rfl⟩ := Nat.exists_eq_succ_of_ne_zero (Nat.ne_zero_of_lt hbound)
  have hquote : c ≠ '\'' := by
    rintro rfl
    cases hbreak
  have hlines : singleLines indent atStart (c :: text) = c :: singleLines indent true text := by
    rw [singleLines, List.flatMap_cons, doubledQuote, if_neg hquote, List.singleton_append,
      List.cons_append, indent_lines_break indent atStart hbreak, singleLines]
  rw [hlines, List.cons_append] at hbound ⊢
  obtain ⟨stop, hstop, hline⟩ := h bound true (mark.nextLine 1) read
    (Nat.lt_of_succ_lt_succ hbound) nofun
  refine ⟨stop, ?_, Nat.le_of_succ_le hline⟩
  rw [quoted_rest_line_end hprintable hbreak, hstop, hgap]
  simp

/-- Behind a line end the indentation of a line is passed over. -/
theorem quoted_rest_indentation (hgap : gap.hasBreak = true) (count : Nat)
    (hbound : (indentation count ++ rest).length < bound) :
    ∃ left flag, quotedRest quote bound inGap ⟨indentation count ++ rest, mark⟩ read gap =
        quotedRest quote left flag ⟨rest, mark.forward count⟩ read gap ∧ rest.length < left := by
  induction count generalizing bound inGap mark with
  | zero => exact ⟨bound, inGap, rfl, hbound⟩
  | succ count ih =>
      obtain ⟨bound, rfl⟩ := Nat.exists_eq_succ_of_ne_zero (Nat.ne_zero_of_lt hbound)
      rw [indentation, List.replicate_succ, List.cons_append, ← indentation] at hbound ⊢
      obtain ⟨left, flag, hread, hleft⟩ := ih (Nat.lt_of_succ_lt_succ hbound)
      refine ⟨left, flag, ?_, hleft⟩
      rw [quoted_rest_blank rfl, Gap.blank_of_has_break hgap, hread, Mark.next_forward]

theorem single_lines_start (h : ∀ c ∈ text.head?, isBreak c = false) :
    singleLines indent true text = indentation indent ++ singleLines indent false text := by
  cases text with
  | nil => exact indent_lines_start indent rfl
  | cons c text =>
      have hbreak := h c rfl
      unfold singleLines
      rw [List.flatMap_cons, doubledQuote]
      split_ifs with hquote
      · exact indent_lines_start indent rfl
      · rw [List.singleton_append, List.cons_append, indent_lines_start indent hbreak,
          indent_lines_inside indent hbreak]

/-- A line that is not empty is read behind its indentation. -/
theorem single_reads_start (hindent : 0 < indent) (hgap : gap.hasBreak = true)
    (htext : ∀ c ∈ text.head?, isBreak c = false) (h : SingleReads indent rest false text gap) :
    SingleReads indent rest true text gap := by
  intro bound inGap mark read hbound _
  rw [single_lines_start htext, List.append_assoc] at hbound ⊢
  obtain ⟨left, flag, hread, hleft⟩ := quoted_rest_indentation hgap indent hbound
  have hcolumn : (mark.forward indent).column ≠ 0 := by
    rw [Mark.column_forward]
    omega
  obtain ⟨stop, hstop, hline⟩ := h left flag (mark.forward indent) read hleft (fun _ => hcolumn)
  exact ⟨stop, hread.trans hstop, hline⟩

/-- A first line end that does not count as a space is kept. -/
theorem Gap.folded_of_lead {lead : Char} {others : List Char} (h : lead ≠ '\n') :
    Gap.folded { lead := some [lead], others := others } = others ++ [lead] := by
  simp [Gap.folded, h]

/-- The first line end leads a gap, and the blanks before it are lost. -/
theorem Gap.line_end_of_blanks (hprintable : isPrintable c = true) (hbreak : isBreak c = true)
    (blanks : List Char) : Gap.lineEnd { blanks := blanks } c = { lead := some [c] } := by
  simp [Gap.lineEnd, Gap.hasBreak, break_char_of_printable hprintable hbreak]

/-- Further line ends are kept apart from the first one. -/
theorem Gap.line_end_of_lead (hprintable : isPrintable c = true) (hbreak : isBreak c = true)
    (lead : Char) (others : List Char) :
    Gap.lineEnd { lead := some [lead], others := others } c =
      { lead := some [lead], others := c :: others } := by
  simp [Gap.lineEnd, Gap.hasBreak, break_char_of_printable hprintable hbreak]

/-- A text is read back, both from inside a line and from the start of one. The second part needs a
line end in front that does not count as a space. -/
structure SingleReadsBoth (indent : Nat) (rest text : List Char) : Prop where
  inside : ∀ blanks : List Char, (blanks ≠ [] → ∀ c ∈ text.head?, isBreak c = false) →
    SingleReads indent rest false text { blanks := blanks }
  start : ∀ (lead : Char) (others : List Char), lead ≠ '\n' → text.head? ≠ some ' ' →
    SingleReads indent rest true text { lead := some [lead], others := others }

namespace SingleReadsBoth

theorem nil (hindent : 0 < indent) (hrest : rest.head? ≠ some '\'') :
    SingleReadsBoth indent rest [] where
  inside := fun _ _ => single_reads_end hrest
  start := fun _ _ _ _ => single_reads_start hindent rfl (by simp) (single_reads_end hrest)

/-- A line end has no blanks before it, and behind it the text is read from the start of a line. -/
theorem line_end (hprintable : isPrintable c = true) (hbreak : isBreak c = true) (hne : c ≠ '\n')
    (hnext : text.head? ≠ some ' ') (h : SingleReadsBoth indent rest text) :
    SingleReadsBoth indent rest (c :: text) where
  inside := by
    intro blanks hblanks
    have hempty : blanks = [] := by
      by_contra hfilled
      have hword := hblanks hfilled c rfl
      rw [hbreak] at hword
      cases hword
    apply single_reads_break hprintable hbreak
    · rw [Gap.line_end_of_blanks hprintable hbreak, Gap.folded_of_lead hne, hempty]
      rfl
    · rw [Gap.line_end_of_blanks hprintable hbreak]
      exact h.start c [] hne hnext
  start := by
    intro lead others hlead _
    apply single_reads_break hprintable hbreak
    · rw [Gap.line_end_of_lead hprintable hbreak, Gap.folded_of_lead hlead,
        Gap.folded_of_lead hlead]
      rfl
    · rw [Gap.line_end_of_lead hprintable hbreak]
      exact h.start lead (c :: others) hlead hnext

/-- A space is not the last character before a line end, nor the first one behind it. -/
theorem space (hnext : ∀ c ∈ text.head?, isBreak c = false)
    (h : SingleReadsBoth indent rest text) : SingleReadsBoth indent rest (' ' :: text) where
  inside := fun _ _ => single_reads_space (h.inside _ fun _ => hnext)
  start := fun _ _ _ hspace => absurd rfl hspace

theorem word (hindent : 0 < indent) (hblank : isBlank c = false) (hbreak : isBreak c = false)
    (h : SingleReadsBoth indent rest text) : SingleReadsBoth indent rest (c :: text) := by
  have hword (gap : Gap) : SingleReads indent rest false (c :: text) gap :=
    single_reads_word hblank hbreak (h.inside [] (absurd rfl))
  exact ⟨fun _ _ => hword _, fun _ _ _ _ =>
    single_reads_start hindent rfl (by simpa using hbreak) (hword _)⟩

end SingleReadsBoth

/-- Texts without spaces around their line ends are read back. -/
theorem single_reads_written (hindent : 0 < indent) (hrest : rest.head? ≠ some '\'')
    (hprintable : ∀ c ∈ text, isPrintable c = true) (hline : '\n' ∉ text)
    (hspaces : hasPair (· == ' ') isBreak text = false)
    (hbreaks : hasPair isBreak (· == ' ') text = false) : SingleReadsBoth indent rest text := by
  induction text with
  | nil => exact .nil hindent hrest
  | cons c text ih =>
      have htail := ih (fun d hd => hprintable d (List.mem_cons_of_mem _ hd))
        (fun h => hline (List.mem_cons_of_mem _ h)) (has_pair_tail hspaces) (has_pair_tail hbreaks)
      have hc : isPrintable c = true := hprintable c List.mem_cons_self
      cases hbreak : isBreak c with
      | true =>
          have hne : c ≠ '\n' := fun h => hline (h ▸ List.mem_cons_self)
          refine htail.line_end hc hbreak hne ?_
          cases text with
          | nil => exact nofun
          | cons next text => simpa using has_pair_head hbreaks hbreak
      | false =>
          cases hblank : isBlank c with
          | true =>
              obtain rfl := space_of_printable hc hblank
              refine htail.space fun next hnext => ?_
              cases text with
              | nil => cases hnext
              | cons d text =>
                  obtain rfl := Option.some.inj hnext
                  exact has_pair_head hspaces rfl
          | false => exact htail.word hindent hblank hbreak

/-- A text that can stand in single quotes is read back from them, if no usual line end is in it. -/
theorem single_scalar_written (htext : canBeSingle text = true) (hline : '\n' ∉ text)
    (hindent : 0 < indent) (hrest : rest.head? ≠ some '\'') (mark : Mark) :
    ∃ stop, quotedScalar ⟨single indent text ++ rest, mark⟩ =
        some { text := text, after := ⟨rest, stop⟩ } ∧ mark.line ≤ stop.line := by
  simp only [canBeSingle, hasSpaceBeforeBreak, Bool.and_eq_true, Bool.not_eq_true',
    List.all_eq_true] at htext
  have hreads := (single_reads_written hindent hrest htext.1.1 hline htext.1.2 htext.2).inside []
    (absurd rfl)
  rw [single_eq_lines]
  exact hreads _ _ mark.next [] (Nat.lt_succ_self _) (fun _ => Nat.succ_ne_zero _)

end TemplateBundle.Yaml

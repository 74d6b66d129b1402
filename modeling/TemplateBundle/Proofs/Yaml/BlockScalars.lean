import TemplateBundle.Proofs.Yaml.PlainScalars

/-!
# Reading blocks of lines back

A text with line ends that is written as a block is read back from it (`block_scalar_written`): its
lines behind their indentation, the empty lines between them, and the line ends behind the last one,
which the head of the block tells to keep or to drop.
-/

namespace TemplateBundle.Yaml

open Printer

variable {c : Char} {bound indent count widest : Nat} {rest text breaks : List Char} {mark : Mark}

/-! ## Line ends and indentation -/

theorem line_end_written (hprintable : isPrintable c = true) (hbreak : isBreak c = true) :
    lineEnd? ⟨c :: rest, mark⟩ = some (c, ⟨rest, mark.nextLine 1⟩) := by
  have hreturn : c ≠ '\r' := ne_of_printable hprintable (by decide)
  unfold lineEnd?
  split
  · rename_i heq
    exact absurd (List.cons.inj heq).1 hreturn
  · rename_i heq
    obtain ⟨rfl, rfl⟩ := List.cons.inj heq
    rw [if_pos hbreak, break_char_of_printable hprintable hbreak]
  · rename_i heq
    cases heq

theorem line_end_of_not_break (h : ∀ c ∈ rest.head?, isBreak c = false) :
    lineEnd? ⟨rest, mark⟩ = none := by
  unfold lineEnd?
  split
  · rename_i heq
    have hbreak := h '\r' (by rw [show rest = _ from heq]; rfl)
    cases hbreak
  · rename_i d behind _ heq
    have hbreak := h d (by rw [show rest = _ from heq]; rfl)
    rw [hbreak, if_neg (by decide)]
  · rfl

theorem block_gap_space (h : indent = 0 ∨ mark.column < indent) :
    blockGap indent (bound + 1) ⟨' ' :: rest, mark⟩ widest breaks =
      blockGap indent bound ⟨rest, mark.next⟩ widest breaks := by
  rw [blockGap, if_pos ⟨h, rfl⟩]
  rfl

theorem block_gap_break (hprintable : isPrintable c = true) (hbreak : isBreak c = true) :
    blockGap indent (bound + 1) ⟨c :: rest, mark⟩ widest breaks =
      blockGap indent bound ⟨rest, mark.nextLine 1⟩ (max widest mark.column) (c :: breaks) := by
  have hspace : c ≠ ' ' := by
    rintro rfl
    cases hbreak
  have htab : c ≠ '\t' := ne_of_printable hprintable (by decide)
  rw [blockGap, if_neg (fun h => hspace (Option.some.inj h.2)),
    if_neg (fun h => htab (Option.some.inj h.2)), line_end_written hprintable hbreak]

/-- Indentation ends at a character that is no line end: it is no blank, or it stands where the lines
of the block start. -/
theorem block_gap_stop (hbreak : ∀ c ∈ rest.head?, isBreak c = false)
    (h : (∀ c ∈ rest.head?, isBlank c = false) ∨ indent ≠ 0 ∧ mark.column = indent) :
    blockGap indent (bound + 1) ⟨rest, mark⟩ widest breaks =
      some (⟨rest, mark⟩, max widest mark.column, breaks) := by
  have hstops : ∀ c, isBlank c = true →
      ¬ ((indent = 0 ∨ mark.column < indent) ∧ rest.head? = some c) := by
    rintro c hc ⟨hinside, hhead⟩
    rcases h with hword | hcolumn
    · have hblank := hword c hhead
      rw [hc] at hblank
      cases hblank
    · omega
  rw [blockGap, if_neg (hstops ' ' rfl), if_neg (hstops '\t' rfl), line_end_of_not_break hbreak]

/-- Indentation is passed over as far as it belongs to the block. -/
theorem block_gap_indentation (hbreak : ∀ c ∈ rest.head?, isBreak c = false)
    (hinside : indent = 0 ∨ mark.column + count ≤ indent)
    (h : (∀ c ∈ rest.head?, isBlank c = false) ∨ indent ≠ 0 ∧ mark.column + count = indent)
    (hbound : (indentation count ++ rest).length < bound) :
    blockGap indent bound ⟨indentation count ++ rest, mark⟩ widest breaks =
      some (⟨rest, mark.forward count⟩, max widest (mark.column + count), breaks) := by
  induction count generalizing bound mark with
  | zero =>
      obtain ⟨bound, rfl⟩ := Nat.exists_eq_succ_of_ne_zero (Nat.ne_zero_of_lt hbound)
      exact block_gap_stop hbreak h
  | succ count ih =>
      obtain ⟨bound, rfl⟩ := Nat.exists_eq_succ_of_ne_zero (Nat.ne_zero_of_lt hbound)
      rw [indentation, List.replicate_succ, List.cons_append, ← indentation] at hbound ⊢
      have hcolumn : mark.next.column + count = mark.column + (count + 1) := by
        rw [Mark.column_next]
        omega
      rw [block_gap_space (by omega), ih (by rwa [hcolumn]) (by rwa [hcolumn])
        (Nat.lt_of_succ_lt_succ hbound), Mark.next_forward, hcolumn]

/-- Empty lines are passed over, and then the indentation of a line. -/
theorem block_gap_lines (gap : List Char) (widest : Nat) (breaks : List Char)
    (hgap : ∀ c ∈ gap, isPrintable c = true ∧ isBreak c = true)
    (hbreak : ∀ c ∈ rest.head?, isBreak c = false) (hinside : indent = 0 ∨ count ≤ indent)
    (h : (∀ c ∈ rest.head?, isBlank c = false) ∨ indent ≠ 0 ∧ count = indent)
    (hmark : mark.column = 0)
    (hbound : (gap ++ (indentation count ++ rest)).length < bound) :
    ∃ stop, blockGap indent bound ⟨gap ++ (indentation count ++ rest), mark⟩ widest breaks =
        some (⟨rest, stop⟩, max widest count, gap.reverse ++ breaks) ∧
      stop.column = count := by
  induction gap generalizing bound mark widest breaks with
  | nil =>
      refine ⟨mark.forward count, ?_, ?_⟩
      · rw [List.nil_append] at hbound ⊢
        rw [block_gap_indentation hbreak (by rwa [hmark, Nat.zero_add])
          (by rwa [hmark, Nat.zero_add]) hbound, hmark, Nat.zero_add]
        rfl
      · rw [Mark.column_forward, hmark, Nat.zero_add]
  | cons c gap ih =>
      obtain ⟨bound, rfl⟩ := Nat.exists_eq_succ_of_ne_zero (Nat.ne_zero_of_lt hbound)
      obtain ⟨hc, hline⟩ := hgap c List.mem_cons_self
      rw [List.cons_append] at hbound ⊢
      have hnext : (mark.nextLine 1).column = 0 := rfl
      obtain ⟨stop, hread, hcolumn⟩ := ih (max widest mark.column) (c :: breaks)
        (fun d hd => hgap d (List.mem_cons_of_mem _ hd)) hnext (Nat.lt_of_succ_lt_succ hbound)
      refine ⟨stop, ?_, hcolumn⟩
      rw [block_gap_break hc hline, hread, hmark, Nat.max_zero, List.reverse_cons,
        List.append_assoc, List.singleton_append]

/-! ## Lines -/

/-- A text of lines: none of them is empty, and each one is followed by its end and by empty ones. -/
inductive Lines : List Char → Prop where
  | nil : Lines []
  | cons {line gap rest : List Char} {lineEnd : Char} (hne : line ≠ [])
      (hline : ∀ c ∈ line, isBreak c = false) (hend : isBreak lineEnd = true)
      (hgap : ∀ c ∈ gap, isBreak c = true) (hrest : ∀ c ∈ rest.head?, isBreak c = false)
      (h : Lines rest) : Lines (line ++ lineEnd :: (gap ++ rest))

/-- A text that ends with a line end consists of empty lines and of lines behind them. -/
theorem lines_of_last (text : List Char) (hlast : ∀ c ∈ text.getLast?, isBreak c = true) :
    ∃ gap rest, text = gap ++ rest ∧ (∀ c ∈ gap, isBreak c = true) ∧
      (∀ c ∈ rest.head?, isBreak c = false) ∧ Lines rest := by
  induction text with
  | nil => exact ⟨[], [], rfl, by simp, by simp, .nil⟩
  | cons c text ih =>
      have htail : ∀ d ∈ text.getLast?, isBreak d = true := by
        cases text with
        | nil => exact fun d hd => absurd hd (by simp)
        | cons e text => rwa [List.getLast?_cons_cons] at hlast
      obtain ⟨gap, rest, rfl, hgap, hrest, hlines⟩ := ih htail
      cases hc : isBreak c with
      | true =>
          refine ⟨c :: gap, rest, rfl, fun d hd => ?_, hrest, hlines⟩
          rcases List.mem_cons.mp hd with rfl | hd
          · exact hc
          · exact hgap d hd
      | false =>
          refine ⟨[], c :: (gap ++ rest), rfl, by simp, by simpa using hc, ?_⟩
          have hsingle : ∀ d ∈ [c], isBreak d = false := by simpa using hc
          cases gap with
          | cons lineEnd gap =>
              exact .cons (List.cons_ne_nil c []) hsingle (hgap lineEnd List.mem_cons_self)
                (fun d hd => hgap d (List.mem_cons_of_mem _ hd)) hrest hlines
          | nil =>
              cases hlines with
              | nil =>
                  have hbreak := hlast c rfl
                  rw [hc] at hbreak
                  cases hbreak
              | cons hne hline hend hempty hnext h =>
                  refine .cons (List.cons_ne_nil c _) (fun d hd => ?_) hend hempty hnext h
                  rcases List.mem_cons.mp hd with rfl | hd
                  · exact hc
                  · exact hline d hd

/-- The first line of a text is not indented if it does not start there. -/
theorem indent_lines_line {line : List Char} (hline : ∀ c ∈ line, isBreak c = false) :
    indentLines indent false (line ++ text) = line ++ indentLines indent false text := by
  induction line with
  | nil => rfl
  | cons c line ih =>
      rw [List.cons_append, indent_lines_inside indent (hline c List.mem_cons_self),
        ih (fun d hd => hline d (List.mem_cons_of_mem _ hd)), List.cons_append]

/-- A line that does not start with a line end still does not when it is written. -/
theorem head_of_indent_lines {c : Char} (hc : isBreak c = false) (tail : List Char) :
    ∀ d ∈ (indentLines indent false (c :: text) ++ tail).head?, isBreak d = false := by
  rw [indent_lines_inside indent hc]
  simpa using hc

/-- Empty lines have no indentation. -/
theorem indent_lines_breaks {gap : List Char} (hgap : ∀ c ∈ gap, isBreak c = true) :
    indentLines indent true (gap ++ text) = gap ++ indentLines indent true text := by
  induction gap with
  | nil => rfl
  | cons c gap ih =>
      rw [List.cons_append, indent_lines_break indent true (hgap c List.mem_cons_self),
        ih (fun d hd => hgap d (List.mem_cons_of_mem _ hd)), List.cons_append]

/-- A line and the empty ones behind it are read. -/
theorem block_lines_line (bound : Nat) (afterBlank : Bool) (before lead breaks : List Char)
    {line gap : List Char} {lineEnd : Char} (hne : line ≠ []) (hline : ∀ c ∈ line, isBreak c = false)
    (hend : isPrintable lineEnd = true ∧ isBreak lineEnd = true)
    (hgap : ∀ c ∈ gap, isPrintable c = true ∧ isBreak c = true)
    (hbreak : ∀ c ∈ rest.head?, isBreak c = false) (hinside : count ≤ indent)
    (h : (∀ c ∈ rest.head?, isBlank c = false) ∨ indent ≠ 0 ∧ count = indent)
    (hmark : mark.column = indent) :
    ∃ stop flag, blockLines true indent (bound + 1)
          ⟨line ++ lineEnd :: (gap ++ (indentation count ++ rest)), mark⟩ afterBlank before lead
            breaks =
        blockLines true indent bound ⟨rest, stop⟩ flag (line.reverse ++ (breaks ++ lead ++ before))
          [lineEnd] gap.reverse ∧
      stop.column = count := by
  have htake : (line ++ lineEnd :: (gap ++ (indentation count ++ rest))).takeWhile
      (fun c => !isBreak c) = line := by
    rw [List.takeWhile_append_of_pos (fun c hc => by simp [hline c hc]), List.takeWhile_cons,
      hend.2]
    simp
  have hcolumn : ((mark.forward line.length).nextLine 1).column = 0 := rfl
  obtain ⟨stop, hread, hstop⟩ := block_gap_lines gap 0 [] hgap hbreak (.inr hinside) h
    hcolumn (Nat.lt_succ_self _)
  refine ⟨stop, (line ++ lineEnd :: (gap ++ (indentation count ++ rest))).head?.any isBlank, ?_,
    hstop⟩
  rw [blockLines, if_neg (by simp [hmark, hne])]
  simp only [htake, Place.forward, List.drop_left, line_end_written hend.1 hend.2, hread,
    Bool.not_true, Bool.false_and, Bool.false_eq_true, if_false, List.append_nil]

/-- Behind the lines of a block the next token stands further to the left. -/
theorem block_lines_end {lead before : List Char} {afterBlank : Bool}
    (hmark : mark.column ≠ indent) :
    blockLines true indent (bound + 1) ⟨rest, mark⟩ afterBlank before lead breaks =
      some (⟨rest, mark⟩, before, lead, breaks) := by
  rw [blockLines, if_pos (.inl hmark)]

/-- Lines are read to their end. What is read of them is all that stands there: the lines up to the
end of the last one, that end, and the empty lines behind it. -/
theorem block_lines_written {column : Nat} {tail : List Char} (hlines : Lines text)
    (hne : text ≠ []) (hprintable : ∀ c ∈ text, isPrintable c = true) (hcolumn : column < indent)
    (htail : StartsToken tail) (lead before : List Char) (afterBlank : Bool)
    (hmark : mark.column = indent)
    (hbound : (indentLines indent false text ++ (indentation column ++ tail)).length < bound) :
    ∃ stop body lineEnd gap, blockLines true indent bound
          ⟨indentLines indent false text ++ (indentation column ++ tail), mark⟩ afterBlank before
            lead breaks =
        some (⟨tail, stop⟩, body, [lineEnd], gap) ∧
      stop.column = column ∧
      gap ++ lineEnd :: body = text.reverse ++ (breaks ++ lead ++ before) ∧
      (∀ c ∈ gap, isBreak c = true) ∧ isBreak lineEnd = true := by
  induction hlines generalizing bound mark lead before afterBlank breaks with
  | nil => exact absurd rfl hne
  | @cons line gap rest lineEnd hfilled hline hend hgap hrest h ih =>
      obtain ⟨bound, rfl⟩ := Nat.exists_eq_succ_of_ne_zero (Nat.ne_zero_of_lt hbound)
      have hpositive : indent ≠ 0 := by omega
      have hbehind : ∀ c ∈ lineEnd :: (gap ++ rest), isPrintable c = true :=
        fun c hc => hprintable c (List.mem_append_right _ hc)
      have hends : isPrintable lineEnd = true ∧ isBreak lineEnd = true :=
        ⟨hbehind lineEnd List.mem_cons_self, hend⟩
      have hgaps : ∀ c ∈ gap, isPrintable c = true ∧ isBreak c = true := fun c hc =>
        ⟨hbehind c (List.mem_cons_of_mem _ (List.mem_append_left _ hc)), hgap c hc⟩
      rw [indent_lines_line hline, indent_lines_break indent false hend,
        indent_lines_breaks hgap] at hbound ⊢
      simp only [List.append_assoc, List.cons_append] at hbound ⊢
      have hlength : 0 < line.length := List.length_pos_iff.mpr hfilled
      cases rest with
      | nil =>
          -- this is the last line: behind it the next token stands further to the left
          obtain ⟨stop, flag, hread, hstop⟩ := block_lines_line bound afterBlank before lead
            breaks hfilled hline hends hgaps (fun c hc => (htail c hc).2.1) hcolumn.le
            (.inl fun c hc => (htail c hc).1) hmark
          obtain ⟨bound, rfl⟩ : ∃ left, bound = left + 1 := by
            refine Nat.exists_eq_succ_of_ne_zero fun hzero => ?_
            rw [hzero, List.length_append, List.length_cons] at hbound
            omega
          refine ⟨stop, _, lineEnd, gap.reverse, hread.trans (block_lines_end (by omega)), hstop,
            ?_, by simpa using hgap, hend⟩
          simp
      | cons c rest =>
          have hc : isBreak c = false := hrest c rfl
          rw [indent_lines_start indent hc, ← indent_lines_inside indent hc,
            List.append_assoc] at hbound ⊢
          obtain ⟨middle, flag, hread, hmiddle⟩ := block_lines_line bound afterBlank before
            lead breaks hfilled hline hends hgaps (head_of_indent_lines hc _) (Nat.le_refl _)
            (.inr ⟨hpositive, rfl⟩) hmark
          have hshort : (indentLines indent false (c :: rest) ++
              (indentation column ++ tail)).length < bound := by
            simp only [List.length_append, List.length_cons] at hbound ⊢
            omega
          obtain ⟨stop, body, last, behind, hrun, hstop, hwhole, hrests⟩ :=
            ih (List.cons_ne_nil c rest) (fun d hd => hbehind d
              (List.mem_cons_of_mem _ (List.mem_append_right _ hd))) [lineEnd]
              (line.reverse ++ (breaks ++ lead ++ before)) flag hmiddle hshort
          refine ⟨stop, body, last, behind, hread.trans hrun, hstop, ?_, hrests⟩
          rw [hwhole]
          simp

/-! ## The head of a block -/

/-- The first line of a block shows by how much it is indented. -/
def showsIndent (text : List Char) : Bool :=
  !(text.head?.any fun c => c == ' ' || isBreak c)

/-- What happens to the line ends behind a block that is written for a text. -/
def writtenChomping (text : List Char) : Chomping :=
  match text.reverse with
  | [] => .strip
  | last :: before =>
      if !isBreak last then .strip
      else if before.head?.all isBreak then .keep
      else .clip

/-- The signs at the head of a block, behind the first one. -/
def headSigns (shows : Bool) (chomping : Chomping) : List Char :=
  (if shows then [] else ['2']) ++
    match chomping with
    | .strip => ['-']
    | .keep => ['+']
    | .clip => []

theorem block_signs_eq (text : List Char) :
    blockSigns text = '|' :: headSigns (showsIndent text) (writtenChomping text) := by
  unfold blockSigns writtenChomping headSigns showsIndent
  cases text.reverse with
  | nil => rfl
  | cons last before =>
      dsimp only
      split_ifs <;> rfl

/-- The signs at the head of a block are read back. -/
theorem block_head_written (shows : Bool) (chomping : Chomping) (rest : List Char) :
    blockHead? (headSigns shows chomping ++ '\n' :: rest) =
      some ({ chomping := chomping, increment := if shows then none else some 2 },
        (headSigns shows chomping).length) := by
  cases shows <;> cases chomping <;> cases rest <;> rfl

theorem end_of_line_written (rest : List Char) (mark : Mark) :
    endOfLine? ⟨'\n' :: rest, mark⟩ = some ⟨rest, mark.nextLine 1⟩ := rfl

/-! ## Line ends behind a block -/

/-- The lines of a text as a block: they end with a line end. -/
def wholeLines (text : List Char) : List Char :=
  text ++ if text.getLast?.any isBreak then [] else ['\n']

/-- What is kept of a block. The parts come with their last character first. -/
def chomped (chomping : Chomping) (body lead breaks : List Char) : List Char :=
  match chomping with
  | .strip => body
  | .clip => lead ++ body
  | .keep => breaks ++ (lead ++ body)

/-- Only one line end stands before a character that is none. -/
theorem breaks_eq_nil {body others : List Char} {last next lineEnd : Char}
    (hbreaks : ∀ c ∈ breaks, isBreak c = true) (hend : isBreak lineEnd = true)
    (hnext : isBreak next = false) (h : breaks ++ lineEnd :: body = last :: next :: others) :
    breaks = [] := by
  have hne : ∀ c, isBreak c = true → c ≠ next := by
    rintro c hc rfl
    rw [hc] at hnext
    cases hnext
  match breaks with
  | [] => rfl
  | [first] => exact absurd (List.cons.inj (List.cons.inj h).2).1 (hne lineEnd hend)
  | first :: second :: _ =>
      have hsecond := hbreaks second (List.mem_cons_of_mem _ List.mem_cons_self)
      exact absurd (List.cons.inj (List.cons.inj h).2).1 (hne second hsecond)

/-- Lines are read into what stands before the end of the last one, that end, and the empty lines
behind it. The parts come with their last character first. -/
structure Parts (lines body lead breaks : List Char) : Prop where
  whole : breaks ++ (lead ++ body) = lines.reverse
  breaks : ∀ c ∈ breaks, isBreak c = true
  lead : lead = [] ∧ body = [] ∨ ∃ lineEnd, lead = [lineEnd] ∧ isBreak lineEnd = true

/-- What is kept of the lines of a text is the text. -/
theorem chomped_written {body lead : List Char} (hne : text ≠ [])
    (hparts : Parts (wholeLines text) body lead breaks) :
    chomped (writtenChomping text) body lead breaks = text.reverse := by
  obtain ⟨hwhole, hbreaks, hlead⟩ := hparts
  have hmiddle : ∀ c ∈ breaks, ∀ d, isBreak d = false → c ≠ d := by
    rintro c hc _ hd rfl
    rw [hbreaks c hc] at hd
    cases hd
  cases hreverse : text.reverse with
  | nil => exact absurd (List.reverse_eq_nil_iff.mp hreverse) hne
  | cons last before =>
      have hlast : text.getLast? = some last := by
        rw [← List.head?_reverse, hreverse]
        rfl
      rw [wholeLines, hlast, List.reverse_append, hreverse] at hwhole
      simp only [writtenChomping, hreverse]
      cases hline : isBreak last with
      | false =>
          simp only [Option.any_some, hline, Bool.false_eq_true, if_false, List.reverse_singleton,
            List.singleton_append, Bool.not_false, if_true, chomped] at hwhole ⊢
          rcases hlead with ⟨rfl, rfl⟩ | ⟨lineEnd, rfl, hend⟩
          · rw [List.nil_append, List.append_nil] at hwhole
            exact absurd rfl (hmiddle last (by rw [hwhole]; simp) last hline)
          · rw [breaks_eq_nil hbreaks hend hline hwhole] at hwhole
            exact (List.cons.inj hwhole).2
      | true =>
          simp only [Option.any_some, hline, if_true, List.reverse_nil, List.nil_append,
            Bool.not_true, Bool.false_eq_true, if_false] at hwhole ⊢
          split_ifs with hkeep
          · exact hwhole
          · obtain ⟨next, others, rfl, hnext⟩ : ∃ next others, before = next :: others ∧
                isBreak next = false := by
              cases before with
              | nil => exact absurd rfl hkeep
              | cons next others => exact ⟨next, others, rfl, by simpa using hkeep⟩
            rcases hlead with ⟨rfl, rfl⟩ | ⟨lineEnd, rfl, hend⟩
            · rw [List.nil_append, List.append_nil] at hwhole
              exact absurd rfl (hmiddle next (by rw [hwhole]; simp) next hnext)
            · rw [breaks_eq_nil hbreaks hend hnext hwhole] at hwhole
              exact hwhole

/-! ## Whole blocks -/

theorem whole_lines_last (text : List Char) : ∀ c ∈ (wholeLines text).getLast?, isBreak c = true := by
  intro c hc
  unfold wholeLines at hc
  split_ifs at hc with hlast
  · rw [List.append_nil] at hc
    rw [Option.mem_def.mp hc] at hlast
    exact hlast
  · rw [List.getLast?_concat] at hc
    obtain rfl := Option.some.inj hc
    rfl

theorem whole_lines_printable (h : ∀ c ∈ text, isPrintable c = true) :
    ∀ c ∈ wholeLines text, isPrintable c = true := by
  intro c hc
  rcases List.mem_append.mp hc with hc | hc
  · exact h c hc
  · split_ifs at hc
    · cases hc
    · rw [List.mem_singleton.mp hc]
      rfl

/-- The first character of a text that shows its indentation. -/
theorem head_of_shows_indent (hshows : showsIndent text = true) (hne : text ≠ []) {first : Char}
    {others : List Char} (h : wholeLines text = first :: others) :
    isBreak first = false ∧ first ≠ ' ' := by
  cases text with
  | nil => exact absurd rfl hne
  | cons c text =>
      rw [wholeLines, List.cons_append] at h
      obtain rfl := (List.cons.inj h).1
      simp only [showsIndent, List.head?_cons, Option.any_some, Bool.not_eq_true',
        Bool.or_eq_false_iff, beq_eq_false_iff_ne] at hshows
      exact ⟨hshows.2, hshows.1⟩

/-- No empty line stands in front of a text that shows its indentation. -/
theorem gap_eq_nil_of_shows_indent (hshows : showsIndent text = true) (hne : text ≠ [])
    {gap rest : List Char} (hgap : ∀ c ∈ gap, isBreak c = true)
    (hsplit : wholeLines text = gap ++ rest) : gap = [] := by
  cases gap with
  | nil => rfl
  | cons first gap =>
      have hfirst := (head_of_shows_indent hshows hne hsplit).1
      rw [hgap first List.mem_cons_self] at hfirst
      cases hfirst

variable {column : Nat} {tail : List Char}

/-- The lines of a block are read with their indentation up to the next token, whether the head of
the block gives the indentation or not. -/
def BlockRead (indent given bound column : Nat) (start : Place) (tail lines : List Char) : Prop :=
  ∃ first widest skipped stop body lead breaks,
    blockGap given bound start 0 [] = some (first, widest, skipped) ∧
    (given = 0 → widest = indent) ∧
    blockLines true indent (first.rest.length + 1) first false [] [] skipped =
      some (⟨tail, stop⟩, body, lead, breaks) ∧
    stop.column = column ∧ Parts lines body lead breaks

/-- Empty lines show no indentation, which the head of the block has to give. -/
theorem empty_block_read {gap : List Char}
    (hgap : ∀ c ∈ gap, isPrintable c = true ∧ isBreak c = true) (hcolumn : column < indent)
    (htail : StartsToken tail) (hmark : mark.column = 0)
    (hbound : (gap ++ (indentation column ++ tail)).length < bound) :
    BlockRead indent indent bound column ⟨gap ++ (indentation column ++ tail), mark⟩ tail gap := by
  obtain ⟨stop, hread, hstop⟩ := block_gap_lines gap 0 [] hgap (fun c hc => (htail c hc).2.1)
    (.inr hcolumn.le) (.inl fun c hc => (htail c hc).1) hmark hbound
  have hparts : Parts gap [] [] (gap.reverse ++ []) :=
    ⟨by simp, fun c hc => (hgap c (by simpa using hc)).2, .inl ⟨rfl, rfl⟩⟩
  exact ⟨_, _, _, stop, [], [], _, hread, fun hzero => absurd hzero (Nat.ne_zero_of_lt hcolumn),
    block_lines_end (hstop ▸ hcolumn.ne), hstop, hparts⟩

/-- A line behind empty ones shows the indentation if it does not start with a blank. -/
theorem filled_block_read {gap : List Char}
    (hgap : ∀ c ∈ gap, isPrintable c = true ∧ isBreak c = true)
    (hprintable : ∀ d ∈ c :: rest, isPrintable d = true) (hlines : Lines (c :: rest))
    (hc : isBreak c = false) (hcolumn : column < indent) (htail : StartsToken tail) {given : Nat}
    (hgiven : given = indent ∨ given = 0 ∧ c ≠ ' ') (hmark : mark.column = 0)
    (hbound : (gap ++ (indentLines indent true (c :: rest) ++
      (indentation column ++ tail))).length < bound) :
    BlockRead indent given bound column
      ⟨gap ++ (indentLines indent true (c :: rest) ++ (indentation column ++ tail)), mark⟩ tail
      (gap ++ c :: rest) := by
  have hinside : given = 0 ∨ indent ≤ given := by
    rcases hgiven with h | h
    · exact .inr h.ge
    · exact .inl h.1
  have hword : (∀ d ∈ (indentLines indent false (c :: rest) ++
      (indentation column ++ tail)).head?, isBlank d = false) ∨ given ≠ 0 ∧ indent = given := by
    rcases hgiven with h | ⟨-, hspace⟩
    · exact .inr ⟨by omega, h.symm⟩
    · left
      rw [indent_lines_inside indent hc]
      intro d hd
      obtain rfl := Option.some.inj hd
      apply Bool.eq_false_iff.mpr
      exact fun hblank =>
        hspace (space_of_printable (hprintable c List.mem_cons_self) hblank)
  rw [indent_lines_start indent hc, ← indent_lines_inside indent hc, List.append_assoc] at hbound ⊢
  obtain ⟨first, hread, hfirst⟩ := block_gap_lines gap 0 [] hgap (head_of_indent_lines hc _) hinside
    hword hmark hbound
  obtain ⟨stop, body, lineEnd, breaks, hrun, hstop, hall, hbreaks, hend⟩ :=
    block_lines_written hlines (List.cons_ne_nil c rest) hprintable hcolumn htail [] [] false hfirst
      (Nat.lt_succ_self _)
  refine ⟨_, _, _, stop, body, [lineEnd], breaks, hread, fun _ => Nat.zero_max _, hrun, hstop, ?_⟩
  refine ⟨?_, hbreaks, .inr ⟨lineEnd, rfl, hend⟩⟩
  rw [List.singleton_append, hall]
  simp

/-- The lines of a block are read with the indentation that its head gives, or with the one that its
first line shows. -/
theorem block_text_read (hprintable : ∀ c ∈ text, isPrintable c = true)
    (hcolumn : column < indent) (htail : StartsToken tail) {given : Nat}
    (hgiven : given = indent ∨ given = 0 ∧ showsIndent text = true ∧ text ≠ [])
    (hmark : mark.column = 0)
    (hbound : (indentLines indent true (wholeLines text) ++
      (indentation column ++ tail)).length < bound) :
    BlockRead indent given bound column
      ⟨indentLines indent true (wholeLines text) ++ (indentation column ++ tail), mark⟩ tail
      (wholeLines text) := by
  have hwhole := whole_lines_printable hprintable
  obtain ⟨gap, rest, hsplit, hgap, hrest, hlines⟩ :=
    lines_of_last (wholeLines text) (whole_lines_last text)
  rw [hsplit] at hwhole hbound ⊢
  have hgaps : ∀ c ∈ gap, isPrintable c = true ∧ isBreak c = true := fun c hc =>
    ⟨hwhole c (List.mem_append_left _ hc), hgap c hc⟩
  rw [indent_lines_breaks hgap, List.append_assoc] at hbound ⊢
  cases rest with
  | nil =>
      have hindent : given = indent := by
        rcases hgiven with h | ⟨-, hshows, hne⟩
        · exact h
        · rw [gap_eq_nil_of_shows_indent hshows hne hgap hsplit] at hsplit
          exact absurd (List.append_eq_nil_iff.mp hsplit).1 hne
      subst hindent
      rw [List.append_nil]
      exact empty_block_read hgaps hcolumn htail hmark hbound
  | cons c rest =>
      have hspace : given = indent ∨ given = 0 ∧ c ≠ ' ' := by
        refine hgiven.imp_right fun ⟨hzero, hshows, hne⟩ => ⟨hzero, ?_⟩
        rw [gap_eq_nil_of_shows_indent hshows hne hgap hsplit] at hsplit
        exact (head_of_shows_indent hshows hne hsplit).2
      exact filled_block_read hgaps (fun d hd => hwhole d (List.mem_append_right _ hd)) hlines
        (hrest c rfl) hcolumn htail hspace hmark hbound

/-- The lines of a text, and a line end if the last one has none. -/
theorem indent_lines_whole (indent : Nat) (text : List Char) :
    indentLines indent true (wholeLines text) =
      indentLines indent true text ++ if text.getLast?.any isBreak then [] else ['\n'] := by
  unfold wholeLines
  split_ifs
  · rw [List.append_nil, List.append_nil]
  · rw [indent_lines_append, indent_lines_break indent _ rfl]
    rfl

/-- A text that can be a block is read back from it. -/
theorem block_scalar_written (htext : canBeLiteral text = true) (hne : text ≠ [])
    (hcolumn : column < indent + 2) (htail : StartsToken tail) (mark : Mark) :
    ∃ stop, blockScalar true indent
          ⟨blockSigns text ++ '\n' :: (indentLines (indent + 2) true (wholeLines text) ++
            (indentation column ++ tail)), mark⟩ =
        some { text := text, after := ⟨tail, stop⟩ } ∧ stop.column = column := by
  have hprintable : ∀ c ∈ text, isPrintable c = true := by
    simp only [canBeLiteral, Bool.and_eq_true, List.all_eq_true] at htext
    exact htext.1.1
  have hgiven : (if showsIndent text then 0 else indent + 2) = indent + 2 ∨
      (if showsIndent text then 0 else indent + 2) = 0 ∧ showsIndent text = true ∧ text ≠ [] := by
    split_ifs with hshows
    · exact .inr ⟨rfl, hshows, hne⟩
    · exact .inl rfl
  have hmark : (((mark.forward 1).forward
      (headSigns (showsIndent text) (writtenChomping text)).length).nextLine 1).column = 0 := rfl
  obtain ⟨first, widest, skipped, stop, body, lead, breaks, hgap, hwidest, hlines, hstop, hparts⟩ :=
    block_text_read hprintable hcolumn htail hgiven hmark (Nat.lt_succ_self _)
  have hkept := chomped_written hne hparts
  refine ⟨stop, ?_, hstop⟩
  rw [block_signs_eq]
  unfold blockScalar
  simp only [Place.forward, List.cons_append, List.drop_succ_cons, List.drop_zero,
    block_head_written, Option.bind_eq_bind, Option.bind_some, List.drop_left, end_of_line_written]
  have hresult : some (ScalarText.mk (chomped (writtenChomping text) body lead breaks).reverse
      ⟨tail, stop⟩ false) = some (ScalarText.mk text ⟨tail, stop⟩ false) := by
    rw [hkept, List.reverse_reverse]
  cases hshows : showsIndent text with
  | true =>
      rw [hshows] at hgap hwidest
      have hwide : widest = indent + 2 := hwidest rfl
      have hindent : max widest (max ((indent : Int) + 1).toNat 1) = indent + 2 := by omega
      simp only [if_true] at hgap ⊢
      rw [hgap]
      simp only [Option.bind_some, hindent, hlines]
      exact hresult
  | false =>
      rw [hshows] at hgap
      have hindent : (if 0 ≤ (indent : Int) then (indent : Int).toNat else 0) + 2 = indent + 2 := by
        simp
      simp only [Bool.false_eq_true, if_false, hindent] at hgap ⊢
      rw [hgap]
      simp only [Option.bind_some, Nat.succ_ne_zero, if_false, hlines]
      exact hresult

end TemplateBundle.Yaml

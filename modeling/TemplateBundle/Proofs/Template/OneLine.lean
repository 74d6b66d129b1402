import TemplateBundle.Proofs.Template.Direct
import TemplateBundle.Proofs.Template.Lines

/-!
# Functions on one line

The statements for a layout are whole lines whose breaks can be left out (`is_lines_write`), if the
code of the layout fits into a line: no line ends in it, and no comment in it reaches behind it.
-/

namespace TemplateBundle.Template

open Script

variable {ticks : Prop} {text code front back rest left right part other : List Char}

/-! ## Texts without line breaks -/

/-- The text without its line breaks. -/
def withoutBreaks (text : List Char) : List Char :=
  text.filter (· ≠ '\n')

@[simp]
theorem without_breaks_append (text rest : List Char) :
    withoutBreaks (text ++ rest) = withoutBreaks text ++ withoutBreaks rest :=
  List.filter_append _ _

@[simp]
theorem without_breaks_nil : withoutBreaks [] = [] :=
  rfl

@[simp]
theorem without_breaks_break (text : List Char) : withoutBreaks ('\n' :: text) = withoutBreaks text :=
  rfl

theorem without_breaks_cons {c : Char} (hc : c ≠ '\n') (text : List Char) :
    withoutBreaks (c :: text) = c :: withoutBreaks text :=
  List.filter_cons_of_pos (decide_eq_true hc)

theorem without_breaks_of_inline (h : ∀ c ∈ text, isLineEnd c = false) :
    withoutBreaks text = text := by
  refine List.filter_eq_self.mpr fun c hc => decide_eq_true ?_
  rintro rfl
  exact absurd (h _ hc) (by decide)

theorem extent_without_breaks (text : List Char) : extent (withoutBreaks text) = extent text := by
  unfold extent withoutBreaks
  rw [List.countP_filter]
  simp

/-! ## Code in a line -/

/-- The code can stand in a line: no line ends in it, comments that start in it end in it, and it has
template marks only if `ticks`. -/
structure FitsLine (ticks : Prop) (code : List Char) : Prop where
  inline : ∀ c ∈ code, isLineEnd c = false
  tame : IsTame code
  tick : '\x60' ∈ code → ticks

/-- A line of code with signs around it. -/
theorem FitsLine.is_front (h : FitsLine ticks code) (hfront : front.all isQuietChar = true)
    (hback : back.all isQuietChar = true) (hne : back ≠ []) (hends : EndsLine (front ++ (code ++ back))) :
    Front ticks (front ++ (code ++ back)) := by
  have hinline {part : List Char} (hpart : part.all isQuietChar = true) (c : Char) (hc : c ∈ part) :
      isLineEnd c = false ∧ c ≠ '\x60' := by
    have hchar := of_quiet_char (List.all_eq_true.mp hpart c hc)
    exact ⟨hchar.1, hchar.2.1⟩
  refine .code ⟨by simp [hne], hends, fun c hc => ?_⟩ (tame_within h.tame hfront hback) fun htick => ?_
  · rcases List.mem_append.mp hc with hc | hc
    · exact (hinline hfront c hc).1
    · rcases List.mem_append.mp hc with hc | hc
      · exact h.inline c hc
      · exact (hinline hback c hc).1
  · rcases List.mem_append.mp htick with hc | hc
    · exact absurd rfl (hinline hfront _ hc).2
    · rcases List.mem_append.mp hc with hc | hc
      · exact h.tick hc
      · exact absurd rfl (hinline hback _ hc).2

theorem fits_line_nil : FitsLine ticks [] :=
  ⟨nofun, tame_of_not_mem nofun nofun, nofun⟩

/-! ## Whole lines -/

/-- What follows goes on in the same way without its line breaks, and starts with no sign that could
close a markup comment. -/
structure Breaks (ticks : Prop) (left right : List Char) : Prop where
  broken : Broken ticks left right
  no_markup : ∀ line newline place flag,
    skipGap .blank left line newline = .ok (place, flag) → ¬ "-->".toList <+: place.rest

namespace Breaks

theorem starts_markup (h : Breaks ticks left right) : startsMarkup left = false := by
  unfold startsMarkup
  split
  · rename_i place flag hskip
    exact Bool.eq_false_iff.mpr fun hprefix =>
      h.no_markup _ _ _ _ hskip (List.isPrefixOf_iff_prefix.mp hprefix)
  · rfl

/-- Nothing stands in front of the token with which the text starts. -/
theorem of_token {c : Char} (hc : startsToken c = true) (h : Broken ticks (c :: left) right) :
    Breaks ticks (c :: left) right where
  broken := h
  no_markup := by
    intro line newline place flag hskip hprefix
    rw [skip_gap_token hc] at hskip
    cases hskip
    obtain rfl : '-' = c := (List.cons_prefix_cons.mp hprefix).1
    exact absurd hc (by decide)

/-- An empty line. -/
theorem blank (h : Breaks ticks left right) : Breaks ticks ('\n' :: left) right where
  broken := .line (.inl rfl) (by rintro (hlast | hlast) <;> cases hlast) h.starts_markup h.broken
  no_markup := fun line newline place flag hskip => h.no_markup (line + 1) true place flag hskip

/-- A line with a token in it. -/
theorem line (hfront : Front ticks text) (hmarkup : startsMarkup text = false)
    (hlink : Links text right) (h : Breaks ticks left right) :
    Breaks ticks (text ++ '\n' :: left) (text ++ right) where
  broken := .line (.inr hfront) hlink h.starts_markup h.broken
  no_markup := by
    intro line newline place flag hskip hprefix
    obtain ⟨rest, hrest, -, hgap⟩ := hfront.gap
    have hno : ¬ "-->".toList <+: rest := by
      have halone := hgap [] 1 false nofun
      unfold startsMarkup at hmarkup
      rw [List.append_nil] at halone
      rw [halone, List.append_nil] at hmarkup
      exact fun hstart => Bool.false_ne_true
        (hmarkup.symm.trans (List.isPrefixOf_iff_prefix.mpr hstart))
    rw [hgap _ _ _ fun hboth => hno hboth.2] at hskip
    cases hskip
    exact hno (hrest.closed.prefix_of_append hprefix (by decide))

end Breaks

/-- The part consists of whole lines, which may be written without their breaks. -/
def IsLines (ticks : Prop) (part : List Char) : Prop :=
  ∀ left right, Breaks ticks left right → Breaks ticks (part ++ left) (withoutBreaks part ++ right)

/-- The character starts an operand. -/
def startsOperand (c : Char) : Bool :=
  ['(', '\'', '_'].contains c

namespace IsLines

theorem nil : IsLines ticks [] :=
  fun _ _ h => h

theorem append (h : IsLines ticks part) (hother : IsLines ticks other) :
    IsLines ticks (part ++ other) := by
  intro left right hbreaks
  rw [without_breaks_append, List.append_assoc, List.append_assoc]
  exact h _ _ (hother _ _ hbreaks)

theorem line_break : IsLines ticks "\n".toList :=
  fun _ _ h => h.blank

theorem flat_map {α : Type} {write : α → List Char} {items : List α}
    (h : ∀ item ∈ items, IsLines ticks (write item)) : IsLines ticks (items.flatMap write) := by
  induction items with
  | nil => exact .nil
  | cons item items ih =>
      obtain ⟨hitem, hitems⟩ := List.forall_mem_cons.mp h
      exact hitem.append (ih hitems)

/-- A line that ends with no sign that could go on. -/
theorem line {c : Char} (hfront : Front ticks text) (hmarkup : startsMarkup text = false)
    (hlast : text.getLast? = some c) (hc : c ∉ ['+', '=']) :
    IsLines ticks (text ++ "\n".toList) := by
  intro left right h
  have hlink : Links text right := by
    intro hends
    rw [hlast, Option.some.injEq, Option.some.injEq] at hends
    exact absurd (by simpa using hends) hc
  have hline := h.line hfront hmarkup hlink
  rw [without_breaks_append, without_breaks_of_inline hfront.closed.inline, List.append_assoc,
    List.append_assoc]
  exact hline

/-- A line that is linked to those behind it by the operand with which they start. -/
theorem linked (hfront : Front ticks text) (hmarkup : startsMarkup text = false)
    (hpart : IsLines ticks part) (hopens : part.head?.any startsOperand = true) :
    IsLines ticks (text ++ "\n".toList ++ part) := by
  intro left right h
  obtain ⟨c, rest, rfl⟩ : ∃ c rest, part = c :: rest := by
    cases part with
    | nil => exact absurd hopens Bool.false_ne_true
    | cons c rest => exact ⟨c, rest, rfl⟩
  have hc : c ∈ ['(', '\'', '_'] := List.contains_iff_mem.mp hopens
  have hfeed : c ≠ '\n' := by
    rintro rfl
    exact absurd hc (by decide)
  have hbehind := hpart left right h
  have hlink : Links text (withoutBreaks (c :: rest) ++ right) := by
    rw [without_breaks_cons hfeed]
    exact fun _ => ⟨c, _, hc, rfl⟩
  have hline := hbehind.line hfront hmarkup hlink
  simp only [without_breaks_append, without_breaks_of_inline hfront.closed.inline,
    List.append_assoc] at hline ⊢
  exact hline

end IsLines

/-! ## Operands -/

theorem starts_markup_token {c : Char} (hc : startsToken c = true) (rest : List Char) :
    startsMarkup (c :: rest) = false := by
  have hminus : ('-' == c) = false := by
    rw [beq_eq_false_iff_ne]
    rintro rfl
    exact absurd hc (by decide)
  unfold startsMarkup
  rw [skip_gap_token hc]
  show ('-' == c && _) = false
  rw [hminus, Bool.false_and]

/-- An operand of a sum in a line of its own. -/
structure IsOperand (ticks : Prop) (text : List Char) : Prop where
  opens : text.head?.any startsOperand = true
  front : ∀ ending ∈ literalEndings, Front ticks (text ++ ending)

theorem IsOperand.starts_markup (h : IsOperand ticks text) (rest : List Char) :
    startsMarkup (text ++ rest) = false := by
  have hopens := h.opens
  cases text with
  | nil => exact absurd hopens Bool.false_ne_true
  | cons c text =>
      have hstarts : ∀ c ∈ ['(', '\'', '_'], startsToken c = true := by decide
      exact starts_markup_token (hstarts c (List.contains_iff_mem.mp hopens)) _

theorem operand_value {summand : Summand} (h : FitsLine ticks summand.code) :
    IsOperand ticks summand.value := by
  have hline {front back ending : List Char} (hending : ending ∈ literalEndings)
      (hfront : front.all isQuietChar = true) (hback : back.all isQuietChar = true) :
      Front ticks (front ++ summand.code ++ back ++ ending) := by
    have hendings : ∀ ending ∈ literalEndings, ending.all isQuietChar = true ∧
        ending ∈ lineEndings ∧ ending ≠ [] := by decide
    obtain ⟨hframe, hclosing, hne⟩ := hendings ending hending
    rw [List.append_assoc, List.append_assoc]
    refine h.is_front hfront (by rw [List.all_append, hback, hframe]; rfl) (by simp [hne]) ?_
    rw [← List.append_assoc, ← List.append_assoc]
    exact ⟨ending, hclosing, .inr (List.suffix_append _ ending)⟩
  unfold Summand.value
  split_ifs
  · exact ⟨rfl, fun ending hending => hline hending (by decide) (by decide)⟩
  · exact ⟨rfl, fun ending hending => hline hending (by decide) (by decide)⟩

theorem operand_quoted (h : FitsLiteral ticks text) : IsOperand ticks (quoted text) := by
  refine ⟨rfl, fun ending hending => ?_⟩
  have hline := Front.literal .nil rfl hending h
  simpa [quoted] using hline

theorem operand_of_mem {sum : List Summand} (hcode : ∀ summand ∈ sum, FitsLine ticks summand.code)
    (htexts : ∀ summand ∈ sum, FitsLiteral ticks summand.literal) :
    ∀ text ∈ operands sum, IsOperand ticks text := by
  induction sum with
  | nil => exact nofun
  | cons summand others ih =>
      obtain ⟨hvalue, hvalues⟩ := List.forall_mem_cons.mp hcode
      obtain ⟨hliteral, hliterals⟩ := List.forall_mem_cons.mp htexts
      have hboth : ∀ text ∈ [summand.value, quoted summand.literal], IsOperand ticks text :=
        List.forall_mem_cons.mpr ⟨operand_value hvalue,
          List.forall_mem_cons.mpr ⟨operand_quoted hliteral, nofun⟩⟩
      cases others with
      | nil =>
          unfold operands
          split_ifs
          · exact List.forall_mem_cons.mpr ⟨operand_value hvalue, nofun⟩
          · exact hboth
      | cons other others =>
          intro text hmem
          rcases List.mem_append.mp (show text ∈ [summand.value, quoted summand.literal] ++
            operands (other :: others) from hmem) with hmem | hmem
          · exact hboth text hmem
          · exact ih hvalues hliterals text hmem

theorem head_intercalate {texts : List (List Char)} (hne : texts ≠ [])
    (h : ∀ text ∈ texts, IsOperand ticks text) (rest : List Char) :
    (List.intercalate " +\n".toList texts ++ rest).head?.any startsOperand = true := by
  obtain ⟨first, others, rfl⟩ := List.exists_cons_of_ne_nil hne
  have hopens := (h first List.mem_cons_self).opens
  obtain ⟨c, text, rfl⟩ : ∃ c text, first = c :: text := by
    cases first with
    | nil => exact absurd hopens Bool.false_ne_true
    | cons c text => exact ⟨c, text, rfl⟩
  cases others <;> exact hopens

/-- The operands of a sum, each in a line. The induction is on the operands. -/
theorem is_lines_operands {texts : List (List Char)} (hne : texts ≠ [])
    (h : ∀ text ∈ texts, IsOperand ticks text) :
    IsLines ticks (List.intercalate " +\n".toList texts ++ ";".toList ++ "\n".toList) := by
  induction texts with
  | nil => exact absurd rfl hne
  | cons text others ih =>
      obtain ⟨htext, hothers⟩ := List.forall_mem_cons.mp h
      by_cases hlast : others = []
      · subst hlast
        rw [List.intercalate_singleton]
        exact .line (htext.front _ (by decide)) (htext.starts_markup _) List.getLast?_concat
          (by decide)
      · have hrest := ih hlast hothers
        rw [List.append_assoc] at hrest
        have hlinked := hrest.linked (htext.front " +".toList (by decide)) (htext.starts_markup _)
          (head_intercalate hlast hothers _)
        rw [List.intercalate_cons_of_ne_nil hlast]
        simp only [List.append_assoc] at hlinked ⊢
        exact hlinked

/-! ## Stretches and layouts -/

/-- The texts of the literals of a stretch. -/
def Stretch.texts (stretch : Stretch) : List (List Char) :=
  stretch.first :: stretch.sum.map Summand.literal

/-- The texts of the literals of a layout. -/
def Layout.texts (layout : Layout) : List (List Char) :=
  layout.start.texts ++ layout.others.flatMap fun item => item.2.texts

/-- What stands in front of the literal of a statement. -/
theorem opening_append : IsOpening "__p += ".toList := by
  have hname (behind : List Char) (line : Nat) :
      tokenAt ('_' :: "_p += ".toList ++ '\'' :: behind) line =
        .ok (.name "__p" false, ⟨" += ".toList ++ '\'' :: behind, line⟩) :=
    token_at_word "__p" rfl rfl line
  have hadd (behind : List Char) (line : Nat) :
      tokenAt ('+' :: "= ".toList ++ '\'' :: behind) line =
        .ok (.sign "+=", ⟨" ".toList ++ '\'' :: behind, line⟩) :=
    token_at_sign rfl rfl line
  exact .token rfl hname (by decide) (.blank (.token rfl hadd (by decide) (.blank .nil)))

/-- The first line of a statement with a literal. -/
theorem front_append (h : FitsLiteral ticks text) {ending : List Char}
    (hending : ending ∈ literalEndings) :
    Front ticks ("__p += ".toList ++ quoted text ++ ending) := by
  have hline := Front.literal opening_append (by decide) hending h
  simpa [quoted] using hline

theorem is_lines_stretch {stretch : Stretch}
    (hcode : ∀ summand ∈ stretch.sum, FitsLine ticks summand.code)
    (htexts : ∀ text ∈ stretch.texts, FitsLiteral ticks text) (evaluates : Bool) :
    IsLines ticks (stretch.write evaluates ++ "\n".toList) := by
  obtain ⟨hfirst, hliterals⟩ := List.forall_mem_cons.mp htexts
  have hmarkup (rest : List Char) : startsMarkup ("__p +=".toList ++ rest) = false :=
    starts_markup_token rfl _
  unfold Stretch.write
  cases hsum : stretch.sum with
  | nil =>
      dsimp only
      split_ifs
      · exact .line_break
      · exact .line (front_append hfirst (by decide)) (hmarkup _) List.getLast?_concat
          (by decide)
  | cons summand others =>
      have hoperands : ∀ text ∈ operands (summand :: others), IsOperand ticks text := by
        refine operand_of_mem (hsum ▸ hcode) fun summand hmem => hliterals _ ?_
        exact List.mem_map_of_mem (hsum ▸ hmem)
      have hne := operands_ne_nil summand others
      have hrest := is_lines_operands hne hoperands
      rw [List.append_assoc] at hrest
      -- the line in front of the sum links up with its first operand
      have hopens := head_intercalate hne hoperands (";".toList ++ "\n".toList)
      dsimp only
      split_ifs
      · have hplain : Front ticks "__p +=".toList :=
          .code ⟨by decide, by decide, by decide⟩ (tame_of_not_mem (by decide) (by decide))
            fun hmem => absurd hmem (by decide)
        have hlinked := hrest.linked hplain (hmarkup []) hopens
        simp only [List.append_assoc, List.nil_append] at hlinked ⊢
        exact hlinked
      · have hending : " +".toList ∈ literalEndings := by decide
        have hlinked := hrest.linked (front_append hfirst hending) (hmarkup _) hopens
        simp only [List.append_assoc] at hlinked ⊢
        exact hlinked

/-- The code of a layout fits into lines. A line of code that is run does not start with a sign that
could close a markup comment. -/
structure Layout.FitsLines (ticks : Prop) (layout : Layout) : Prop where
  start : ∀ summand ∈ layout.start.sum, FitsLine ticks summand.code
  others : ∀ item ∈ layout.others, FitsLine ticks item.1 ∧
    startsMarkup (item.1 ++ ";".toList) = false ∧ ∀ summand ∈ item.2.sum, FitsLine ticks summand.code

/-- The statements for a layout are whole lines. -/
theorem is_lines_write {layout : Layout} (hcode : layout.FitsLines ticks)
    (htexts : ∀ text ∈ layout.texts, FitsLiteral ticks text) : IsLines ticks layout.write := by
  obtain ⟨hstart, hothers⟩ := List.forall_mem_append.mp htexts
  refine (is_lines_stretch hcode.start hstart _).append (.flat_map fun item hmem => ?_)
  obtain ⟨hrun, hmarkup, hsum⟩ := hcode.others item hmem
  have hitem : ∀ text ∈ item.2.texts, FitsLiteral ticks text :=
    fun text htext => hothers text (List.mem_flatMap.mpr ⟨item, hmem, htext⟩)
  have hline : Front ticks ([] ++ (item.1 ++ ";".toList)) := by
    refine hrun.is_front rfl (by decide) (by decide) ?_
    exact ⟨";".toList, by decide, .inr (List.suffix_append _ _)⟩
  have hbreak : IsLines ticks (item.1 ++ ";\n".toList) := by
    have hlines := IsLines.line hline hmarkup List.getLast?_concat (by decide)
    simpa using hlines
  exact hbreak.append (is_lines_stretch hsum hitem _)

/-! ## Pieces -/

/-- The code of a piece. A text has none. -/
def Piece.codeChars : Piece → List Char
  | .text _ => []
  | .code _ chars => chars

/-- The code of a piece stays on its line: no line ends in it, and each comment in it ends in it. It
starts with no sign that could close a markup comment, and it does not append nothing itself. -/
structure Piece.StaysOnLine (piece : Piece) : Prop where
  inline : ∀ c ∈ piece.codeChars, isLineEnd c = false
  tame : IsTame piece.codeChars
  no_markup : piece.isStatement = true → startsMarkup (piece.codeChars ++ ";".toList) = false
  no_append : ¬ "__p += ''".toList <:+: piece.codeChars

theorem stays_on_line_iff {piece : Piece} : piece.StaysOnLine ↔
    (∀ c ∈ piece.codeChars, isLineEnd c = false) ∧ IsTame piece.codeChars ∧
      (piece.isStatement = true → startsMarkup (piece.codeChars ++ ";".toList) = false) ∧
      ¬ "__p += ''".toList <:+: piece.codeChars :=
  ⟨fun h => ⟨h.inline, h.tame, h.no_markup, h.no_append⟩,
    fun ⟨hinline, htame, hmarkup, happend⟩ => ⟨hinline, htame, hmarkup, happend⟩⟩

instance : DecidablePred Piece.StaysOnLine :=
  fun _ => decidable_of_iff' _ stays_on_line_iff

/-- The rules for empty appends keep such code. -/
theorem Piece.StaysOnLine.spared {piece : Piece} (h : piece.StaysOnLine) : piece.IsSpared := by
  cases piece with
  | text chars => trivial
  | code tag code =>
      refine ⟨h.no_append, .inr fun hbreak => ?_⟩
      exact absurd (h.inline _ hbreak) (by decide)

theorem Piece.StaysOnLine.fits_line {tag : Tag} (h : (Piece.code tag code).StaysOnLine)
    (htick : '\x60' ∈ code → ticks) : FitsLine ticks code :=
  ⟨h.inline, h.tame, htick⟩

theorem fits_lines_layout {pieces : List Piece} (h : ∀ piece ∈ pieces, piece.StaysOnLine)
    (hticks : ∀ piece ∈ pieces, '\x60' ∈ piece.codeChars → ticks) :
    (layout pieces).FitsLines ticks := by
  induction pieces with
  | nil => exact ⟨by simp [layout], by simp [layout]⟩
  | cons piece pieces ih =>
      obtain ⟨hpiece, hpieces⟩ := List.forall_mem_cons.mp h
      obtain ⟨htick, hothers⟩ := List.forall_mem_cons.mp hticks
      obtain ⟨hstart, hothers⟩ := ih hpieces hothers
      cases piece with
      | text chars => exact ⟨hstart, hothers⟩
      | code tag code =>
          have hline := hpiece.fits_line htick
          cases tag with
          | escape => exact ⟨List.forall_mem_cons.mpr ⟨hline, hstart⟩, hothers⟩
          | interpolate => exact ⟨List.forall_mem_cons.mpr ⟨hline, hstart⟩, hothers⟩
          | evaluate =>
              have hmarkup := hpiece.no_markup rfl
              exact ⟨List.forall_mem_nil _,
                List.forall_mem_cons.mpr ⟨⟨hline, hmarkup, hstart⟩, hothers⟩⟩

end TemplateBundle.Template

import TemplateBundle.Proofs.Template.OneLine
import TemplateBundle.Proofs.Template.Printing
import TemplateBundle.Proofs.Template.Variables

/-!
# Prettified templates

A prettified template is the function without its line breaks. It is still right, and its literals
have the same values (`compile_prettified`), if the code of each tag stays on its line, no text of the
template is read as code, and the function may go on in the line of the brace that ends its block of
names. None of this is so for all templates, also where the code of the tags has no line breaks
(`prettified_refused`).
-/

namespace TemplateBundle.Template

open Script

variable {ticks : Prop} {dataName : Option String} {left right part : List Char}

/-! ## Literals -/

/-- In both texts literals stand one behind the other: read by the rules for single quotes, each ends
at the same quote and has one of the texts as its value. What stands around them is the same up to its
line breaks, which the second text has not. -/
inductive SameLiterals : List (List Char) → List Char → List Char → Prop where
  | nil (rest : List Char) : SameLiterals [] rest (withoutBreaks rest)
  | cons {text body rest rest' : List Char} {texts : List (List Char)} (front : List Char)
      (hvalue : stringUnits? (body ++ '\'' :: rest) = some (unitsOf text, rest))
      (hvalue' : stringUnits? (body ++ '\'' :: rest') = some (unitsOf text, rest'))
      (h : SameLiterals texts rest rest') :
      SameLiterals (text :: texts) (front ++ '\'' :: (body ++ '\'' :: rest))
        (withoutBreaks front ++ '\'' :: (body ++ '\'' :: rest'))

/-- The texts that are not empty. -/
def nonempty (texts : List (List Char)) : List (List Char) :=
  texts.filter fun text => !text.isEmpty

/-- The part adds these literals, with or without its line breaks. -/
def AddsLiterals (texts : List (List Char)) (part : List Char) : Prop :=
  ∀ others left right, SameLiterals others left right →
    SameLiterals (texts ++ others) (part ++ left) (withoutBreaks part ++ right)

namespace AddsLiterals

variable {texts texts' : List (List Char)} {part' : List Char}

theorem none (part : List Char) : AddsLiterals [] part := by
  intro others left right h
  cases h with
  | nil rest =>
      rw [← without_breaks_append]
      exact .nil _
  | cons front hvalue hvalue' h =>
      have hlonger := SameLiterals.cons (part ++ front) hvalue hvalue' h
      rwa [without_breaks_append, List.append_assoc, List.append_assoc] at hlonger

theorem append (h : AddsLiterals texts part) (h' : AddsLiterals texts' part') :
    AddsLiterals (texts ++ texts') (part ++ part') := by
  intro others left right hothers
  rw [without_breaks_append, List.append_assoc, List.append_assoc, List.append_assoc]
  exact h _ _ _ (h' _ _ _ hothers)

/-- A part without literals in front. -/
theorem behind (h : AddsLiterals texts part) (front : List Char) :
    AddsLiterals texts (front ++ part) :=
  (none front).append h

/-- A part without literals behind. -/
theorem before (h : AddsLiterals texts part) (back : List Char) :
    AddsLiterals texts (part ++ back) := by
  have hboth := h.append (none back)
  rwa [List.append_nil] at hboth

theorem flat_map {α : Type} {write : α → List Char} {literals : α → List (List Char)}
    {items : List α} (h : ∀ item ∈ items, AddsLiterals (literals item) (write item)) :
    AddsLiterals (items.flatMap literals) (items.flatMap write) := by
  induction items with
  | nil => exact none []
  | cons item items ih =>
      obtain ⟨hitem, hitems⟩ := List.forall_mem_cons.mp h
      exact hitem.append (ih hitems)

/-- The literal for a text. -/
theorem quoted (text : List Char) : AddsLiterals [text] (quoted text) := by
  intro others left right h
  have hfits : FitsLiteral False text := False.elim
  have hline := ((operand_quoted hfits).front ";".toList (by decide)).closed
  have hinline : withoutBreaks (Template.quoted text) = Template.quoted text :=
    without_breaks_of_inline fun c hc => hline.inline c (List.mem_append_left _ hc)
  have hliteral := SameLiterals.cons [] (string_units_escape text left)
    (string_units_escape text right) h
  rw [hinline]
  unfold Template.quoted
  simp only [List.append_assoc]
  exact hliteral

/-- The literal for a text counts if it is not empty. -/
theorem quoted_nonempty (text : List Char) :
    AddsLiterals (nonempty [text]) (Template.quoted text) := by
  unfold nonempty
  by_cases hempty : text.isEmpty = true
  · simpa [hempty] using AddsLiterals.none (Template.quoted text)
  · simpa [hempty] using AddsLiterals.quoted text

end AddsLiterals

theorem nonempty_append (texts others : List (List Char)) :
    nonempty (texts ++ others) = nonempty texts ++ nonempty others :=
  List.filter_append _ _

/-- The operands of a sum. The induction is on the values. -/
theorem adds_sum (sum : List Summand) :
    AddsLiterals (nonempty (sum.map Summand.literal)) (sumText sum) := by
  induction sum with
  | nil => exact .none _
  | cons summand others ih =>
      have hliteral := AddsLiterals.quoted_nonempty summand.literal
      cases others with
      | nil =>
          rw [sum_text_last]
          split_ifs with hopen
          · have hempty : nonempty [summand.literal] = [] := by
              unfold Summand.isOpen at hopen
              simp [nonempty, (Bool.and_eq_true_iff.mp hopen).1]
            rw [List.map_singleton, hempty]
            exact .none _
          · have hlast := hliteral.behind (summand.value ++ " +\n".toList)
            simpa [Template.quoted] using hlast
      | cons other others =>
          have hboth := ((hliteral.behind (summand.value ++ " +\n".toList)).before
            " +\n".toList).append ih
          rw [sum_text_cons, List.map_cons, ← List.singleton_append, nonempty_append]
          simpa [Template.quoted] using hboth

theorem adds_stretch (stretch : Stretch) (evaluates : Bool) :
    AddsLiterals (nonempty stretch.texts) (stretch.write evaluates) := by
  have hfirst := AddsLiterals.quoted_nonempty stretch.first
  have hnone (h : stretch.first.isEmpty = true) : nonempty [stretch.first] = [] := by
    simp [nonempty, h]
  unfold Stretch.texts Stretch.write
  rw [← List.singleton_append, nonempty_append]
  cases hsum : stretch.sum with
  | nil =>
      rw [List.map_nil, ← nonempty_append, List.append_nil]
      dsimp only
      split_ifs with hempty
      · rw [hnone (Bool.and_eq_true_iff.mp hempty).2]
        exact .none _
      · exact (hfirst.behind _).before _
  | cons summand others =>
      have hopening : AddsLiterals (nonempty [stretch.first])
          (if stretch.first.isEmpty then []
            else " ".toList ++ quoted stretch.first ++ " +".toList) := by
        split_ifs with hempty
        · rw [hnone hempty]
          exact .none _
        · exact (hfirst.behind _).before _
      exact (((hopening.behind "__p +=".toList).before "\n".toList).append
        (adds_sum (summand :: others))).before ";".toList

/-- The statements for a layout have a literal for each text that is not empty. -/
theorem adds_write (layout : Layout) : AddsLiterals (nonempty layout.texts) layout.write := by
  unfold Layout.texts nonempty
  rw [List.filter_append, List.filter_flatMap]
  refine ((adds_stretch layout.start _).before _).append (.flat_map fun item _ => ?_)
  exact ((adds_stretch item.2 _).before _).behind _

/-! ## Functions whose block of names ends on the last line -/

/-- The lines of the function in front of its declarations. -/
def openingLines : Option String → List Char
  | some name => "function(".toList ++ (name.toList ++ ") \x7b\n".toList)
  | none => "function(obj) \x7b\nobj || (obj = \x7b\x7d);\n".toList

/-- The lines of the function between its declarations and its end. -/
def Layout.bodyLines (layout : Layout) : Option String → List Char
  | some _ => layout.write
  | none => "with (obj) \x7b\n".toList ++ (layout.write ++ "\n".toList)

/-- The end of the function. There is no line break behind the block of names. -/
def lastLines : Option String → List Char
  | some _ => "return __p\n\x7d".toList
  | none => "\x7dreturn __p\n\x7d".toList

/-- The function for a layout without the line break behind the block of names. -/
def Layout.joinedText (dataName : Option String) (layout : Layout) : List Char :=
  openingLines dataName ++ (declarations layout.evaluates ++
    (layout.bodyLines dataName ++ lastLines dataName))

/-- The line break behind the block of names is the only one left out. -/
theorem function_text_joined (dataName : Option String) (layout : Layout) :
    layout.functionText dataName = layout.joinedText dataName ∨ dataName = none ∧
      ∃ front, layout.functionText dataName = front ++ "\x7d\nreturn __p\n\x7d".toList ∧
        layout.joinedText dataName = front ++ "\x7dreturn __p\n\x7d".toList := by
  unfold Layout.functionText Layout.joinedText openingLines Layout.bodyLines lastLines
  cases dataName with
  | some name =>
      left
      simp only [List.append_assoc]
  | none =>
      have hend : "\n\x7d\n".toList ++ "return __p\n\x7d".toList =
          "\n".toList ++ "\x7d\nreturn __p\n\x7d".toList := by decide
      right
      refine ⟨rfl, "function(obj) \x7b\nobj || (obj = \x7b\x7d);\n".toList ++
        (declarations layout.evaluates ++
          ("with (obj) \x7b\n".toList ++ (layout.write ++ "\n".toList))), ?_, ?_⟩
      · simp only [List.append_assoc]
        rw [hend]
      · simp only [List.append_assoc]

theorem without_breaks_joined (dataName : Option String) (layout : Layout) :
    withoutBreaks (layout.joinedText dataName) = withoutBreaks (layout.functionText dataName) := by
  rcases function_text_joined dataName layout with hsame | ⟨-, front, htext, hjoined⟩
  · rw [hsame]
  · rw [htext, hjoined, without_breaks_append, without_breaks_append]
    rfl

/-- What follows the statements of the function. -/
theorem breaks_ending (dataName : Option String) :
    Breaks ticks (lastLines dataName ++ "\n)".toList)
      (withoutBreaks (lastLines dataName) ++ "\n)".toList) := by
  have hnamed : ("return __p\n\x7d\n)".toList, "return __p\x7d\n)".toList) ∈ endings := by decide
  have hblock : ("\x7dreturn __p\n\x7d\n)".toList, "\x7dreturn __p\x7d\n)".toList) ∈ endings := by
    decide
  cases dataName with
  | some _ => exact .of_token rfl (.ending hnamed)
  | none => exact .of_token rfl (.ending hblock)

/-- The line is written by the program alone. -/
theorem is_lines_frame {text : List Char} (hframe : text.all isQuietChar = true)
    (hends : EndsLine text) (hmarkup : startsMarkup text = false) {c : Char}
    (hlast : text.getLast? = some c) (hc : c ∉ ['+', '=']) :
    IsLines ticks (text ++ "\n".toList) := by
  have hne : text ≠ [] := by
    rintro rfl
    cases hlast
  exact .line (fits_line_nil.is_front (show [].all isQuietChar = true from rfl) hframe hne hends)
    hmarkup hlast hc

/-- A word fits into a line. -/
theorem fits_line_word {word : List Char} (hword : isWord word = true) : FitsLine ticks word := by
  have hpart := List.all_eq_true.mp (parts_of_word hword)
  have hno {c : Char} (hc : isWordPart c = false) : c ∉ word :=
    fun hmem => Bool.false_ne_true (hc.symm.trans (hpart c hmem))
  refine ⟨fun c hc => ?_, tame_of_not_mem (hno rfl) (hno rfl), fun htick => absurd htick (hno rfl)⟩
  have hne {other : Char} (hother : isWordPart other = false) : c ≠ other :=
    ne_of_word_part (hpart c hc) hother
  exact inline_of_ne (hne rfl) (hne rfl) (hne rfl) (hne rfl)

/-- What stands in front of the declarations consists of whole lines. -/
theorem is_lines_opening
    (hword : isWord (dataName.getD standardVariable).toList = true) :
    IsLines ticks ('(' :: openingLines dataName) := by
  have hhead : IsLines ticks ("(function(".toList ++
      ((dataName.getD standardVariable).toList ++ ") \x7b".toList) ++ "\n".toList) := by
    refine .line ((fits_line_word hword).is_front (by decide) (by decide) (by decide) ?_)
      (starts_markup_token rfl _) (c := '\x7b') ?_ (by decide)
    · exact ⟨" \x7b".toList, by decide, .inr ⟨"(function(".toList ++
        ((dataName.getD standardVariable).toList ++ ")".toList), by simp⟩⟩
    · rw [← List.append_assoc, List.getLast?_append]
      rfl
  unfold openingLines
  cases dataName with
  | some name =>
      simp only [List.append_assoc] at hhead ⊢
      exact hhead
  | none =>
      have hfallback : IsLines ticks ("obj || (obj = \x7b\x7d);".toList ++ "\n".toList) :=
        is_lines_frame (by decide) ⟨";".toList, by decide, .inr (by decide)⟩
          (starts_markup_token rfl _) (c := ';') (by decide) (by decide)
      exact hhead.append hfallback

/-- The variables of a function that runs no code. -/
theorem is_lines_variables : IsLines ticks (declarations false) := by
  have hline : declarations false =
      "var __t, __p = '', __e = _.escape;".toList ++ "\n".toList := by decide
  rw [hline]
  exact is_lines_frame (by decide) ⟨";".toList, by decide, .inr (by decide)⟩
    (starts_markup_token rfl _) (c := ';') (by decide) (by decide)

/-- Up to its declarations a function that runs code is written as `printingText`. -/
theorem opening_printing (dataName : Option String) :
    '(' :: (openingLines dataName ++ declarations true) =
      printingText ['\n'] dataName ++ "\x7d\n".toList := by
  have hdeclared : declarations true = variableText ['\n'] ++ "\x7d\n".toList := by decide
  unfold openingLines printingText bodyText
  rw [hdeclared]
  cases dataName with
  | some name =>
      simp
  | none =>
      simp [standardVariable]

theorem without_breaks_printing
    (hword : isWord (dataName.getD standardVariable).toList = true) :
    withoutBreaks (printingText ['\n'] dataName) = printingText [] dataName := by
  have hline : FitsLine True (dataName.getD standardVariable).toList := fits_line_word hword
  have hbody : withoutBreaks (bodyText ['\n'] dataName) = bodyText [] dataName := by
    have hvariables : withoutBreaks (variableText ['\n']) = variableText [] := by decide
    cases dataName with
    | some _ => exact hvariables
    | none =>
        unfold bodyText
        rw [without_breaks_append, without_breaks_append, hvariables]
        rfl
  unfold printingText
  simp only [without_breaks_append, without_breaks_of_inline hline.inline, hbody]
  rfl

/-- The parenthesis in front of the function, and its lines up to the declarations. -/
def Layout.headText (dataName : Option String) (layout : Layout) : List Char :=
  '(' :: (openingLines dataName ++ declarations layout.evaluates)

/-- The lines of the function behind its declarations, and the parenthesis behind it. -/
def Layout.tailText (dataName : Option String) (layout : Layout) : List Char :=
  layout.bodyLines dataName ++ (lastLines dataName ++ "\n)".toList)

/-- The same without the line breaks of the function. -/
def Layout.brokenTail (dataName : Option String) (layout : Layout) : List Char :=
  withoutBreaks (layout.bodyLines dataName) ++ (withoutBreaks (lastLines dataName) ++ "\n)".toList)

theorem wrap_joined (dataName : Option String) (layout : Layout) :
    wrap (layout.joinedText dataName) =
      layout.headText dataName ++ layout.tailText dataName := by
  unfold wrap Layout.joinedText Layout.headText Layout.tailText
  simp only [List.cons_append, List.append_assoc]
  rfl

theorem wrap_without_breaks (dataName : Option String) (layout : Layout) :
    wrap (withoutBreaks (layout.joinedText dataName)) =
      withoutBreaks (layout.headText dataName) ++ layout.brokenTail dataName := by
  unfold wrap Layout.joinedText Layout.headText Layout.brokenTail
  rw [without_breaks_cons (by decide)]
  simp only [List.cons_append, List.append_assoc, without_breaks_append]
  rfl

/-- Line breaks do not count for the extent. -/
theorem extent_wrap (text : List Char) : extent (wrap (withoutBreaks text)) = extent (wrap text) := by
  have hsame : withoutBreaks (wrap (withoutBreaks text)) = withoutBreaks (wrap text) := by
    unfold wrap
    rw [List.cons_append, List.cons_append, without_breaks_cons (by decide),
      without_breaks_cons (by decide), without_breaks_append, without_breaks_append]
    unfold withoutBreaks
    rw [List.filter_filter]
    simp only [Bool.and_self]
  rw [← extent_without_breaks (wrap _), hsame, extent_without_breaks]

/-- What follows the declarations goes on in the same way without its line breaks. -/
theorem breaks_tail {layout : Layout} (hcode : layout.FitsLines ticks)
    (htexts : ∀ text ∈ layout.texts, FitsLiteral ticks text) :
    Breaks ticks (layout.tailText dataName) (layout.brokenTail dataName) := by
  have hwrite := is_lines_write hcode htexts
  have hbody : IsLines ticks (layout.bodyLines dataName) := by
    unfold Layout.bodyLines
    cases dataName with
    | some name => exact hwrite
    | none =>
        have hblock : IsLines ticks ("with (obj) \x7b".toList ++ "\n".toList) :=
          is_lines_frame (by decide) ⟨" \x7b".toList, by decide, .inr (by decide)⟩
            (starts_markup_token rfl _) (c := '\x7b') (by decide) (by decide)
        exact hblock.append (hwrite.append .line_break)
  exact hbody _ _ (breaks_ending dataName)

/-- If no fault is found in the function without the line break behind the block of names, none is
found in it on one line. -/
theorem fault_without_breaks {layout : Layout} (hcode : layout.FitsLines ticks)
    (htexts : ∀ text ∈ layout.texts, FitsLiteral ticks text)
    (hword : isWord (dataName.getD standardVariable).toList = true)
    (hname : isReserved (dataName.getD standardVariable) = false)
    (h : fault? (wrap (layout.joinedText dataName)) = none) :
    fault? (wrap (withoutBreaks (layout.joinedText dataName))) = none := by
  have hbreaks : Breaks ticks (layout.tailText dataName) (layout.brokenTail dataName) :=
    breaks_tail hcode htexts
  have hextent := (extent_wrap (layout.joinedText dataName)).symm
  rw [wrap_joined, wrap_without_breaks] at hextent
  rw [wrap_joined] at h
  rw [wrap_without_breaks]
  cases hevaluates : layout.evaluates with
  | false =>
      have hhead : IsLines ticks (layout.headText dataName) := by
        unfold Layout.headText
        rw [hevaluates]
        exact (is_lines_opening hword).append is_lines_variables
      have hplaces : (linePairing ticks).places false
          ⟨layout.headText dataName ++ layout.tailText dataName, 1⟩
          ⟨withoutBreaks (layout.headText dataName) ++ layout.brokenTail dataName, 1⟩ :=
        ⟨(hhead _ _ hbreaks).broken, nofun⟩
      exact (linePairing ticks).fault_none hplaces hextent h
  | true =>
      -- up to `print` both functions are read token by token, only what follows is read in step
      have hhead : layout.headText dataName = printingText ['\n'] dataName ++ "\x7d\n".toList := by
        unfold Layout.headText
        rw [hevaluates, opening_printing]
      have hhead' : withoutBreaks (layout.headText dataName) =
          printingText [] dataName ++ "\x7d".toList := by
        rw [hhead, without_breaks_append, without_breaks_printing hword]
        rfl
      have hplaces (line line' : Nat) : (linePairing ticks).places false
          ⟨'\n' :: layout.tailText dataName, line⟩ ⟨layout.brokenTail dataName, line'⟩ :=
        ⟨hbreaks.blank.broken, nofun⟩
      rw [hhead', hhead, List.append_assoc, List.append_assoc] at hextent
      rw [hhead, List.append_assoc] at h
      rw [hhead', List.append_assoc]
      exact fault_none_of_printing (.inr rfl) (.inl rfl) hplaces hextent hword hname h

/-! ## Templates -/

theorem adds_function_text (dataName : Option String) (layout : Layout) :
    AddsLiterals (nonempty layout.texts) (layout.functionText dataName) := by
  have hwrite := adds_write layout
  unfold Layout.functionText
  cases dataName with
  | some name => exact (hwrite.behind _).before _
  | none => exact ((hwrite.behind _).before _).before _

/-- Some code of the template has a mark of script templates. -/
def HasTicks (pieces : List Piece) : Prop :=
  ∃ piece ∈ pieces, '\x60' ∈ piece.codeChars

/-- A template whose code has templates and a comment. One of its texts has marks of templates, too,
another one the sign of a comment. -/
def markedTemplate : String :=
  "<% x = \x60a\x60 /* */ %>a \x60b\x60 <%- \x60$\x7by\x7d\x60 %> c // d"

def markedPieces : List Piece :=
  [.text [], .code .evaluate " x = \x60a\x60 /* */ ".toList, .text "a \x60b\x60 ".toList,
    .code .escape " \x60$\x7by\x7d\x60 ".toList, .text " c // d".toList]

/-- The function of the template up to the end of its block. -/
def markedFront : List Char :=
  "function(obj) \x7b\nobj || (obj = \x7b\x7d);\n".toList ++
    "var __t, __p = '', __e = _.escape".toList ++ ", __j = Array.prototype.join;\n".toList ++
    "function print() \x7b __p += ".toList ++ "__j.call(arguments, '') \x7d\n".toList ++
    "with (obj) \x7b\n\n x = \x60a\x60 /* */ ;\n__p += 'a \x60b\x60 ' +\n".toList ++
    "__e( \x60$\x7by\x7d\x60 ) +\n' c // d';\n\n".toList

/-- No line ends in the code of the piece, and it has no sign of a comment up to the end of a line. -/
def Piece.IsInline (piece : Piece) : Prop :=
  (∀ c ∈ piece.codeChars, isLineEnd c = false) ∧ ¬ "//".toList <:+: piece.codeChars

instance : DecidablePred Piece.IsInline :=
  fun _ => inferInstanceAs (Decidable (_ ∧ _))

/-- Templates whose functions need one of their line breaks. -/
def brokenTemplates : List String :=
  [
    -- a markup comment, and the end of one, which is a comment only at the start of a line
    "<% <!-- %>", "<% --> %>",
    -- a comment over several lines that ends a statement
    "<% x /* %><% */ y %>",
    -- the same in a text that stands behind the end of a template, or in its expression
    "<% x = \x60 %>\x60/*<% z %>*/ y /*<% */ %>",
    "<% x = \x60 %>$\x7bfunction()\x7ba/*\\\n<% z %>*/b\x7d\x7d<% \x60 %>",
    -- a statement that ends with the block of names
    "<% \x7d x = function() \x7b %>",
    -- an empty append, without which a comment is left
    "<% /__p += '';/ %>"]

end TemplateBundle.Template

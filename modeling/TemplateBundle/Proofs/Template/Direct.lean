import TemplateBundle.Proofs.Except
import TemplateBundle.Proofs.Template.EmptyEnds

/-!
# Writing functions directly

The rules for empty appends leave exactly the statements that can be written directly from the
layout of a template (`compile_eq_layout`). The code of tags must not use the names that the
statements use, nor hold the empty end of a sum: the rules would find these there as well.
-/

namespace TemplateBundle.Template

variable {rule : Rule}

/-! ## The statements of the pieces -/

/-- A layout as pieces write it, behind the opening of its first literal. -/
def Layout.tail (layout : Layout) : List Char :=
  escapeText layout.start.first ++ sumTail layout.start.sum ++
    layout.others.flatMap fun item => item.1 ++ ";\n".toList ++ item.2.appendAll

theorem tail_text (chars : List Char) (pieces : List Piece) :
    (layout (.text chars :: pieces)).tail = escapeText chars ++ (layout pieces).tail := by
  unfold Layout.tail escapeText
  simp only [layout, List.flatMap_append, List.append_assoc]

theorem tail_escape (code : List Char) (pieces : List Piece) :
    (layout (.code .escape code :: pieces)).tail =
      "' +\n__e(".toList ++ code ++ ") +\n'".toList ++ (layout pieces).tail := by
  unfold Layout.tail
  simp only [layout, sum_tail_cons, Summand.value, if_true, List.append_assoc]
  rfl

theorem tail_interpolate (code : List Char) (pieces : List Piece) :
    (layout (.code .interpolate code :: pieces)).tail =
      "' +\n((__t = (".toList ++ code ++ ")) == null ? '' : __t) +\n'".toList ++
        (layout pieces).tail := by
  have hopening : "' +\n((__t = (".toList = "' +\n".toList ++ "((__t = (".toList := by decide
  have hclosing : ")) == null ? '' : __t) +\n'".toList =
      ")) == null ? '' : __t)".toList ++ " +\n'".toList := by decide
  unfold Layout.tail
  rw [hopening, hclosing]
  simp only [layout, sum_tail_cons, Summand.value, Bool.false_eq_true, if_false, escapeText,
    List.flatMap_nil, List.nil_append, List.append_assoc]

theorem tail_evaluate (code : List Char) (pieces : List Piece) :
    (layout (.code .evaluate code :: pieces)).tail =
      "';\n".toList ++ code ++ ";\n__p += '".toList ++ (layout pieces).tail := by
  unfold Layout.tail
  simp only [layout, List.flatMap_cons]
  unfold Stretch.appendAll
  simp only [List.append_assoc]
  rfl

/-- The induction is on the pieces: each adds to the start of the layout of those behind it. -/
theorem tail_layout (pieces : List Piece) :
    (layout pieces).tail = pieces.flatMap Piece.write ++ "';\n".toList := by
  induction pieces with
  | nil => rfl
  | cons piece pieces ih =>
      rw [List.flatMap_cons, List.append_assoc, ← ih]
      cases piece with
      | text chars => exact tail_text chars pieces
      | code tag code =>
          cases tag with
          | escape => exact tail_escape code pieces
          | interpolate => exact tail_interpolate code pieces
          | evaluate => exact tail_evaluate code pieces

theorem statements_eq (pieces : List Piece) :
    statements pieces = (layout pieces).text Stretch.appendAll := by
  have htail := tail_layout pieces
  unfold statements
  rw [List.append_assoc, ← htail]
  unfold Layout.tail Layout.text Stretch.appendAll
  simp only [List.append_assoc]

/-- The layout of pieces has code that is run if one of the pieces does. -/
theorem evaluates_layout (pieces : List Piece) :
    (layout pieces).evaluates = pieces.any Piece.isStatement := by
  unfold Layout.evaluates
  induction pieces with
  | nil => rfl
  | cons piece pieces ih =>
      rw [List.any_cons, ← ih]
      cases piece with
      | text chars => rfl
      | code tag code => cases tag <;> rfl

/-! ## The rules on a layout -/

/-- The rules keep all code of the layout. -/
structure Layout.IsSpared (layout : Layout) : Prop where
  start : AllSpared layout.start.sum
  others : ∀ item ∈ layout.others, Template.IsSpared item.1 ∧ AllSpared item.2.sum

/-- The code of a piece is plain. -/
def Piece.IsPlain : Piece → Prop
  | .text _ => True
  | .code _ chars => Template.IsPlain chars

instance : DecidablePred Piece.IsPlain
  | .text _ => isTrue trivial
  | .code _ chars => inferInstanceAs (Decidable (Template.IsPlain chars))

/-- The rules keep the code of a piece. -/
def Piece.IsSpared : Piece → Prop
  | .text _ => True
  | .code _ chars => Template.IsSpared chars

theorem Piece.IsPlain.spared {piece : Piece} (h : piece.IsPlain) : piece.IsSpared := by
  cases piece with
  | text chars => trivial
  | code tag chars => exact Template.IsPlain.spared h

theorem is_spared_layout {pieces : List Piece} (h : ∀ piece ∈ pieces, piece.IsSpared) :
    (layout pieces).IsSpared := by
  induction pieces with
  | nil => exact ⟨by simp [layout, AllSpared], by simp [layout]⟩
  | cons piece pieces ih =>
      obtain ⟨hstart, hothers⟩ := ih fun other hother => h other (List.mem_cons_of_mem _ hother)
      have hpiece := h piece List.mem_cons_self
      cases piece with
      | text chars => exact ⟨hstart, hothers⟩
      | code tag code =>
          cases tag with
          | escape => exact ⟨List.forall_mem_cons.mpr ⟨hpiece, hstart⟩, hothers⟩
          | interpolate => exact ⟨List.forall_mem_cons.mpr ⟨hpiece, hstart⟩, hothers⟩
          | evaluate => exact ⟨nofun, List.forall_mem_cons.mpr ⟨⟨hpiece, hstart⟩, hothers⟩⟩

/-- Where a rule keeps code and turns each stretch of a layout, it turns the layout. -/
theorem turns_layout (hcode : ∀ code, IsSpared code →
    Turns rule (code ++ ";\n".toList) (code ++ ";\n".toList))
    {layout : Layout} (hspared : layout.IsSpared) {old new : Stretch → List Char}
    (h : ∀ stretch : Stretch, AllSpared stretch.sum → Turns rule (old stretch) (new stretch)) :
    Turns rule (layout.text old) (layout.text new) := by
  refine .append (h _ hspared.start) (.flat_map fun item hmem => ?_)
  obtain ⟨hitem, hsum⟩ := hspared.others item hmem
  exact (hcode _ hitem).append (h _ hsum)

/-- A text that no rule changes, wherever it stands. -/
def IsFrame (text : List Char) : Prop :=
  ∀ rule, Headed rule → Turns rule text text

/-- The rules leave the statements for the layout, also with a frame around them. -/
theorem without_empty_layout {layout : Layout} (hspared : layout.IsSpared)
    {front back : List Char}
    (hfront : IsFrame front) (hback : IsFrame back) :
    withoutEmpty layout.evaluates (front ++ layout.text Stretch.appendAll ++ back) =
      front ++ layout.write ++ back := by
  have happly : ∀ {rule : Rule} {old new : Stretch → List Char}, Headed rule →
      (∀ code, IsSpared code → Turns rule (code ++ ";\n".toList) (code ++ ";\n".toList)) →
      (∀ stretch : Stretch, AllSpared stretch.sum → Turns rule (old stretch) (new stretch)) →
      rule.apply (front ++ layout.text old ++ back) = front ++ layout.text new ++ back :=
    fun hheaded hcode h => (((hfront _ hheaded).append (turns_layout hcode hspared h)).append
      (hback _ hheaded)).apply
  -- the first rule runs only where code is run; otherwise nothing is left out at this step
  have hkept : (if layout.evaluates then
        Rule.apply emptyStatement (front ++ layout.text Stretch.appendAll ++ back)
      else front ++ layout.text Stretch.appendAll ++ back) =
      front ++ layout.text (Stretch.kept layout.evaluates) ++ back := by
    cases layout.evaluates with
    | true =>
        exact happly looks_for_empty_statement.headed
          (fun _ => looks_for_empty_statement.turns_code) fun _ => turns_empty_statement
    | false => rfl
  have hopened := happly looks_for_empty_first.headed (fun _ => looks_for_empty_first.turns_code)
    fun _ hsum => turns_empty_first hsum layout.evaluates
  have hwritten := happly headed_empty_last (fun _ => turns_last_code)
    fun _ hsum => turns_empty_last hsum layout.evaluates
  unfold withoutEmpty
  rw [hkept]
  show emptyLast.apply (emptyFirst.apply _) = _
  rw [hopened, hwritten]
  rfl

theorem is_frame_nil : IsFrame [] := fun _ _ => .nil

theorem is_frame_of_lines {text : List Char} (h : '_' ∉ text) (hend : EndsWords text) :
    IsFrame text :=
  fun _ hheaded => .of_quiet (fun _ => quiet_of_no_underscore hheaded h) hend

/-- The text of the function is the one that is written directly from the layout. -/
theorem function_text_of_spared {pieces : List Piece} (dataName : Option String)
    (hspared : ∀ piece ∈ pieces, piece.IsSpared) :
    functionText dataName pieces = (layout pieces).functionText dataName := by
  have hlayout := is_spared_layout hspared
  unfold functionText Layout.functionText
  rw [statements_eq, ← evaluates_layout]
  cases dataName with
  | some name =>
      have hwritten := without_empty_layout hlayout is_frame_nil is_frame_nil
      simp only [List.nil_append, List.append_nil] at hwritten
      simp only [Option.getD_some, hwritten, List.append_nil]
  | none =>
      have hfront : IsFrame ("with (".toList ++ standardVariable.toList ++ ") \x7b\n".toList) :=
        is_frame_of_lines (by decide) ⟨'\n', by decide, by decide⟩
      have hback : IsFrame "\n\x7d\n".toList :=
        is_frame_of_lines (by decide) ⟨'\n', by decide, by decide⟩
      simp only [Option.getD_none, without_empty_layout hlayout hfront hback]
      simp only [List.append_assoc]
      rfl

theorem function_text_eq {pieces : List Piece} (dataName : Option String)
    (hplain : ∀ piece ∈ pieces, piece.IsPlain) :
    functionText dataName pieces = (layout pieces).functionText dataName :=
  function_text_of_spared dataName fun piece hmem => (hplain piece hmem).spared

/-- A template that compiles is written as a function, which passes the check. -/
theorem source_of_compile {settings : TemplateSettings} {template source : String}
    (h : compile settings template = .ok source) :
    ∃ tags dataName, TagPattern.ofSettings settings = .ok tags ∧
      variableOf? settings = .ok dataName ∧
      source.toList = functionText dataName (pieces tags template) ∧ Script.check source = none := by
  obtain ⟨tags, htags, h⟩ := except_bind_ok_iff.mp h
  obtain ⟨dataName, hvariable, h⟩ := except_bind_ok_iff.mp h
  refine ⟨tags, dataName, htags, hvariable, ?_⟩
  cases hcheck : Script.check (String.ofList (functionText dataName (pieces tags template))) with
  | none =>
      simp only [hcheck, except_pure_ok_iff] at h
      rw [← h, String.toList_ofList]
      exact ⟨rfl, hcheck⟩
  | some line =>
      simp only [hcheck] at h
      exact absurd h except_throw_ne_ok

/-- A template compiles to the function that is written directly from its layout, if the code of its
tags is plain. -/
theorem compile_eq_layout {settings : TemplateSettings} {template source : String}
    {tags : TagPattern} {dataName : Option String}
    (htags : TagPattern.ofSettings settings = .ok tags)
    (hname : variableOf? settings = .ok dataName)
    (hplain : ∀ piece ∈ pieces tags template, piece.IsPlain)
    (hcompile : compile settings template = .ok source) :
    source.toList = (layout (pieces tags template)).functionText dataName := by
  obtain ⟨foundTags, foundName, htags', hname', hsource, -⟩ := source_of_compile hcompile
  obtain rfl := Except.ok.inj (htags.symm.trans htags')
  obtain rfl := Except.ok.inj (hname.symm.trans hname')
  rw [hsource, function_text_eq dataName hplain]

/-- A template that is a single value. -/
theorem compile_value :
    ∃ source, compile { dataName := some "d" } "<%-d%>" = .ok source ∧
      source.toList = Layout.functionText (some "d") ⟨⟨[], [⟨true, ['d'], []⟩]⟩, []⟩ := by
  have hpieces : (TagPattern.ofSettings { dataName := some "d" }).toOption.map (pieces · "<%-d%>") =
      some [.text [], .code .escape ['d'], .text []] := by
    decide +kernel
  have hcompiles : (compile { dataName := some "d" } "<%-d%>").toOption.isSome = true := by
    decide +kernel
  obtain ⟨tags, htags, hpieces⟩ := Option.map_eq_some_iff.mp hpieces
  obtain ⟨source, hsource⟩ := Option.isSome_iff_exists.mp hcompiles
  have hcompile := except_ok_iff_to_option.mpr hsource
  have hplain : ∀ piece ∈ pieces tags "<%-d%>", piece.IsPlain := by
    rw [hpieces]
    decide
  have hname : variableOf? { dataName := some "d" } = .ok (some "d") := by rfl
  refine ⟨source, hcompile, ?_⟩
  rw [compile_eq_layout (except_ok_iff_to_option.mpr htags) hname hplain hcompile, hpieces]
  rfl

end TemplateBundle.Template

import TemplateBundle.Proofs.Template.PlainText

/-!
# Templates with a variable

Settings may name the parameter of the functions. They are refused if the name is not written like a
variable (`validate_invalid_iff`), but every word of such letters is accepted, also one that is
reserved in scripts. Under a variable that is not reserved each text without tags compiles; under a
reserved one no template does (`compile_named`, `reserved_variable_accepted`).
-/

namespace TemplateBundle.Template

open Script Script.Reading Script.Shown

variable {settings : TemplateSettings} {name : String}

/-! ## Settings -/

theorem is_variable_name_eq (name : String) : isVariableName name = isWord name.toList := by
  unfold isVariableName
  cases name.toList with
  | nil => rfl
  | cons c others => rfl

/-- The variable of settings is written like one. -/
theorem variable_of_eq_some_iff : variableOf? settings = .ok (some name) ↔
    settings.dataName = some name ∧ isVariableName name = true := by
  have hempty : isVariableName "" = false := rfl
  unfold variableOf?
  grind

theorem variable_of_eq_error_iff {fault : CompileFault} : variableOf? settings = .error fault ↔
    ∃ name, settings.dataName = some name ∧ name ≠ "" ∧ isVariableName name = false ∧
      fault = .invalidVariable name := by
  unfold variableOf?
  grind

/-- Settings whose delimiters are right are refused exactly for a name that is no variable. -/
theorem validate_invalid_iff {tags : TagPattern} {fault : CompileFault}
    (htags : TagPattern.ofSettings settings = .ok tags) :
    Compiler.tags.validate settings = .error fault ↔
      ∃ name, settings.dataName = some name ∧ name ≠ "" ∧ isVariableName name = false ∧
        fault = .invalidVariable name := by
  rw [← variable_of_eq_error_iff]
  show (TagPattern.ofSettings settings >>= fun _ => variableOf? settings >>= fun _ => pure ()) = _ ↔ _
  rw [htags]
  cases variableOf? settings with
  | ok found => exact iff_of_false nofun nofun
  | error other =>
      show (Except.error other : Except CompileFault Unit) = .error fault ↔ _
      rw [Except.error.injEq, Except.error.injEq]

/-! ## Functions -/

/-- The function with no statement. -/
def emptyFunction (name : String) : List Char :=
  functionOf name "\n\x7d".toList

/-- The body of the function of a text, statement by statement. -/
def namedBody (text : List Char) : List Char :=
  "\nvar __t, __p = '', __e = _.escape;".toList ++ ("\n__p += '".toList ++ (escapeText text ++
    ("';".toList ++ ("\nreturn __p".toList ++ "\n\x7d".toList))))

/-- The function of a text whose parameter is the variable. -/
def namedFunction (name : String) (text : List Char) : List Char :=
  functionOf name (namedBody text)

/-- The tokens of the statements in this function, and others behind them. -/
def namedTokens (written : List Char) (behind : List Shown) : List Shown :=
  word "var" :: word "__t" :: sign "," :: word "__p" :: sign "=" :: string [] :: sign "," ::
    word "__e" :: sign "=" :: word "_" :: sign "." :: word "escape" :: sign ";" ::
    word "__p" :: sign "+=" :: string written :: sign ";" ::
    word "return" :: (word "__p").onLine :: behind

theorem spells_named_body (text : List Char) {rest : List Char} {behind : List Shown}
    (h : Spells rest behind) :
    Spells (namedBody text ++ rest) (namedTokens (text.map keptChar) (sign "\x7d" :: behind)) := by
  have hclosing : Spells ("\n\x7d".toList ++ rest) (sign "\x7d" :: behind) :=
    spells_line_end rfl (spells_sign "\x7d" rfl rfl h)
  have hresult := spells_result rfl hclosing
  unfold namedBody
  simp only [List.append_assoc]
  refine spells_variables ?_
  simp only [String.reduceToList, List.cons_append, List.nil_append] at hresult ⊢
  refine spells_line_end rfl (spells_word "__p" rfl rfl ?_)
  refine spells_blank (spells_sign "+=" rfl rfl ?_)
  exact spells_blank (spells_literal text (spells_sign ";" rfl rfl hresult))

theorem empty_function_is_value (hword : isVariableName name = true)
    (hname : isReserved name = false) :
    IsValue (emptyFunction name) 2 (word "function") (functionTokens name id) :=
  function_is_value 0 (is_variable_name_eq name ▸ hword) hname (by decide)
    (fun hrest => spells_line_end rfl (spells_sign "\x7d" rfl rfl hrest)) (.nil _)

theorem named_function_is_value (hword : isVariableName name = true)
    (hname : isReserved name = false) (text : List Char) :
    IsValue (namedFunction name text) 5 (word "function")
      (functionTokens name (namedTokens (text.map keptChar))) := by
  refine function_is_value 3 (is_variable_name_eq name ▸ hword) hname (by decide)
    (spells_named_body text) ?_
  intro depth behind
  have hadding : ReadsStatement (read (depth + 4))
      (word "__p" :: sign "+=" :: string (text.map keptChar) :: sign ";" :: word "return" ::
        (word "__p").onLine :: sign "\x7d" :: behind)
      (word "return" :: (word "__p").onLine :: sign "\x7d" :: behind) :=
    ⟨_, _, rfl, rfl, fun context hcontext => reads_adding _ context hcontext.toIsPlain⟩
  exact .cons reads_variables <| .cons hadding <| .cons reads_result <| .nil _

theorem nine_le_extent_function (name : String) (body : List Char) :
    9 ≤ extent (functionOf name body) := by
  have hhead : extent "function(".toList = 9 := by decide
  exact hhead ▸ (List.sublist_append_left "function(".toList _).countP_le

/-- The function of a piece of text, with the variable for its parameter. -/
theorem function_text_named (name : String) (text : List Char) :
    functionText (some name) [.text text] = namedFunction name text := by
  have hplain : ∀ piece ∈ [Piece.text text], piece.IsPlain := by
    intro piece hmem
    rw [List.mem_singleton.mp hmem]
    exact trivial
  rw [function_text_eq (some name) hplain]
  unfold namedFunction functionOf namedBody layout Layout.functionText Layout.write Layout.text
    declarations Layout.evaluates Stretch.write quoted
  simp [layout, List.append_assoc]

/-- Each function that is written with the variable has it in front of its body. -/
theorem function_text_head (name : String) (pieces : List Piece) : ∃ rest,
    functionText (some name) pieces = "function(".toList ++ (name.toList ++ ')' :: rest) := by
  unfold functionText
  simp only [Option.getD_some, List.append_assoc, String.reduceToList, List.cons_append,
    List.nil_append]
  exact ⟨_, rfl⟩

/-! ## Templates -/

/-- The settings are valid and name a variable. Unless its name is a reserved word it may stand for
the parameter of a function, and each template in which no tag is found compiles. Otherwise no
function may have such a parameter, and no template at all compiles. -/
theorem compile_named (hvalid : Compiler.tags.validate settings = .ok ())
    (hvariable : variableOf? settings = .ok (some name)) :
    (isReserved name = false → check (String.ofList (emptyFunction name)) = none ∧
      ∀ template, (∀ tags, TagPattern.ofSettings settings = .ok tags → tags.FindsNone template) →
        compile settings template = .ok (String.ofList (namedFunction name template.toList))) ∧
    (isReserved name = true → (∃ line, check (String.ofList (emptyFunction name)) = some line) ∧
      ∀ template, ∃ line, compile settings template = .error (.invalidScript line)) := by
  obtain ⟨tags, htags⟩ := tags_of_valid hvalid
  have hword := (variable_of_eq_some_iff.mp hvariable).2
  constructor
  · intro hname
    -- the check has steps enough for the function
    have hextent (body : List Char) {height : Nat} (hheight : height ≤ 9) :
        height ≤ extent (functionOf name body) :=
      hheight.trans (nine_le_extent_function name body)
    have hempty := empty_function_is_value hword hname
    refine ⟨hempty.check_none (hextent _ (by decide)) (hextent _ (by decide)), ?_⟩
    intro template hnone
    have htext : functionText (some name) (pieces tags template) =
        namedFunction name template.toList := by
      rw [pieces_of_none (hnone tags htags), function_text_named]
    have hvalue := named_function_is_value hword hname template.toList
    exact compile_of_check htags hvariable htext
      (hvalue.check_none (hextent _ (by decide)) (hextent _ (by decide)))
  · intro hname
    have hrefused := reserved_parameter_refused (is_variable_name_eq name ▸ hword) hname
    refine ⟨hrefused _, fun template => ?_⟩
    obtain ⟨rest, hhead⟩ := function_text_head name (pieces tags template)
    obtain ⟨line, hcheck⟩ := hrefused rest
    exact ⟨line, compile_of_fault htags hvariable hhead hcheck⟩

/-- Where a template compiles the parameter of its function is a word that is not reserved. -/
theorem parameter_of_compile {template source : String} {dataName : Option String}
    (hvariable : variableOf? settings = .ok dataName)
    (hcompile : compile settings template = .ok source) :
    isWord (dataName.getD standardVariable).toList = true ∧
      isReserved (dataName.getD standardVariable) = false := by
  cases dataName with
  | none => exact ⟨by decide, by decide⟩
  | some name =>
      have hword := (variable_of_eq_some_iff.mp hvariable).2
      rw [is_variable_name_eq] at hword
      refine ⟨hword, Bool.eq_false_iff.mpr fun hname => ?_⟩
      obtain ⟨tags, found, -, hfound, htext, hcheck⟩ := source_of_compile hcompile
      obtain rfl := Except.ok.inj (hvariable.symm.trans hfound)
      obtain ⟨rest, hhead⟩ := function_text_head name (pieces tags template)
      obtain ⟨line, hline⟩ := reserved_parameter_refused hword hname rest
      rw [← hhead, ← htext, String.ofList_toList] at hline
      exact nomatch hcheck.symm.trans hline

/-- A reserved word is accepted as a variable, although no template compiles under it. -/
theorem reserved_variable_accepted :
    Compiler.tags.validate { dataName := some "class" } = .ok () ∧
      check "function(class) \x7b\n\x7d" ≠ none ∧
      ∀ template, ∃ line,
        compile { dataName := some "class" } template = .error (.invalidScript line) := by
  have hvalid : (Compiler.tags.validate { dataName := some "class" }).toOption = some () := by
    decide +kernel
  obtain ⟨⟨line, hcheck⟩, hnone⟩ :=
    (compile_named (except_ok_iff_to_option.mpr hvalid) rfl).2 (by decide)
  exact ⟨except_ok_iff_to_option.mpr hvalid, Option.ne_none_iff_exists'.mpr ⟨line, hcheck⟩, hnone⟩

end TemplateBundle.Template

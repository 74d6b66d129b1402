import TemplateBundle.Proofs.Script.Lockstep.Heads
import TemplateBundle.Proofs.Template.PlainText

/-!
# Functions that run code

The function of a template that runs code declares `print` before all that depends on the template. So
two such functions start with the same tokens, up to the brace that closes `print`, whether their
lines are broken there or not (`fault_none_of_printing`).
-/

namespace TemplateBundle.Template

open Script Script.Reading Script.Shown

variable {depth : Nat} {tokens : List Shown} {rest gap : List Char} {name : String}

/-! ## The declaration of `print` -/

/-- The tokens in the body of `print`. -/
def collectingTokens : List Shown :=
  [word "__p", sign "+=", word "__j", sign ".", word "call", sign "(", word "arguments", sign ",",
    string [], sign ")"]

/-- The tokens from the declaration of `print` up to the end of its body. -/
def printTokens : List Shown :=
  word "function" :: word "print" :: sign "(" :: sign ")" :: sign "\x7b" :: collectingTokens

/-- The tokens from the variables of the function up to the end of the body of `print`. -/
def variableTokens : List Shown :=
  word "var" :: word "__t" :: sign "," :: word "__p" :: sign "=" :: string [] :: sign "," ::
    word "__e" :: sign "=" :: word "_" :: sign "." :: word "escape" :: sign "," ::
    word "__j" :: sign "=" :: word "Array" :: sign "." :: word "prototype" :: sign "." ::
    word "join" :: sign ";" :: printTokens

/-- The statement in `print` ends with its body. -/
theorem reads_collecting : ReadsAhead (read (depth + 4)) collectingTokens [] := by
  intro rest
  have hname : ReadsArgument (read (depth + 1))
      (word "arguments" :: sign "," :: string [] :: sign ")" :: [closing rest])
      (string [] :: sign ")" :: [closing rest]) :=
    ⟨_, _, rfl, rfl, rfl, .inl (reads_name (by decide) (by decide))⟩
  have hempty : ReadsArgument (read (depth + 1)) (string [] :: sign ")" :: [closing rest])
      (sign ")" :: [closing rest]) :=
    ⟨_, _, rfl, rfl, rfl, .inr ⟨_, rfl, fun _ hcontext =>
      reads_assignment_string hcontext (by decide)⟩⟩
  have hcall : ReadsPlain (read (depth + 2)) .assignment
      (word "__j" :: sign "." :: word "call" :: sign "(" :: word "arguments" :: sign "," ::
        string [] :: sign ")" :: [closing rest]) [closing rest] fun term =>
          term.coverFault = none :=
    fun context hcontext => reads_assignment_chain 2 (by decide) hcontext (by decide) rfl
      (.cons reads_subscript_field
        (.cons (reads_subscript_call 2 (by decide) (.cons hname (.cons hempty (.nil _))))
          (.nil _))) (show Token.IsOneOf valueEnds (.sign "\x7d") by decide)
  have hadd : ReadsPlain (read (depth + 3)) .assignment (collectingTokens ++ [closing rest])
      [closing rest] fun term => term.coverFault = none ∧ term.IsNoDirective := by
    intro context hcontext
    refine (reads_assignment_plus hcontext (by decide) hcall).mono ?_
    rintro _ ⟨line, rfl⟩
    exact ⟨rfl, nofun⟩
  refine ⟨_, _, rfl, rfl, fun context hcontext => ?_⟩
  exact reads_statement_word (by decide) rfl (reads_expression_statement
    hcontext.settled rfl hadd (reads_semicolon_none rfl rfl))

theorem reads_printing_variables : ReadsAhead (read (depth + 5)) variableTokens printTokens := by
  intro rest
  have hjoin (tokens : List Shown) : ReadsPlain (read (depth + 4)) .assignment
      (word "Array" :: sign "." :: word "prototype" :: sign "." :: word "join" :: sign ";" :: tokens)
      (sign ";" :: tokens) fun term => term.coverFault = none :=
    fun context hcontext => reads_assignment_chain 2 (by decide) hcontext (by decide) rfl
      (.cons reads_subscript_field (.cons reads_subscript_field (.nil _))) (by decide)
  have hdeclarator (tokens : List Shown) : ReadsDeclarator (read (depth + 4))
      (word "__j" :: sign "=" :: word "Array" :: sign "." :: word "prototype" :: sign "." ::
        word "join" :: sign ";" :: tokens) (sign ";" :: tokens) :=
    fun context hcontext => reads_declarator hcontext (reads_declared_name (by decide))
      ((reads_initializer hcontext (hjoin tokens)).mono fun _ _ => trivial)
  exact reads_variables_and 1 (by decide) (by decide) (.cons ⟨_, rfl, hdeclarator _⟩ (.nil _))

/-- The text from the variables up to the end of the body of `print`. -/
def variableText (gap : List Char) : List Char :=
  "var __t, __p = '', __e = _.escape".toList ++ (", __j = Array.prototype.join;".toList ++
    (gap ++ "function print() \x7b __p += __j.call(arguments, '') ".toList))

theorem spells_variable_text (hgap : gap = [] ∨ gap = ['\n']) (rest : List Char) :
    Spells (variableText gap ++ '\x7d' :: rest) (variableTokens ++ [closing rest]) := by
  have hprint : Spells ("function print() \x7b __p += __j.call(arguments, '') ".toList ++
      '\x7d' :: rest) (printTokens ++ [closing rest]) := by
    simp only [String.reduceToList, List.cons_append, List.nil_append]
    refine spells_word "function" rfl rfl ?_
    refine spells_blank (spells_word "print" rfl rfl ?_)
    refine spells_sign "(" rfl rfl ?_
    refine spells_sign ")" rfl rfl ?_
    refine spells_blank (spells_sign "\x7b" rfl rfl ?_)
    refine spells_blank (spells_word "__p" rfl rfl ?_)
    refine spells_blank (spells_sign "+=" rfl rfl ?_)
    refine spells_blank (spells_word "__j" rfl rfl ?_)
    refine spells_sign "." rfl rfl ?_
    refine spells_word "call" rfl rfl ?_
    refine spells_sign "(" rfl rfl ?_
    refine spells_word "arguments" rfl rfl ?_
    refine spells_sign "," rfl rfl ?_
    refine spells_blank (spells_literal [] ?_)
    refine spells_sign ")" rfl rfl ?_
    exact spells_blank (spells_closing rest)
  have hbehind := spells_gap hgap rfl hprint
  unfold variableText
  simp only [List.append_assoc]
  refine spells_variables_and rfl ?_
  simp only [String.reduceToList, List.cons_append, List.nil_append] at hbehind ⊢
  refine spells_sign "," rfl rfl ?_
  refine spells_blank (spells_word "__j" rfl rfl ?_)
  refine spells_blank (spells_sign "=" rfl rfl ?_)
  refine spells_blank (spells_word "Array" rfl rfl ?_)
  refine spells_sign "." rfl rfl ?_
  refine spells_word "prototype" rfl rfl ?_
  refine spells_sign "." rfl rfl ?_
  refine spells_word "join" rfl rfl ?_
  exact spells_sign ";" rfl rfl hbehind

/-! ## The function around it -/

/-- The tokens in the body of the function, up to the end of the body of `print`. -/
def bodyTokens (dataName : Option String) : List Shown :=
  match dataName with
  | some _ => variableTokens
  | none => word "obj" :: sign "||" :: sign "(" :: word "obj" :: sign "=" :: sign "\x7b" ::
      sign "\x7d" :: sign ")" :: sign ";" :: variableTokens

/-- The text in the body of the function, up to the end of the body of `print`. -/
def bodyText (gap : List Char) (dataName : Option String) : List Char :=
  match dataName with
  | some _ => variableText gap
  | none => "obj || (obj = \x7b\x7d);".toList ++ (gap ++ variableText gap)

/-- The tokens of the function, up to the end of the body of `print`. -/
def printingTokens (dataName : Option String) : List Shown :=
  sign "(" :: word "function" :: sign "(" :: word (dataName.getD standardVariable) :: sign ")" ::
    sign "\x7b" :: bodyTokens dataName

/-- The text of the function, up to the end of the body of `print`. -/
def printingText (gap : List Char) (dataName : Option String) : List Char :=
  "(function(".toList ++ ((dataName.getD standardVariable).toList ++ (") \x7b".toList ++
    (gap ++ bodyText gap dataName)))

theorem spells_body_text (hgap : gap = [] ∨ gap = ['\n']) (dataName : Option String)
    (rest : List Char) :
    Spells (gap ++ (bodyText gap dataName ++ '\x7d' :: rest))
      (bodyTokens dataName ++ [closing rest]) := by
  have hvariables := spells_gap hgap rfl (spells_variable_text hgap rest)
  cases dataName with
  | some _ => exact hvariables
  | none =>
      unfold bodyText
      rw [List.append_assoc, List.append_assoc]
      exact spells_gap hgap rfl (spells_fallback hvariables)

theorem spells_printing_text (hgap : gap = [] ∨ gap = ['\n']) {dataName : Option String}
    (hname : isWord (dataName.getD standardVariable).toList = true) (rest : List Char) :
    Spells (printingText gap dataName ++ '\x7d' :: rest)
      (printingTokens dataName ++ [closing rest]) := by
  have hbody := spells_body_text hgap dataName rest
  unfold printingText
  simp only [String.reduceToList, List.append_assoc, List.cons_append, List.nil_append]
  refine spells_sign "(" rfl rfl ?_
  refine spells_word "function" rfl rfl ?_
  refine spells_sign "(" rfl rfl ?_
  refine spells_word _ hname rfl ?_
  refine spells_sign ")" rfl rfl ?_
  exact spells_blank (spells_sign "\x7b" rfl rfl hbody)

/-- The statements in front of `print`. -/
theorem reads_body_tokens (dataName : Option String) : ∃ count,
    ∀ depth, Series (ReadsAhead (read (depth + 5))) count (bodyTokens dataName) printTokens := by
  cases dataName with
  | some _ => exact ⟨1, fun _ => .cons reads_printing_variables (.nil _)⟩
  | none =>
      have hfallback (depth : Nat) :
          ReadsAhead (read (depth + 5)) (bodyTokens none) variableTokens :=
        fun rest => reads_fallback_object
      exact ⟨2, fun depth => .cons (hfallback depth) (.cons reads_printing_variables (.nil _))⟩

/-- The parsers lead through the function to behind `print`. -/
theorem leads_printing {pairing : Pairing} {rest rest' : List Char} {size : Nat}
    {dataName : Option String} (hsize : 8 ≤ size)
    (hplaces : ∀ line line', pairing.places false ⟨rest, line⟩ ⟨rest', line'⟩)
    (hname : isReserved (dataName.getD standardVariable) = false) :
    pairing.Leads (Ahead rest rest' (printingTokens dataName)) false (script size) (script size)
      NoState := by
  obtain ⟨depth, hdepth⟩ : ∃ depth, 3 * size = depth + 5 := ⟨3 * size - 5, by omega⟩
  obtain ⟨count, hparts⟩ := reads_body_tokens dataName
  have hprint (context : Context) (hcontext : context.IsBody) :
      pairing.Leads (Ahead rest rest' printTokens) false
        (statement (read (depth + 4)) context .list) (statement (read (depth + 4)) context .list)
        Term.Alike := by
    refine ahead_declaration hcontext.toIsPlain (by decide) fun context hcontext => ?_
    refine ahead_function_rest hcontext (fun _ => reads_parameters_none) fun context hcontext => ?_
    exact ahead_body_end hcontext hplaces (.cons reads_collecting (.nil _))
  refine ahead_script hsize rfl rfl fun context hcontext => ?_
  rw [hdepth]
  refine ahead_assignment_function hcontext (keeps_parts (depth + 5)) ?_
  refine ahead_function_rest hcontext (fun _ => reads_parameter hname) fun context hcontext => ?_
  exact ahead_body hcontext (keeps_parts (depth + 5)) (hparts depth) rfl hprint

/-- Where no fault is found in a function that runs code, none is found in it if its lines are not
broken up to `print` and it goes on in step behind. -/
theorem fault_none_of_printing {pairing : Pairing} {gap gap' rest rest' : List Char}
    {dataName : Option String} (hgap : gap = [] ∨ gap = ['\n'])
    (hgap' : gap' = [] ∨ gap' = ['\n'])
    (hplaces : ∀ line line', pairing.places false ⟨rest, line⟩ ⟨rest', line'⟩)
    (hextent : extent (printingText gap dataName ++ '\x7d' :: rest) =
      extent (printingText gap' dataName ++ '\x7d' :: rest'))
    (hword : isWord (dataName.getD standardVariable).toList = true)
    (hname : isReserved (dataName.getD standardVariable) = false)
    (h : fault? (printingText gap dataName ++ '\x7d' :: rest) = none) :
    fault? (printingText gap' dataName ++ '\x7d' :: rest') = none := by
  have hsize : 8 ≤ extent (printingText gap dataName ++ '\x7d' :: rest) := by
    unfold printingText extent
    simp only [String.reduceToList, List.cons_append, List.nil_append, List.countP_cons]
    simp
  exact fault_none_of_ahead (spells_printing_text hgap hword rest)
    (spells_printing_text hgap' hword rest') hextent (leads_printing hsize hplaces hname) h

end TemplateBundle.Template

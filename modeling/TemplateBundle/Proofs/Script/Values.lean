import TemplateBundle.Proofs.Script.Parameters

/-!
# Texts that are values

A text that is read as one value, whatever stands behind it, passes the check for a function
(`IsValue.check_none`). A function with one parameter is such a value (`function_is_value`). So is a
function that assigns such a text to a name (`IsValue.assigned`); it passes the check as well.
-/

namespace TemplateBundle.Script

open Reading Shown

/-- The text is read as one value, whatever stands behind it: as a first token with others, between
which and the rest nothing is lost. Its parts hold each other less than `height` deep. -/
structure IsValue (text : List Char) (height : Nat) (first : Shown)
    (others : List Shown → List Shown) : Prop where
  spells : ∀ {rest : List Char} {behind : List Shown}, Spells rest behind →
    Spells (text ++ rest) (first :: others behind)
  reads : ∀ {depth : Nat} {follower : Shown} {behind : List Shown},
    follower.token.IsOneOf valueEnds →
      ReadsPlain (read (depth + height)) .assignment (first :: others (follower :: behind))
        (follower :: behind) fun term => term.coverFault = none
  not_closed : (first.token == .sign ")") = false
  not_spread : (first.token == .sign "...") = false

namespace IsValue

variable {text : List Char} {height : Nat} {first : Shown} {others : List Shown → List Shown}

/-- The text is right between parentheses. -/
theorem check_none (h : IsValue text height first others) (hsize : 6 ≤ extent text)
    (hheight : height ≤ extent text) : check (String.ofList text) = none := by
  have hextent : extent (wrap text) = extent text + 2 := by
    simp [extent, wrap]
  have hend : Spells ['\n', ')'] [sign ")", stop] :=
    spells_line_end rfl (spells_sign ")" rfl rfl spells_stop)
  have hspells : Spells (wrap text) (sign "(" :: first :: others [sign ")", stop]) :=
    spells_sign "(" rfl rfl (h.spells hend)
  -- a group and a statement of an expression are around the value
  obtain ⟨depth, hdepth⟩ : ∃ depth, 3 * extent (wrap text) + 3 = depth + height + 2 :=
    ⟨3 * extent (wrap text) + 1 - height, by omega⟩
  have hgroup : ReadsPlain (read (depth + height + 1)) .assignment
      (sign "(" :: first :: others [sign ")", stop]) [stop] fun term =>
        term.coverFault = none ∧ anything term := by
    intro context hcontext
    refine (reads_assignment_group hcontext h.not_closed h.not_spread (by decide)
      (h.reads (by decide))).mono ?_
    rintro _ ⟨line, item, rfl⟩
    exact ⟨rfl, trivial⟩
  have hstatement : ReadsPlain (read (3 * extent (wrap text) + 3)) (.statement · .list)
      (sign "(" :: first :: others [sign ")", stop]) [stop] anything := by
    rw [hdepth]
    exact fun context hcontext => reads_statement_group
      (reads_expression_statement hcontext.settled rfl hgroup (reads_semicolon_none rfl rfl))
  unfold check
  rw [String.toList_ofList]
  exact fault_none hspells (reads_script (by omega) rfl hstatement)

end IsValue

/-! ## Functions -/

/-- The text of a function with one parameter. Its body goes up to the closing brace. -/
def functionOf (name : String) (body : List Char) : List Char :=
  "function(".toList ++ (name.toList ++ (") \x7b".toList ++ body))

/-- The tokens of such a function behind its first one. -/
def functionTokens (name : String) (statements : List Shown → List Shown) (behind : List Shown) :
    List Shown :=
  sign "(" :: word name :: sign ")" :: sign "\x7b" :: statements (sign "\x7d" :: behind)

/-- A function with a parameter that is named by no reserved word is a value, if its body holds a
few statements and no directive. -/
theorem function_is_value {name : String} {body : List Char}
    {statements : List Shown → List Shown} {height : Nat} (count : Nat)
    (hword : isWord name.toList = true) (hname : isReserved name = false) (hcount : count < 8)
    (hspells : ∀ {rest : List Char} {behind : List Shown}, Spells rest behind →
      Spells (body ++ rest) (statements (sign "\x7d" :: behind)))
    (hreads : ∀ {depth : Nat} {behind : List Shown},
      Series (ReadsStatement (read (depth + (height + 1)))) count
        (statements (sign "\x7d" :: behind)) (sign "\x7d" :: behind)) :
    IsValue (functionOf name body) (height + 2) (word "function")
      (functionTokens name statements) where
  spells := by
    intro rest behind hrest
    unfold functionOf functionTokens
    simp only [String.reduceToList, List.cons_append, List.nil_append, List.append_assoc]
    refine spells_word "function" rfl rfl ?_
    refine spells_sign "(" rfl rfl ?_
    refine spells_word name hword rfl ?_
    refine spells_sign ")" rfl rfl ?_
    exact spells_blank (spells_sign "\x7b" rfl rfl (hspells hrest))
  reads := by
    intro depth follower behind hend context hcontext
    have hbody (context : Context) (hcontext : context.IsBody) :
        Reads (functionBody (read (depth + (height + 1))) context) _ (follower :: behind)
          (· = none) :=
      reads_body count hcontext (Nat.lt_of_lt_of_le hcount hcontext.rounds) hreads
    exact reads_assignment_function hcontext hend (reads_parameter hname) hbody
  not_closed := rfl
  not_spread := rfl

/-! ## Assignments -/

/-- The text of a function that assigns a value to a name. -/
def assigning (text : List Char) : List Char :=
  "function()\x7b\nx = ".toList ++ (text ++ ";\n\x7d".toList)

/-- The tokens of such a function behind its first one. -/
def assigningTokens (value : List Shown → List Shown) (behind : List Shown) : List Shown :=
  sign "(" :: sign ")" :: sign "\x7b" :: word "x" :: sign "=" ::
    value (sign ";" :: sign "\x7d" :: behind)

namespace IsValue

variable {text : List Char} {height : Nat} {first : Shown} {others : List Shown → List Shown}

theorem spells_assigning (h : IsValue text height first others) {rest : List Char}
    {behind : List Shown} (hrest : Spells rest behind) :
    Spells (assigning text ++ rest)
      (word "function" :: assigningTokens (first :: others ·) behind) := by
  have hend : Spells (';' :: '\n' :: '\x7d' :: rest) (sign ";" :: sign "\x7d" :: behind) :=
    spells_sign ";" rfl rfl (spells_line_end rfl (spells_sign "\x7d" rfl rfl hrest))
  have hvalue := h.spells hend
  unfold assigning assigningTokens
  simp only [String.reduceToList, List.cons_append, List.nil_append, List.append_assoc]
  refine spells_word "function" rfl rfl ?_
  refine spells_sign "(" rfl rfl ?_
  refine spells_sign ")" rfl rfl ?_
  refine spells_sign "\x7b" rfl rfl ?_
  refine spells_line_end rfl (spells_word "x" rfl rfl ?_)
  exact spells_blank (spells_sign "=" rfl rfl (spells_blank hvalue))

/-- A value is assigned in a statement of its own. -/
theorem reads_assigning_statement (h : IsValue text height first others) {depth : Nat}
    {behind : List Shown} :
    ReadsStatement (read (depth + height + 2))
      (word "x" :: sign "=" :: first :: others (sign ";" :: sign "\x7d" :: behind))
      (sign "\x7d" :: behind) := by
  have hset : ReadsPlain (read (depth + height + 1)) .assignment
      (word "x" :: sign "=" :: first :: others (sign ";" :: sign "\x7d" :: behind))
      (sign ";" :: sign "\x7d" :: behind) fun term =>
        term.coverFault = none ∧ term.IsNoDirective := by
    intro context hcontext
    refine (reads_assignment_equals hcontext (by decide) (h.reads (by decide))).mono ?_
    rintro term ⟨hfault, hform⟩
    -- a directive is a string alone, not an assignment
    refine ⟨hfault, fun written legacy hstring => ?_⟩
    rw [hform] at hstring
    cases hstring
  refine ⟨_, _, rfl, rfl, fun context hcontext => ?_⟩
  exact reads_statement_word (by decide) rfl
    (reads_expression_statement hcontext.settled rfl hset reads_semicolon)

/-- A function that assigns a value is a value itself. -/
theorem assigned (h : IsValue text height first others) :
    IsValue (assigning text) (height + 3) (word "function")
      (assigningTokens (first :: others ·)) where
  spells := h.spells_assigning
  reads := by
    intro depth follower behind hend context hcontext
    have hbody (context : Context) (hcontext : context.IsBody) :
        Reads (functionBody (read (depth + height + 2)) context) _ (follower :: behind)
          (· = none) :=
      reads_body 1 hcontext (Nat.lt_of_lt_of_le (by decide) hcontext.rounds)
        (.cons h.reads_assigning_statement (.nil _))
    exact reads_assignment_function hcontext hend reads_parameters_none hbody
  not_closed := rfl
  not_spread := rfl

end IsValue

end TemplateBundle.Script

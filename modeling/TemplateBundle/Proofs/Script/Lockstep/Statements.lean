import TemplateBundle.Proofs.Script.Lockstep.Operators

/-!
# Statements and scripts in step
-/

namespace TemplateBundle.Script

variable {pairing : Pairing} {recur : Recur} {context : Context} {settled : Bool} {token : Token}
  {before : Cursor → Cursor → Prop}

/-! ## Declarations -/

theorem Term.Alike.stays_check_declared {target target' : Term} (h : target.Alike target')
    (kind : Declaration) :
    pairing.Stays (checkDeclared kind target) (checkDeclared kind target') fun _ _ => True := by
  refine stays_when (stays_for_each (fun name name' hname => ?_) (same_names_iff.mp h.names))
  exact stays_when_iff (by rw [hname]) (stays_report _ _)

theorem keeps_declared_value (hrecur : pairing.KeepsParts recur) {target target' : Term}
    (htarget : target.Alike target') :
    pairing.Keeps true true (declaredValue recur context target)
      (declaredValue recur context target') Eq := by
  intro token
  unfold declaredValue
  refine (keeps_initializer hrecur).bind_settled ?_
  rintro hasValue _ _ rfl
  refine follows_ite_iff (by rw [htarget.form]) (fun _ => follows_fail_bind) fun _ => ?_
  exact follows_return rfl id

theorem keeps_declarator (hrecur : pairing.KeepsParts recur) (kind : Declaration) :
    pairing.Keeps false true (declarator recur context kind) (declarator recur context kind)
      fun _ _ => True := by
  intro token
  unfold declarator
  refine (hrecur.binding context).bind fun target target' _ htarget => ?_
  refine (htarget.stays_check_declared kind).bind fun _ _ _ => ?_
  exact (keeps_declared_value hrecur htarget).bind_settled fun _ _ _ _ => follows_return trivial id

theorem keeps_more_declarators (hrecur : pairing.KeepsParts recur) (kind : Declaration) :
    pairing.Keeps true true (moreDeclarators recur context kind)
      (moreDeclarators recur context kind) fun _ _ => True := by
  unfold moreDeclarators
  refine keeps_repeat (fun _ _ => True) (fun _ _ token _ => ?_) _ trivial
  refine follows_accepts (fun _ => ?_) fun _ => follows_done trivial id
  exact (keeps_declarator hrecur kind).bind fun _ _ _ _ => follows_again trivial id

theorem keeps_declarations (hrecur : pairing.KeepsParts recur) (kind : Declaration) :
    pairing.Keeps false true (declarations recur context kind) (declarations recur context kind)
      fun _ _ => True := by
  intro token
  unfold declarations
  exact (keeps_declarator hrecur kind).bind fun _ _ _ _ => keeps_more_declarators hrecur kind _

theorem stays_sees_let : pairing.Stays seesLet seesLet Eq := by
  intro settled token
  unfold seesLet
  refine follows_sees_word (follows_ite (fun htoken => ?_) fun _ => stays_pure rfl _ _)
  obtain rfl : token = .name "let" false := beq_iff_eq.mp htoken
  refine follows_peek rfl fun lexeme lexeme' hlexeme _ => ?_
  rw [hlexeme]
  split <;> exact stays_pure rfl _ _

theorem stays_sees_declaration : pairing.Stays seesDeclaration? seesDeclaration? Eq := by
  intro settled token
  unfold seesDeclaration?
  refine follows_sees_word (follows_ite (fun _ => stays_pure rfl _ _) fun _ => ?_)
  refine follows_sees_word (stays_sees_let.bind ?_)
  rintro found _ rfl
  exact follows_ite (fun _ => stays_pure rfl _ _) fun _ => stays_pure rfl _ _

/-! ## Loops -/

/-- The last sign of a part. -/
theorem follows_last (sign : String) (hsign : (Token.sign sign).settles = true) :
    Follows (pairing.At settled token) (Reading.expect sign) (Reading.expect sign)
      fun _ _ here there => True ∧ pairing.Somewhere true here there := by
  rw [← bind_pure (Reading.expect sign)]
  exact follows_expect fun _ => follows_return trivial fun _ => hsign

theorem keeps_condition (hrecur : pairing.KeepsParts recur) :
    pairing.Keeps false true (condition recur context) (condition recur context)
      fun _ _ => True := by
  intro token
  unfold condition
  refine follows_expect fun _ => (keeps_inner_expression hrecur).bind fun _ _ _ _ => ?_
  exact follows_last ")" (by decide)

theorem keeps_loop_body (hrecur : pairing.KeepsParts recur) :
    pairing.Keeps false false (loopBody recur context) (loopBody recur context)
      fun _ _ => True := by
  intro token
  unfold loopBody
  exact (hrecur.statement _ .body).bind fun _ _ _ _ => follows_return trivial nofun

theorem keeps_counting_rest (hrecur : pairing.KeepsParts recur) :
    pairing.Keeps false true (countingRest recur context) (countingRest recur context)
      fun _ _ => True := by
  intro token
  unfold countingRest
  have hstep : ∀ settled token, Follows (pairing.At settled token)
      (do
        Reading.expect ";"
        unless ← Reading.sees ")" do
          let _ ← innerExpression recur context
        Reading.expect ")")
      (do
        Reading.expect ";"
        unless ← Reading.sees ")" do
          let _ ← innerExpression recur context
        Reading.expect ")")
      fun _ _ here there => True ∧ pairing.Somewhere true here there := by
    intro settled token
    refine follows_expect fun _ => follows_sees (follows_ite (fun _ => ?_) fun _ => ?_)
    · exact follows_last ")" (by decide)
    · exact (keeps_inner_expression hrecur).bind fun _ _ _ _ => follows_last ")" (by decide)
  refine follows_sees (follows_ite (fun _ => hstep _ _) fun _ => ?_)
  exact (keeps_inner_expression hrecur).bind fun _ _ _ _ => hstep _ _

theorem keeps_range_rest (hrecur : pairing.KeepsParts recur) (values : Bool) :
    pairing.Keeps false true (rangeRest recur context values) (rangeRest recur context values)
      fun _ _ => True := by
  intro token
  unfold rangeRest
  refine follows_next fun _ => follows_ite (fun _ => ?_) fun _ => ?_
  · exact (keeps_value hrecur).bind fun _ _ _ _ => follows_last ")" (by decide)
  · exact (keeps_inner_expression hrecur).bind fun _ _ _ _ => follows_last ")" (by decide)

theorem keeps_declaring_head (hrecur : pairing.KeepsParts recur) (kind : Declaration)
    (awaits : Bool) :
    pairing.Keeps false true (declaringHead recur context kind awaits)
      (declaringHead recur context kind awaits) fun _ _ => True := by
  intro token
  unfold declaringHead seesOf
  refine follows_next fun _ => (hrecur.binding _).bind fun target target' _ htarget => ?_
  refine (htarget.stays_check_declared kind).bind fun _ _ _ => ?_
  refine follows_sees_word (follows_sees_word (follows_ite (fun _ => ?_) fun _ => ?_))
  · exact follows_sees_word ((keeps_range_rest hrecur _).of_unsettled _)
  refine follows_ite (fun _ => follows_fail) fun _ => ?_
  refine (keeps_initializer hrecur).bind_settled ?_
  rintro hasValue _ _ rfl
  refine follows_sees_word (follows_sees_word (follows_ite (fun _ => ?_) fun _ => ?_))
  · refine follows_sees_word (follows_when_iff (by rw [htarget.form]) (stays_report _ _) ?_)
    exact (keeps_range_rest hrecur _).of_unsettled _
  refine follows_ite_iff (by rw [htarget.form]) (fun _ => follows_fail_bind) fun _ => ?_
  refine (keeps_more_declarators hrecur kind).bind_settled fun _ _ _ _ => ?_
  exact follows_expect fun _ => (keeps_counting_rest hrecur).of_unsettled _

theorem Term.Alike.stays_check_loop_target {target target' : Term} (h : target.Alike target') :
    pairing.Stays (checkLoopTarget target) (checkLoopTarget target') fun _ _ => True :=
  fun settled token => follows_ite_iff (by rw [h.form])
    (fun _ => stays_fail_any h.patternFault settled token)
    fun _ => h.stays_check_target settled token

theorem keeps_expression_head (hrecur : pairing.KeepsParts recur) (awaits : Bool) :
    pairing.Keeps false true (expressionHead recur context awaits)
      (expressionHead recur context awaits) fun _ _ => True := by
  intro token
  unfold expressionHead seesOf
  refine follows_sees_word (follows_sees_word ?_)
  refine (keeps_expression hrecur).bind fun first first' _ hfirst => follows_sees_word ?_
  refine follows_ite (fun _ => ?_) fun _ => ?_
  · refine follows_ite_iff (by rw [hfirst.form]) (fun _ => follows_fail_bind) fun _ => ?_
    refine hfirst.stays_check_loop_target.bind fun _ _ _ => ?_
    exact (keeps_range_rest hrecur true).of_unsettled _
  refine follows_ite (fun _ => follows_fail) fun _ => follows_sees_word ?_
  refine follows_ite (fun _ => ?_) fun _ => ?_
  · refine hfirst.stays_check_loop_target.bind fun _ _ _ => ?_
    exact (keeps_range_rest hrecur false).of_unsettled _
  · refine hfirst.stays_settle.bind fun _ _ _ => follows_expect fun _ => ?_
    exact (keeps_counting_rest hrecur).of_unsettled _

/-- The head of a loop behind its first word and its opening parenthesis, and its body. -/
theorem keeps_for_loop_behind (hrecur : pairing.KeepsParts recur) (awaits : Bool) :
    pairing.Keeps false false
      (do
        Reading.expect "("
        if !awaits && (← Reading.accepts ";") then countingRest recur context
        else
          match ← seesDeclaration? with
          | some kind => declaringHead recur context kind awaits
          | none => expressionHead recur context awaits
        loopBody recur context)
      (do
        Reading.expect "("
        if !awaits && (← Reading.accepts ";") then countingRest recur context
        else
          match ← seesDeclaration? with
          | some kind => declaringHead recur context kind awaits
          | none => expressionHead recur context awaits
        loopBody recur context) fun _ _ => True := by
  refine fun token => follows_expect fun _ => (keeps_accepts ";").bind ?_
  rintro found _ _ rfl
  have hbody : pairing.Keeps false false (loopBody recur context) (loopBody recur context)
      fun _ _ => True := keeps_loop_body hrecur
  refine follows_ite (fun _ => ?_) fun _ => stays_sees_declaration.bind ?_
  · exact (keeps_counting_rest hrecur).bind fun _ _ _ _ => hbody.of_unsettled _
  rintro kind _ rfl
  split
  · exact (keeps_declaring_head hrecur _ awaits).bind fun _ _ _ _ => hbody.of_unsettled _
  · exact (keeps_expression_head hrecur awaits).bind fun _ _ _ _ => hbody.of_unsettled _

theorem keeps_for_loop (hrecur : pairing.KeepsParts recur) :
    pairing.Keeps false false (forLoop recur context) (forLoop recur context)
      fun _ _ => True := by
  intro token
  unfold forLoop
  refine follows_next fun _ => follows_ite (fun _ => ?_) fun _ => ?_
  · exact follows_accepts_word (fun _ => (keeps_for_loop_behind hrecur true).of_unsettled _)
      fun _ => (keeps_for_loop_behind hrecur false).of_unsettled _
  · exact (keeps_for_loop_behind hrecur false).of_unsettled _

/-! ## Jumps -/

/-- A label stands on the line of its jump, and is no closing brace. -/
theorem keeps_jump_label :
    pairing.Keeps true true jumpLabel? jumpLabel? Eq := by
  intro token
  unfold jumpLabel?
  refine follows_newline (fun newline => ?_) ?_
  · refine follows_ite (fun _ => follows_return rfl id) fun _ => follows_current ?_
    split
    · refine follows_ite (fun _ => follows_fail_bind) fun _ => ?_
      exact follows_next fun _ => follows_return rfl fun _ => rfl
    · exact follows_return rfl id
  · rintro rfl here there hat _ _ ⟨⟩
    refine ⟨none, there, ?_, rfl, hat.somewhere id⟩
    have hcurrent : Reading.current.run there = .ok (.sign "\x7d", there) :=
      congrArg (fun token => Except.ok (token, there)) (hat.lexeme.token.symm.trans hat.token)
    rw [if_neg Bool.false_ne_true, StateT.run_bind, hcurrent]
    rfl

/-- A statement may end. -/
abbrev Ends (pairing : Pairing) (_ _ : Unit) (here there : Cursor) : Prop :=
  True ∧ pairing.Somewhere false here there

/-- Behind a statement nothing is settled. -/
theorem Pairing.Keeps.ends {first second : Reading Unit}
    (h : pairing.Keeps settled true first second fun _ _ => True) :
    pairing.Keeps settled false first second fun _ _ => True :=
  h.mono (fun _ _ _ => trivial) nofun

variable {word : String} {escaped : Bool}

theorem follows_break :
    Follows (pairing.At settled (.name word escaped)) (breakStatement context)
      (breakStatement context) (Ends pairing) := by
  unfold breakStatement
  refine follows_line fun line line' => follows_next fun _ => keeps_jump_label.bind_settled ?_
  rintro label _ _ rfl
  split
  · exact follows_ite (fun _ => keeps_semicolon _) fun _ =>
      (stays_report _ _).bind fun _ _ _ => keeps_semicolon _
  · exact follows_ite (fun _ => keeps_semicolon _) fun _ =>
      (stays_report _ _).bind fun _ _ _ => keeps_semicolon _

theorem follows_continue :
    Follows (pairing.At settled (.name word escaped)) (continueStatement context)
      (continueStatement context) (Ends pairing) := by
  unfold continueStatement
  refine follows_line fun line line' => follows_next fun _ => keeps_jump_label.bind_settled ?_
  rintro label _ _ rfl
  split
  · exact follows_ite (fun _ => keeps_semicolon _) fun _ =>
      (stays_report _ _).bind fun _ _ _ => keeps_semicolon _
  · exact follows_ite (fun _ => keeps_semicolon _) fun _ =>
      (stays_report _ _).bind fun _ _ _ => keeps_semicolon _

theorem follows_return_statement (hrecur : pairing.KeepsParts recur) :
    Follows (pairing.At settled (.name word escaped)) (returnStatement recur context)
      (returnStatement recur context) (Ends pairing) := by
  unfold returnStatement
  have hvalue : Follows (pairing.At settled (.name word escaped))
      (do
        Reading.next
        unless (← Reading.newline) || (← Reading.sees ";") || (← Reading.sees "\x7d") ||
            (← Reading.current) == .stop do
          let _ ← innerExpression recur context
        Reading.semicolon)
      (do
        Reading.next
        unless (← Reading.newline) || (← Reading.sees ";") || (← Reading.sees "\x7d") ||
            (← Reading.current) == .stop do
          let _ ← innerExpression recur context
        Reading.semicolon) (Ends pairing) := by
    refine follows_next fun next => follows_newline (fun newline => ?_) ?_
    · refine follows_sees (follows_sees (follows_current ?_))
      refine follows_ite (fun _ => keeps_semicolon _) fun _ => ?_
      exact (keeps_inner_expression hrecur).bind fun _ _ _ _ => keeps_semicolon _
    · rintro rfl
      exact follows_sees (follows_sees (follows_current (keeps_semicolon _)))
  refine follows_ite (fun _ => ?_) fun _ => hvalue
  exact follows_line fun _ _ => (stays_report _ _).bind fun _ _ _ => hvalue

theorem follows_throw (hrecur : pairing.KeepsParts recur) :
    Follows (pairing.At settled (.name word escaped)) (throwStatement recur context)
      (throwStatement recur context) (Ends pairing) := by
  unfold throwStatement
  refine follows_next fun next => follows_newline (fun newline => ?_) fun _ => follows_fail_bind
  refine follows_ite (fun _ => follows_fail_bind) fun _ => ?_
  exact (keeps_inner_expression hrecur).bind fun _ _ _ _ => keeps_semicolon _

/-! ## Other statements -/

theorem keeps_if (hrecur : pairing.KeepsParts recur) :
    pairing.Keeps false false (ifStatement recur context) (ifStatement recur context)
      fun _ _ => True := by
  intro token
  unfold ifStatement
  refine follows_next fun _ => (keeps_condition hrecur).bind fun _ _ _ _ => ?_
  refine (hrecur.statement _ .branch).bind fun _ _ _ _ => ?_
  refine follows_accepts_word (fun _ => ?_) fun _ => follows_return trivial nofun
  exact (hrecur.statement _ .branch).bind fun _ _ _ _ => follows_return trivial nofun

theorem keeps_do_loop (hrecur : pairing.KeepsParts recur) :
    pairing.Keeps false false (doLoop recur context) (doLoop recur context)
      fun _ _ => True := by
  intro token
  unfold doLoop
  refine follows_next fun _ => (keeps_loop_body hrecur).bind fun _ _ _ _ => ?_
  refine follows_expect_word fun _ => (keeps_condition hrecur).bind fun _ _ _ _ => ?_
  exact (keeps_accepts ";").bind fun _ _ _ _ => follows_return trivial nofun

theorem keeps_case_body (hrecur : pairing.KeepsParts recur) :
    pairing.Keeps false false (caseBody recur context) (caseBody recur context)
      fun _ _ => True := by
  intro token
  unfold caseBody
  refine follows_repeat (fun _ _ => True) trivial fun _ _ token _ => ?_
  refine follows_sees (follows_sees_word (follows_sees_word ?_))
  refine follows_ite (fun _ => follows_done trivial nofun) fun _ => ?_
  exact (hrecur.statement _ .list).bind fun _ _ _ _ => follows_again trivial nofun

/-- A case of a switch from its colon on. -/
theorem follows_case {recur : Recur} (hrecur : pairing.KeepsParts recur) (hasDefault : Bool) :
    Follows (pairing.At settled token)
      (do
        Reading.expect ":"
        caseBody recur context
        return Round.again hasDefault)
      (do
        Reading.expect ":"
        caseBody recur context
        return Round.again hasDefault)
      (pairing.Rounds false false Eq fun (_ _ : Unit) => True) := by
  refine follows_expect fun _ => ?_
  exact (keeps_case_body hrecur).bind fun _ _ _ _ => follows_again rfl nofun

theorem keeps_switch (hrecur : pairing.KeepsParts recur) :
    pairing.Keeps false false (switchStatement recur context) (switchStatement recur context)
      fun _ _ => True := by
  intro token
  unfold switchStatement
  refine follows_next fun _ => (keeps_condition hrecur).bind fun _ _ _ _ => ?_
  refine follows_expect fun _ => follows_repeat Eq rfl ?_
  rintro hasDefault _ token rfl
  refine follows_line fun line line' => ?_
  refine follows_accepts (fun _ => follows_done trivial nofun) fun _ => follows_sees_word ?_
  refine follows_ite (fun _ => ?_) fun _ => ?_
  · exact follows_next fun _ => follows_when (stays_report _ _) (follows_case hrecur _)
  · refine follows_expect_word fun _ => ?_
    exact (keeps_inner_expression hrecur).bind fun _ _ _ _ => follows_case hrecur _

theorem keeps_block (hrecur : pairing.KeepsParts recur) :
    pairing.Keeps false true (block recur context) (block recur context) fun _ _ => True := by
  intro token
  unfold block
  exact follows_expect fun _ => (keeps_statements_to_brace hrecur).of_unsettled _

/-- What handles the exceptions of a block in any case. -/
theorem keeps_finally (hrecur : pairing.KeepsParts recur) (catches : Bool) :
    pairing.Keeps true true
      (do
        if ← Reading.acceptsWord "finally" then block recur context
        else unless catches do Reading.fail)
      (do
        if ← Reading.acceptsWord "finally" then block recur context
        else unless catches do Reading.fail) fun _ _ => True := by
  refine fun token => follows_accepts_word (fun _ => (keeps_block hrecur).of_unsettled _) fun _ => ?_
  exact follows_ite nofun fun _ => follows_ite (fun _ => follows_return trivial id)
    fun _ => follows_fail

theorem keeps_try (hrecur : pairing.KeepsParts recur) :
    pairing.Keeps false true (tryStatement recur context) (tryStatement recur context)
      fun _ _ => True := by
  intro token
  unfold tryStatement
  refine follows_next fun _ => (keeps_block hrecur).bind fun _ _ _ _ => ?_
  refine follows_accepts_word (fun _ => ?_) fun _ => keeps_finally hrecur false _
  refine follows_accepts (fun _ => ?_) fun _ => ?_
  · refine (hrecur.binding context).bind fun _ _ _ _ => follows_expect fun _ => ?_
    exact (keeps_block hrecur).bind fun _ _ _ _ => keeps_finally hrecur true _
  · exact (keeps_block hrecur).bind fun _ _ _ _ => keeps_finally hrecur true _

theorem keeps_with (hrecur : pairing.KeepsParts recur) :
    pairing.Keeps false false (withStatement recur context) (withStatement recur context)
      fun _ _ => True := by
  intro token
  unfold withStatement
  have hrest : Follows (pairing.At false token)
      (do
        Reading.next
        condition recur context
        let _ ← recur (.statement context .body))
      (do
        Reading.next
        condition recur context
        let _ ← recur (.statement context .body)) (Ends pairing) := by
    refine follows_next fun _ => (keeps_condition hrecur).bind fun _ _ _ _ => ?_
    exact (hrecur.statement _ .body).bind fun _ _ _ _ => follows_return trivial nofun
  refine follows_ite (fun _ => ?_) fun _ => hrest
  exact follows_line fun _ _ => (stays_report _ _).bind fun _ _ _ => hrest

theorem follows_function_statement (hrecur : pairing.KeepsParts recur) (place : StatementPlace) :
    Follows (pairing.At settled (.name word escaped)) (functionStatement recur context place)
      (functionStatement recur context place) (Ends pairing) := by
  have hfunction : Follows (pairing.At settled (.name word escaped))
      (function recur context false true) (function recur context false true) (Ends pairing) :=
    (keeps_function hrecur false true).of_unsettled.ends _
  have hsingle : Follows (pairing.At settled (.name word escaped))
      (do
        if context.strict then Reading.fail
        if (← Reading.peek).token == .sign "*" then Reading.fail
        function recur context false true)
      (do
        if context.strict then Reading.fail
        if (← Reading.peek).token == .sign "*" then Reading.fail
        function recur context false true) (Ends pairing) := by
    refine follows_ite (fun _ => follows_fail_bind) fun _ => ?_
    refine follows_peek rfl fun lexeme lexeme' hlexeme _ => ?_
    exact follows_ite_iff (by rw [hlexeme]) (fun _ => follows_fail_bind) fun _ => hfunction
  unfold functionStatement
  split
  · exact hfunction
  · exact follows_fail
  · exact hsingle
  · exact hsingle

theorem follows_sees_label {text : String} {γ δ : Type} {after : γ → δ → Cursor → Cursor → Prop}
    {rest : Bool → Reading γ} {others : Bool → Reading δ}
    (h : ∀ found, Follows (pairing.At settled (.name word escaped)) (rest found) (others found)
      after) :
    Follows (pairing.At settled (.name word escaped)) (seesLabel text >>= rest)
      (seesLabel text >>= others) after := by
  unfold seesLabel
  split
  · exact h false
  · rw [bind_assoc, bind_assoc]
    refine follows_peek rfl fun lexeme lexeme' hlexeme _ => ?_
    rw [hlexeme]
    exact h _

theorem follows_labelled (hrecur : pairing.KeepsParts recur) (pending : List String)
    (place : StatementPlace) (text : String) :
    Follows (pairing.At settled token) (labelledStatement recur context pending place text)
      (labelledStatement recur context pending place text) (Ends pairing) := by
  unfold labelledStatement
  refine follows_line fun line line' => (stays_check_name _ _ _).bind fun _ _ _ => ?_
  refine follows_when (stays_report _ _) (follows_next fun _ => follows_expect fun _ => ?_)
  exact (hrecur.statement _ _).bind fun _ _ _ _ => follows_return trivial nofun

theorem leads_expression_statement
    (h : pairing.Leads before true (innerExpression recur context) (innerExpression recur context)
      Term.Alike) :
    pairing.Leads before false (expressionStatement recur context)
      (expressionStatement recur context) Term.Alike := by
  unfold expressionStatement
  refine Pairing.Leads.bind h fun term term' _ hterm => ?_
  exact keeps_semicolon.bind_settled fun _ _ _ _ => follows_return hterm nofun

theorem keeps_expression_statement (hrecur : pairing.KeepsParts recur) :
    pairing.Keeps false false (expressionStatement recur context)
      (expressionStatement recur context) Term.Alike :=
  fun token => leads_expression_statement (keeps_inner_expression hrecur token)

theorem keeps_declaration_statement (hrecur : pairing.KeepsParts recur) (kind : Declaration)
    (place : StatementPlace) :
    pairing.Keeps false false (declarationStatement recur context kind place)
      (declarationStatement recur context kind place) fun _ _ => True := by
  intro token
  unfold declarationStatement
  refine follows_ite (fun _ => follows_fail_bind) fun _ => follows_next fun _ => ?_
  exact (keeps_declarations hrecur kind).bind fun _ _ _ _ => keeps_semicolon _

/-- A statement of which only the line is known. -/
theorem follows_behind {first second : Reading Unit}
    (h : Follows before first second (Ends pairing)) (line line' : Nat) :
    Follows before
      (first >>= fun _ => pure (Term.other line)) (second >>= fun _ => pure (Term.other line'))
      fun found other here there => found.Alike other ∧ pairing.Somewhere false here there :=
  h.bind fun _ _ here there hends =>
    follows_return (plain_alike line line' .other) id here there hends.2

theorem follows_word_statement (hrecur : pairing.KeepsParts recur) (place : StatementPlace) :
    Follows (pairing.At settled (.name word false)) (wordStatement recur context place word)
      (wordStatement recur context place word)
      fun found other here there => found.Alike other ∧ pairing.Somewhere false here there := by
  unfold wordStatement
  refine follows_line fun line line' => ?_
  split
  · exact follows_behind ((keeps_declaration_statement hrecur _ _).of_unsettled _) _ _
  · exact follows_behind ((keeps_declaration_statement hrecur _ _).of_unsettled _) _ _
  · exact follows_behind ((keeps_if hrecur).of_unsettled _) _ _
  · exact follows_behind ((keeps_for_loop hrecur).of_unsettled _) _ _
  · refine follows_behind (follows_next fun _ => ?_) _ _
    exact (keeps_condition hrecur).bind fun _ _ _ _ => (keeps_loop_body hrecur).of_unsettled _
  · exact follows_behind ((keeps_do_loop hrecur).of_unsettled _) _ _
  · exact follows_behind follows_continue _ _
  · exact follows_behind follows_break _ _
  · exact follows_behind (follows_return_statement hrecur) _ _
  · exact follows_behind ((keeps_with hrecur).of_unsettled _) _ _
  · exact follows_behind ((keeps_switch hrecur).of_unsettled _) _ _
  · exact follows_behind (follows_throw hrecur) _ _
  · exact follows_behind ((keeps_try hrecur).of_unsettled.ends _) _ _
  · exact follows_behind (follows_next fun _ => keeps_semicolon _) _ _
  · exact follows_behind (follows_function_statement hrecur place) _ _
  · refine follows_behind (follows_ite (fun _ => follows_fail_bind) fun _ => ?_) _ _
    exact (keeps_class hrecur true).of_unsettled.ends _
  · -- any other word is a label, or one of those that mean something only in front of others
    refine follows_sees_label fun found => follows_ite (fun _ => ?_) fun _ => ?_
    · exact follows_behind (follows_labelled hrecur _ _ _) _ _
    refine follows_sees_async_function fun found _ => follows_ite (fun _ => ?_) fun _ => ?_
    · refine follows_behind (follows_ite (fun _ => follows_fail_bind) fun _ => ?_) _ _
      exact follows_next fun _ => (keeps_function hrecur true true).of_unsettled.ends _
    refine stays_sees_let.bind ?_
    rintro found _ rfl
    refine follows_ite (fun _ => follows_ite (fun _ => ?_) fun _ => ?_) fun _ => ?_
    · exact follows_behind ((keeps_declaration_statement hrecur _ _).of_unsettled _) _ _
    · refine follows_peek rfl fun lexeme lexeme' hlexeme _ => ?_
      refine follows_ite_iff (by rw [hlexeme]) (fun _ => follows_fail_bind) fun _ => ?_
      exact (keeps_expression_statement hrecur).of_unsettled _
    · exact (keeps_expression_statement hrecur).of_unsettled _

theorem keeps_statement (hrecur : pairing.KeepsParts recur) (place : StatementPlace) :
    pairing.Keeps false false (statement recur context place) (statement recur context place)
      Term.Alike := by
  intro token
  unfold statement
  refine follows_line fun line line' => follows_current ?_
  split
  · exact follows_behind ((keeps_block hrecur).ends _) _ _
  · exact follows_next fun _ => follows_return (plain_alike _ _ _) nofun
  · refine follows_ite (fun _ => ?_) fun hplain => ?_
    · refine follows_sees_label fun found => follows_ite (fun _ => ?_) fun _ => ?_
      · exact follows_behind (follows_labelled hrecur _ _ _) _ _
      · exact keeps_expression_statement hrecur _
    · rw [Bool.not_eq_true] at hplain
      subst hplain
      exact follows_word_statement hrecur place
  · exact keeps_expression_statement hrecur _

/-! ## Scripts -/

/-- All parts of a script are read in step. The induction is on how deep parts hold each other. -/
theorem keeps_parts (depth : Nat) : pairing.KeepsParts (read depth) := by
  induction depth with
  | zero =>
      exact ⟨fun _ _ => follows_fail, fun _ _ => follows_fail, fun _ _ _ => follows_fail,
        fun _ _ _ => follows_fail, fun _ _ => follows_fail⟩
  | succ depth ih =>
      exact ⟨fun _ => keeps_assignment ih, fun _ => keeps_unary ih, fun _ => keeps_operand ih,
        fun _ => keeps_statement ih, fun _ => keeps_binding ih⟩

/-- No state is kept from one statement of a script to the next. -/
abbrev NoState : Unit → Unit → Prop :=
  fun _ _ => True

theorem follows_script_round (size : Nat) :
    Follows (pairing.At false token) (scriptRound size) (scriptRound size)
      (pairing.Rounds false false NoState NoState) := by
  unfold scriptRound
  refine follows_current (follows_ite (fun _ => follows_done trivial nofun) fun _ => ?_)
  exact ((keeps_parts _).statement _ .list).bind fun _ _ _ _ => follows_again trivial nofun

theorem keeps_script (size : Nat) :
    pairing.Keeps false false (script size) (script size) NoState := by
  intro token
  rw [script_eq]
  exact follows_repeat NoState trivial fun _ _ _ _ => follows_script_round size

/-- The cursor in front of a script. -/
def Cursor.start (lexeme : Lexeme) : Cursor :=
  { lexeme := lexeme, early := none, seen := {} }

/-- Where no fault is found in a text, none is found in one of the same extent that is read like
it. -/
theorem fault_none_of_leads {text text' : List Char} {lexeme lexeme' : Lexeme}
    (hextent : extent text = extent text') (hlex : lex ⟨text, 1⟩ = .ok lexeme)
    (hlex' : lex ⟨text', 1⟩ = .ok lexeme') (hbefore : before (.start lexeme) (.start lexeme'))
    (hscript : pairing.Leads before false (script (extent text)) (script (extent text)) NoState)
    (h : fault? text = none) : fault? text' = none := by
  unfold fault? at h ⊢
  rw [hlex] at h
  rw [hlex', ← hextent]
  dsimp only at h ⊢
  cases hrun : (script (extent text)).run (.start lexeme) with
  | error line =>
      unfold Cursor.start at hrun
      rw [hrun] at h
      nomatch h
  | ok result =>
      obtain ⟨_, cursor⟩ := result
      obtain ⟨_, cursor', hrun', -, hend⟩ := hscript _ _ hbefore _ cursor hrun
      unfold Cursor.start at hrun hrun'
      rw [hrun] at h
      rw [hrun']
      have hearly := hend.early
      dsimp only at h ⊢
      rwa [h, Option.isSome_none, eq_comm, Option.isSome_eq_false_iff, Option.isNone_iff_eq_none]
        at hearly

/-- Where no fault is found in a text, none is found in one that is read in step with it and has
the same extent. -/
theorem Pairing.fault_none (pairing : Pairing) {text text' : List Char} {settled : Bool}
    (hplaces : pairing.places settled ⟨text, 1⟩ ⟨text', 1⟩) (hextent : extent text = extent text')
    (h : fault? text = none) : fault? text' = none := by
  cases hlex : lex ⟨text, 1⟩ with
  | error line =>
      unfold fault? at h
      rw [hlex] at h
      nomatch h
  | ok lexeme =>
      obtain ⟨lexeme', hlex', htwin, hsettled⟩ := pairing.same_token hplaces hlex
      have hat : pairing.At false lexeme.token (.start lexeme) (.start lexeme') :=
        { token := rfl, lexeme := htwin, settles := nofun, early := rfl, seen := .rfl }
      exact fault_none_of_leads hextent hlex hlex' hat (keeps_script _ _) h

end TemplateBundle.Script

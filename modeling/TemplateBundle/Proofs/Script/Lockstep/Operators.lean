import TemplateBundle.Proofs.Script.Lockstep.Operands

/-!
# Operators and assignments in step
-/

namespace TemplateBundle.Script

variable {pairing : Pairing} {recur : Recur} {context : Context} {settled : Bool} {token : Token}
  {before : Cursor → Cursor → Prop}

/-! ## Operators -/

theorem Term.Alike.stays_check_target {term term' : Term} (h : term.Alike term') :
    pairing.Stays (checkTarget term) (checkTarget term') fun _ _ => True :=
  stays_when_iff (by rw [h.isTarget]) (stays_report _ _)

/-- A step up or down has to stand on the line of its operand, and is no closing brace. -/
theorem keeps_postfix_step {term term' : Term} (hterm : term.Alike term') :
    pairing.Keeps true true (postfixStep term) (postfixStep term') Term.Alike := by
  intro token
  unfold postfixStep
  refine follows_sees (follows_sees (follows_newline (fun newline => ?_) ?_))
  · refine follows_ite (fun hstep => ?_) fun _ => follows_return hterm id
    have hsettles : token.settles = true := by
      simp only [Bool.and_eq_true, Bool.or_eq_true, beq_iff_eq] at hstep
      obtain ⟨rfl | rfl, -⟩ := hstep <;> rfl
    refine hterm.stays_check_target.bind fun _ _ _ => follows_next fun _ => ?_
    exact follows_return (plain_alike _ _ _) fun _ => hsettles
  · rintro rfl
    exact follows_return hterm id

theorem stays_check_deleted {operand operand' : Term} (h : operand.Alike operand') :
    pairing.Stays (checkDeleted context operand) (checkDeleted context operand')
      fun _ _ => True := by
  unfold checkDeleted
  rw [h.form]
  split
  · exact stays_report _ _
  · exact stays_when (stays_report _ _)
  · exact stays_pure trivial

theorem keeps_prefixed (hrecur : pairing.KeepsParts recur) :
    pairing.Keeps false true (prefixed recur context) (prefixed recur context) Term.Alike := by
  intro token
  unfold prefixed
  refine follows_line fun line line' => follows_next fun _ => ?_
  refine (hrecur.unary context).bind fun operand operand' _ hoperand => ?_
  exact hoperand.stays_settle.bind fun _ _ _ => follows_return (hoperand.at_lines line line') id

theorem keeps_unary (hrecur : pairing.KeepsParts recur) :
    pairing.Keeps false true (unary recur context) (unary recur context) Term.Alike := by
  intro token
  unfold unary
  refine follows_line fun line line' => follows_current ?_
  have hoperand : Follows (pairing.At false token)
      (operand recur context true >>= postfixStep) (operand recur context true >>= postfixStep)
      fun found other here there => found.Alike other ∧ pairing.Somewhere true here there :=
    (keeps_operand hrecur true).bind fun _ _ _ hterm => keeps_postfix_step hterm _
  split
  · refine follows_ite (fun _ => ?_) fun _ => follows_ite (fun _ => ?_) fun _ => hoperand
    · exact (keeps_prefixed hrecur).bind fun _ _ _ _ => follows_return (plain_alike _ _ _) id
    · refine follows_next fun _ => ?_
      refine (hrecur.unary context).bind fun term term' _ hterm => ?_
      exact hterm.stays_check_target.bind fun _ _ _ => follows_return (plain_alike _ _ _) id
  · refine follows_ite (fun _ => ?_) fun _ => follows_ite (fun _ => ?_) fun _ => hoperand
    · refine follows_next fun _ => ?_
      refine (hrecur.unary context).bind fun term term' _ hterm => ?_
      refine hterm.stays_settle.bind fun _ _ _ => ?_
      exact follows_when (stays_check_deleted hterm) (follows_return (plain_alike _ _ _) id)
    · have hseen : Suspensions.Alike { awaits := some line } { awaits := some line' } :=
        ⟨rfl, rfl, rfl⟩
      refine (stays_keep hseen).bind fun _ _ _ => ?_
      exact (keeps_prefixed hrecur).bind fun _ _ _ _ => follows_return (plain_alike _ _ _) id
  · exact hoperand

theorem follows_binary_operator {γ δ : Type} {after : γ → δ → Cursor → Cursor → Prop}
    {rest : Option (String × Nat) → Reading γ} {others : Option (String × Nat) → Reading δ}
    (h : ∀ operator, Follows (pairing.At settled token) (rest operator) (others operator) after) :
    Follows (pairing.At settled token) (binaryOperator? context >>= rest)
      (binaryOperator? context >>= others) after := by
  unfold binaryOperator?
  rw [bind_assoc, bind_assoc]
  refine follows_current ?_
  split <;> exact h _

theorem Term.Alike.stays_combine {left left' right right' : Term} (hleft : left.Alike left')
    (hright : right.Alike right') (operator : String) :
    pairing.Stays (combine left operator right) (combine left' operator right') Term.Alike := by
  intro settled token
  unfold combine
  refine hleft.stays_settle.bind fun _ _ _ => hright.stays_settle.bind fun _ _ _ => ?_
  have hrefuse : ∀ form, pairing.Stays
      (do
        if left.form == form then Reading.report left.line
        if right.form == form then Reading.report right.line)
      (do
        if left'.form == form then Reading.report left'.line
        if right'.form == form then Reading.report right'.line) fun _ _ => True :=
    fun form settled token => follows_when_iff (by rw [hleft.form]) (stays_report _ _)
      (stays_when_iff (by rw [hright.form]) (stays_report _ _) settled token)
  refine follows_ite (fun _ => ?_) fun _ => follows_ite (fun _ => ?_) fun _ => ?_
  · exact (hrefuse .logical).bind fun _ _ _ => stays_pure (plain_alike _ _ _) _ _
  · exact (hrefuse .coalesce).bind fun _ _ _ => stays_pure (plain_alike _ _ _) _ _
  · exact stays_pure (plain_alike _ _ _) _ _

/-- The same operands wait for the same operators. -/
abbrev WaitAlike : Waiting → Waiting → Prop :=
  List.Forall₂ fun entry entry' => entry.1.Alike entry'.1 ∧ entry.2 = entry'.2

theorem stays_reduce (rank : Nat) {waiting waiting' : Waiting} (hwaiting : WaitAlike waiting waiting')
    {right right' : Term} (hright : right.Alike right') :
    pairing.Stays (reduce rank waiting right) (reduce rank waiting' right')
      fun found other => WaitAlike found.1 other.1 ∧ found.2.Alike other.2 := by
  induction hwaiting generalizing right right' with
  | nil => exact stays_pure ⟨.nil, hright⟩
  | @cons entry entry' others others' hentry hothers ih =>
      obtain ⟨left, operator, leftRank⟩ := entry
      obtain ⟨left', operator', leftRank'⟩ := entry'
      obtain ⟨hleft, hsame⟩ := hentry
      cases hsame
      intro settled token
      unfold reduce
      refine follows_ite (fun _ => ?_) fun _ => ?_
      · exact (hleft.stays_combine hright operator).bind fun _ _ hterm => ih hterm settled token
      · exact stays_pure ⟨.cons ⟨hleft, rfl⟩ hothers, hright⟩ settled token

theorem keeps_right_operand (hrecur : pairing.KeepsParts recur) (rank : Nat) :
    pairing.Keeps false true (rightOperand recur context rank) (rightOperand recur context rank)
      Term.Alike := by
  intro token
  unfold rightOperand
  refine follows_current ?_
  split
  · refine follows_line fun line line' => follows_next fun _ => follows_sees_word ?_
    refine follows_ite (fun _ => ?_) fun _ => follows_fail_bind
    exact follows_return (plain_alike _ _ _) fun _ => rfl
  · exact keeps_unary hrecur _

theorem keeps_binary (hrecur : pairing.KeepsParts recur) {first first' : Term}
    (hfirst : first.Alike first') :
    pairing.Keeps true true (binary recur context first) (binary recur context first')
      Term.Alike := by
  unfold binary
  refine keeps_repeat (fun state state' : Waiting × Term =>
    WaitAlike state.1 state'.1 ∧ state.2.Alike state'.2) ?_ _ ⟨.nil, hfirst⟩
  rintro ⟨waiting, last⟩ ⟨waiting', last'⟩ token ⟨hwaiting, hlast⟩
  refine follows_binary_operator fun operator => ?_
  split
  · refine (stays_reduce 0 hwaiting hlast).bind fun _ _ hresult => ?_
    exact follows_done hresult.2 id
  · refine follows_ite_iff (by rw [hlast.form]) (fun _ => follows_fail_bind) fun _ => ?_
    refine (stays_reduce _ hwaiting hlast).bind ?_
    rintro ⟨waiting, left⟩ ⟨waiting', left'⟩ ⟨hwaiting, hleft⟩
    refine follows_next fun _ => ?_
    refine (keeps_right_operand hrecur _).bind fun right right' _ hright => ?_
    exact follows_again ⟨.cons ⟨hleft, rfl⟩ hwaiting, hright⟩ id

theorem keeps_conditional (hrecur : pairing.KeepsParts recur) {condition condition' : Term}
    (hcondition : condition.Alike condition') :
    pairing.Keeps true true (conditional recur context condition)
      (conditional recur context condition') Term.Alike := by
  intro token
  unfold conditional
  refine follows_accepts (fun _ => ?_) fun _ => follows_return hcondition id
  refine hcondition.stays_settle.bind fun _ _ _ => ?_
  refine (keeps_value hrecur).bind fun _ _ _ _ => follows_expect fun _ => ?_
  exact (keeps_value hrecur).bind fun _ _ _ _ => follows_return (plain_alike _ _ _) id

/-! ## Assignments -/

theorem keeps_assignment_rest (hrecur : pairing.KeepsParts recur) {left left' : Term}
    (hleft : left.Alike left') :
    pairing.Keeps true true (assignmentRest recur context left)
      (assignmentRest recur context left') Term.Alike := by
  intro token
  unfold assignmentRest
  refine follows_current ?_
  split
  · -- an assignment may be read with any pattern or target in front of it
    have hassigned : ∀ settled token, Follows (pairing.At settled token)
        (do
          Reading.next
          let _ ← value recur context
          pure { left with form := .assignment, isTarget := false, coverFault := none })
        (do
          Reading.next
          let _ ← value recur context
          pure { left' with form := .assignment, isTarget := false, coverFault := none })
        fun found other here there => found.Alike other ∧ pairing.Somewhere true here there := by
      intro settled token
      refine follows_next fun _ => (keeps_value hrecur).bind fun _ _ _ _ => follows_return ?_ id
      exact ⟨rfl, rfl, hleft.patternFault, hleft.bindingFault, hleft.names, rfl⟩
    refine follows_ite_iff (by rw [hleft.form]) (fun _ => ?_) fun _ => ?_
    · exact (stays_fail_any hleft.patternFault).bind fun _ _ _ => hassigned _ _
    · exact hleft.stays_check_target.bind fun _ _ _ => hassigned _ _
  · refine follows_ite (fun _ => ?_) fun _ => follows_return hleft id
    refine hleft.stays_settle.bind fun _ _ _ => hleft.stays_check_target.bind fun _ _ _ => ?_
    refine follows_next fun _ => (keeps_value hrecur).bind fun _ _ _ _ => ?_
    exact follows_return (plain_alike _ _ _) id
  · exact follows_return hleft id

/-- The word `yield` comes next. -/
theorem follows_suspension (hrecur : pairing.KeepsParts recur) :
    Follows (pairing.At settled (.name "yield" false)) (suspension recur context)
      (suspension recur context) fun found other here there =>
        found.Alike other ∧ pairing.Somewhere true here there := by
  unfold suspension
  refine follows_line fun line line' => ?_
  have hseen : Suspensions.Alike { yields := some line } { yields := some line' } :=
    ⟨rfl, rfl, rfl⟩
  refine (stays_keep hseen).bind fun _ _ _ => follows_next fun next => follows_current ?_
  have hlast := plain_alike line line' .other
  -- after a closing brace no value follows, whether there is a line break or not
  have hvalue : ∀ ends, (next = .sign "\x7d" → ends = true) →
      Follows (pairing.At true next)
        (do
          if (← Reading.newline) || ends then pure (Term.other line)
          else
            let _ ← Reading.accepts "*"
            let _ ← value recur context
            pure (Term.other line))
        (do
          if (← Reading.newline) || ends then pure (Term.other line')
          else
            let _ ← Reading.accepts "*"
            let _ ← value recur context
            pure (Term.other line'))
        fun found other here there => found.Alike other ∧ pairing.Somewhere true here there := by
    intro ends hends
    refine follows_newline (fun newline => ?_) fun hbrace => ?_
    · refine follows_ite (fun _ => follows_return hlast id) fun _ => ?_
      refine (keeps_accepts "*").bind fun _ _ _ _ => ?_
      exact (keeps_value hrecur).bind fun _ _ _ _ => follows_return hlast id
    · rw [hends hbrace, Bool.or_true, Bool.or_true]
      exact follows_return hlast id
  split
  · rw [pure_bind, pure_bind]
    exact hvalue _ (by rintro ⟨⟩; rfl)
  · exact hvalue true fun _ => rfl
  · exact hvalue true fun _ => rfl
  · rename_i hother _ _
    exact hvalue false fun hbrace => absurd hbrace (hother _)

theorem follows_sees_async_parameter {γ δ : Type} {after : γ → δ → Cursor → Cursor → Prop}
    {rest : Bool → Reading γ} {others : Bool → Reading δ}
    (hyes : token = .name "async" false →
      Follows (pairing.At settled token) (rest true) (others true) after)
    (hno : Follows (pairing.At settled token) (rest false) (others false) after) :
    Follows (pairing.At settled token) (seesAsyncParameter >>= rest)
      (seesAsyncParameter >>= others) after := by
  unfold seesAsyncParameter
  rw [bind_assoc, bind_assoc]
  refine follows_sees_word ?_
  by_cases htoken : token = .name "async" false
  · rw [if_pos (by exact beq_iff_eq.mpr htoken), bind_assoc, bind_assoc]
    refine follows_peek (htoken ▸ rfl) fun lexeme lexeme' hlexeme hsettled => ?_
    rw [← hlexeme]
    split
    · rename_i text _ hname
      obtain hnewline | ⟨-, hbrace⟩ := hsettled
      · rw [pure_bind, pure_bind, hnewline]
        cases !lexeme'.newline && !isReserved text with
        | false => exact hno
        | true => exact hyes htoken
      · exact nomatch hname.symm.trans hbrace
    · exact hno
  · rw [if_neg (by exact mt eq_of_beq htoken), pure_bind, pure_bind]
    exact hno

theorem Term.Alike.stays_single_parameter {name name' : Term} (h : name.Alike name') :
    pairing.Stays (singleParameter context name) (singleParameter context name')
      Parameters.Alike := by
  intro settled token
  unfold singleParameter
  refine follows_when (stays_check_strict_names h.names) ?_
  exact stays_pure ⟨h.names, rfl, rfl, rfl⟩ settled token

/-- Items in parentheses are an operand, or parameters of an arrow function. -/
theorem leads_group (hrecur : pairing.KeepsParts recur)
    (h : pairing.Leads before true (Reading.apart (items recur context))
      (Reading.apart (items recur context)) (WithSeen Items.Alike)) :
    pairing.Leads before true (groupOrArrow recur context) (groupOrArrow recur context)
      Term.Alike := by
  unfold groupOrArrow
  refine Pairing.Leads.bind h ?_
  rintro ⟨read, seen⟩ ⟨read', seen'⟩ _ ⟨hread, hseen⟩
  refine follows_sees (follows_ite (fun _ => ?_) fun _ => ?_)
  · exact hread.stays_to_parameters.bind fun _ _ hparameters =>
      keeps_arrow_rest hrecur false hparameters hseen _
  · refine (stays_keep hseen).bind fun _ _ _ => ?_
    exact hread.stays_to_term.bind fun _ _ hterm => keeps_subscripts hrecur true hterm _

/-- What follows an operand that is no group. -/
theorem keeps_name_or_arrow (hrecur : pairing.KeepsParts recur) (line line' : Nat)
    (isAsync : Bool) {name name' : Term} (hname : name.Alike name') :
    pairing.Keeps true true (nameOrArrow recur context line isAsync name)
      (nameOrArrow recur context line' isAsync name') Term.Alike := by
  intro token
  unfold nameOrArrow
  rw [hname.form]
  split
  · refine follows_sees (follows_ite (fun _ => ?_) fun _ => follows_sees ?_)
    · exact hname.stays_single_parameter.bind fun _ _ hparameters =>
        keeps_arrow_rest hrecur false hparameters .rfl _
    refine follows_newline (fun newline => ?_) ?_
    · refine follows_ite (fun _ => ?_) fun _ => keeps_subscripts hrecur true hname _
      refine (keeps_items hrecur).apart.bind ?_
      rintro ⟨read, seen⟩ ⟨read', seen'⟩ _ ⟨hread, hseen⟩
      refine follows_sees (follows_ite (fun _ => ?_) fun _ => ?_)
      · refine hread.stays_to_parameters.bind fun parameters parameters' hparameters => ?_
        refine keeps_arrow_rest hrecur true ?_ hseen _
        exact ⟨hparameters.names, hparameters.simple, hparameters.count, hparameters.hasRest⟩
      · refine (stays_keep hseen).bind fun _ _ _ => hread.stays_settle.bind fun _ _ _ => ?_
        exact keeps_subscripts hrecur true (plain_alike _ _ _) _
    · rintro rfl
      have hparen : (Token.sign "\x7d" == Token.sign "(") = false := by decide
      rw [hparen, Bool.and_false, Bool.false_and, Bool.false_and]
      exact follows_ite nofun fun _ => keeps_subscripts hrecur true hname _
  · exact keeps_subscripts hrecur true hname _

theorem keeps_arrow_or_operand (hrecur : pairing.KeepsParts recur) :
    pairing.Keeps false true (arrowOrOperand recur context) (arrowOrOperand recur context)
      Term.Alike := by
  intro token
  rw [arrow_or_operand_eq]
  refine follows_line fun line line' => follows_sees_word (follows_sees ?_)
  refine follows_ite (fun _ => leads_group hrecur ((keeps_items hrecur).apart.of_unsettled _))
    fun _ => ?_
  refine follows_sees_async_parameter ?_ ?_
  · rintro rfl
    refine follows_next fun _ => keeps_reference.apart.bind ?_
    rintro ⟨name, seen⟩ ⟨name', seen'⟩ _ ⟨hname, hseen⟩
    refine follows_sees (follows_ite (fun _ => ?_) fun _ => follows_fail_bind)
    refine hname.stays_single_parameter.bind fun parameters parameters' hparameters => ?_
    refine keeps_arrow_rest hrecur true ?_ hseen _
    exact ⟨hparameters.names, hparameters.simple, hparameters.count, hparameters.hasRest⟩
  · exact (keeps_primary hrecur true).bind fun _ _ _ hname =>
      keeps_name_or_arrow hrecur line line' _ hname _

theorem keeps_behind_operand (hrecur : pairing.KeepsParts recur) {first first' : Term}
    (hfirst : first.Alike first') :
    pairing.Keeps true true (behindOperand recur context first)
      (behindOperand recur context first') Term.Alike := by
  intro token
  unfold behindOperand
  refine (keeps_binary hrecur hfirst).bind_settled fun _ _ _ hterm => ?_
  refine (keeps_conditional hrecur hterm).bind_settled fun _ _ _ hwhole => ?_
  exact keeps_assignment_rest hrecur hwhole _

/-- An arrow function is a whole expression; behind another operand one may go on. -/
theorem leads_operand (hrecur : pairing.KeepsParts recur)
    (h : pairing.Leads before true (arrowOrOperand recur context) (arrowOrOperand recur context)
      Term.Alike) :
    pairing.Leads before true
      (do
        let term ← arrowOrOperand recur context
        if term.form == .arrow then pure term
        else behindOperand recur context (← postfixStep term))
      (do
        let term ← arrowOrOperand recur context
        if term.form == .arrow then pure term
        else behindOperand recur context (← postfixStep term)) Term.Alike := by
  refine Pairing.Leads.bind h fun term term' _ hterm => ?_
  refine follows_ite_iff (by rw [hterm.form]) (fun _ => follows_return hterm id) fun _ => ?_
  exact (keeps_postfix_step hterm).bind_settled fun _ _ _ hfirst =>
    keeps_behind_operand hrecur hfirst _

theorem keeps_assignment (hrecur : pairing.KeepsParts recur) :
    pairing.Keeps false true (assignment recur context) (assignment recur context)
      Term.Alike := by
  intro token
  rw [assignment_eq]
  refine follows_sees_word (follows_ite (fun hyield => ?_) fun _ => follows_current ?_)
  · rw [Bool.and_eq_true, beq_iff_eq] at hyield
    obtain ⟨-, rfl⟩ := hyield
    exact follows_suspension hrecur
  refine follows_ite (fun _ => ?_) fun _ => ?_
  · exact leads_operand hrecur ((keeps_arrow_or_operand hrecur).of_unsettled _)
  · exact (keeps_right_operand hrecur 0).bind fun _ _ _ hfirst =>
      keeps_behind_operand hrecur hfirst _

end TemplateBundle.Script

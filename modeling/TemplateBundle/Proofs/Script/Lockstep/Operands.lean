import TemplateBundle.Proofs.Script.Lockstep.Functions

/-!
# Operands in step
-/

namespace TemplateBundle.Script

variable {pairing : Pairing} {recur : Recur} {context : Context} {settled : Bool} {token : Token}
  {before : Cursor → Cursor → Prop}

/-! ## Expressions in brackets and templates -/

theorem leads_expression (hrecur : pairing.KeepsParts recur)
    (h : pairing.Leads before true (recur (.assignment context)) (recur (.assignment context))
      Term.Alike) :
    pairing.Leads before true (expression recur context) (expression recur context)
      Term.Alike := by
  unfold expression
  refine Pairing.Leads.bind h fun first first' token hfirst => follows_sees ?_
  refine follows_ite (fun _ => ?_) fun _ => follows_return hfirst id
  refine hfirst.stays_settle.bind fun _ _ _ => ?_
  refine keeps_repeat (fun _ _ => True) (fun _ _ token _ => ?_) _ trivial token
  refine follows_accepts (fun _ => ?_) fun _ => follows_done (plain_alike _ _ _) id
  exact (keeps_value hrecur).bind fun _ _ _ _ => follows_again trivial id

theorem keeps_expression (hrecur : pairing.KeepsParts recur) :
    pairing.Keeps false true (expression recur context) (expression recur context) Term.Alike :=
  fun token => leads_expression hrecur (hrecur.assignment context token)

theorem leads_inner_expression (hrecur : pairing.KeepsParts recur)
    (h : pairing.Leads before true (recur (.assignment { context with allowsIn := true }))
      (recur (.assignment { context with allowsIn := true })) Term.Alike) :
    pairing.Leads before true (innerExpression recur context) (innerExpression recur context)
      Term.Alike := by
  unfold innerExpression
  refine Pairing.Leads.bind (leads_expression hrecur h) fun term term' _ hterm => ?_
  exact hterm.stays_settle.bind fun _ _ _ => follows_return hterm id

theorem keeps_inner_expression (hrecur : pairing.KeepsParts recur) :
    pairing.Keeps false true (innerExpression recur context) (innerExpression recur context)
      Term.Alike :=
  fun token => leads_inner_expression hrecur (hrecur.assignment _ token)

theorem keeps_template (hrecur : pairing.KeepsParts recur) (hticks : pairing.ticks)
    (tagged : Bool) :
    pairing.Keeps false true (template recur context tagged) (template recur context tagged)
      fun _ _ => True := by
  intro token
  unfold template
  refine follows_repeat (fun _ _ => True) trivial fun _ _ token _ => ?_
  refine follows_template_text hticks fun read read' hopens hfault hplaces => ?_
  refine follows_when (stays_fail_any hfault) (follows_resume hplaces fun _ => ?_)
  refine follows_ite_iff (by rw [hopens]) (fun _ => ?_) fun hends => ?_
  · refine (keeps_inner_expression hrecur).bind fun _ _ _ _ => follows_sees ?_
    exact follows_ite (fun _ => follows_again trivial nofun) fun _ => follows_fail_bind
  · exact follows_done trivial fun _ => by simpa using hends

theorem Items.Alike.stays_settle {read read' : Items} (h : read.Alike read') :
    pairing.Stays (read.items.forM fun item => item.term.settle)
      (read'.items.forM fun item => item.term.settle) fun _ _ => True :=
  stays_for_each (fun _ _ hitem => hitem.term.stays_settle) h.items

theorem keeps_call_arguments (hrecur : pairing.KeepsParts recur) :
    pairing.Keeps false true (callArguments recur context) (callArguments recur context)
      fun _ _ => True := by
  intro token
  unfold callArguments
  exact (keeps_items hrecur).bind fun read read' _ hread => hread.stays_settle.keeps _

/-! ## Arrays and objects -/

namespace Term.Alike

variable {term term' part part' : Term}

theorem with_part (h : term.Alike term') (hpart : part.Alike part') :
    (term.withPart part).Alike (term'.withPart part') where
  form := h.form
  isTarget := h.isTarget
  patternFault := by simp [Term.withPart, firstFault, h.patternFault, hpart.patternFault]
  bindingFault := by simp [Term.withPart, firstFault, h.bindingFault, hpart.bindingFault]
  names := SameNames.append h.names hpart.names
  coverFault := by simp [Term.withPart, firstFault, h.coverFault, hpart.coverFault]

theorem as_rest (h : term.Alike term') (line line' : Nat) (isLast : Bool) :
    (term.asRest line isLast).Alike (term'.asRest line' isLast) := by
  unfold Term.asRest
  rw [h.form]
  split
  · exact h
  · exact ⟨rfl, h.isTarget, rfl, rfl, h.names, h.coverFault⟩

theorem as_field_rest (h : term.Alike term') (line line' : Nat) (isLast : Bool) :
    (term.asFieldRest line isLast).Alike (term'.asFieldRest line' isLast) := by
  have hrest := h.as_rest line line' isLast
  unfold Term.asFieldRest
  refine ⟨hrest.form, hrest.isTarget, ?_, ?_, hrest.names, hrest.coverFault⟩
  · dsimp only
    rw [hrest.isTarget]
    split
    · exact hrest.patternFault
    · rfl
  · dsimp only
    rw [hrest.form]
    split
    · exact hrest.bindingFault
    · rfl

end Term.Alike

theorem empty_literal_alike (line line' : Nat) :
    (Term.emptyLiteral line).Alike (Term.emptyLiteral line') :=
  ⟨rfl, rfl, rfl, rfl, rfl, rfl⟩

theorem keeps_array_literal (hrecur : pairing.KeepsParts recur) :
    pairing.Keeps false true (arrayLiteral recur context) (arrayLiteral recur context)
      Term.Alike := by
  intro token
  unfold arrayLiteral
  refine follows_line fun line line' => follows_expect fun _ => ?_
  refine follows_repeat Term.Alike (empty_literal_alike line line') fun whole whole' _ hwhole => ?_
  refine follows_accepts (fun _ => follows_done hwhole (by decide)) fun _ => ?_
  refine follows_accepts (fun _ => follows_again hwhole nofun) fun _ => ?_
  refine follows_line fun start start' => (keeps_accepts "...").bind ?_
  rintro spread _ _ rfl
  refine (hrecur.assignment _).bind fun term term' _ hterm => ?_
  refine follows_separator fun isLast _ _ => follows_again (hwhole.with_part ?_) nofun
  cases spread with
  | false => exact hterm
  | true => exact hterm.as_rest start start' isLast

theorem keeps_covered_name (hrecur : pairing.KeepsParts recur) {name name' : Term}
    (hname : name.Alike name') :
    pairing.Keeps true true (coveredName recur context name) (coveredName recur context name')
      Term.Alike := by
  intro token
  unfold coveredName
  refine (keeps_initializer hrecur).bind_settled ?_
  rintro covers _ _ rfl
  refine follows_ite (fun _ => follows_return ?_ id) fun _ => follows_return hname id
  exact ⟨hname.form, hname.isTarget, hname.patternFault, hname.bindingFault, hname.names, rfl⟩

theorem keeps_object_field (hrecur : pairing.KeepsParts recur) :
    pairing.Keeps false true (objectField recur context) (objectField recur context)
      Term.Alike := by
  intro token
  unfold objectField
  refine follows_line fun start start' => keeps_method_head.bind_settled ?_
  rintro head _ _ rfl
  refine (keeps_key hrecur false).bind fun field field' _ hfield => follows_sees ?_
  refine follows_ite (fun _ => ?_) fun _ => ?_
  · exact (keeps_method hrecur head.kind head.accessor).bind fun _ _ _ _ =>
      follows_return (plain_alike start start' .other) id
  refine follows_ite (fun _ => follows_fail) fun _ => ?_
  refine follows_accepts (fun _ => (hrecur.assignment context).of_unsettled _) fun _ => ?_
  rw [hfield.isName, hfield.text]
  refine follows_ite nofun fun _ => follows_ite (fun _ => ?_) fun _ => follows_fail
  refine (stays_check_name _ _ _).bind fun _ _ _ => ?_
  exact keeps_covered_name hrecur (term_of_name_alike _ _ _ _) _

theorem keeps_object_literal (hrecur : pairing.KeepsParts recur) :
    pairing.Keeps false true (objectLiteral recur context) (objectLiteral recur context)
      Term.Alike := by
  intro token
  unfold objectLiteral
  refine follows_line fun line line' => follows_expect fun _ => ?_
  refine follows_repeat Term.Alike (empty_literal_alike line line') fun whole whole' _ hwhole => ?_
  refine follows_accepts (fun _ => follows_done hwhole (by decide)) fun _ => ?_
  refine follows_line fun start start' => follows_accepts (fun _ => ?_) fun _ => ?_
  · refine (hrecur.assignment _).bind fun term term' _ hterm => follows_sees ?_
    rw [pure_bind, pure_bind]
    exact follows_separator fun _ _ _ =>
      follows_again (hwhole.with_part (hterm.as_field_rest start start' _)) nofun
  · refine (keeps_object_field hrecur).bind fun part part' _ hpart => ?_
    exact follows_separator fun _ _ _ => follows_again (hwhole.with_part hpart) nofun

/-! ## Operands -/

theorem Term.Alike.parenthesised {term term' : Term} (h : term.Alike term') (line line' : Nat) :
    (Term.parenthesised line term).Alike (Term.parenthesised line' term') where
  form := rfl
  isTarget := h.isTarget
  patternFault := by
    unfold Term.parenthesised
    rw [h.isTarget]
    split <;> rfl
  bindingFault := rfl
  names := rfl
  coverFault := rfl

/-- No item is spread. -/
theorem Items.Alike.stays_plain {read read' : Items} (h : read.Alike read') :
    pairing.Stays
      (read.items.forM fun item => do
        if item.spread then Reading.failAt item.term.line
        item.term.settle)
      (read'.items.forM fun item => do
        if item.spread then Reading.failAt item.term.line
        item.term.settle) fun _ _ => True := by
  refine stays_for_each (fun item item' hitem settled token => ?_) h.items
  exact follows_ite_iff (by rw [hitem.spread]) (fun _ => follows_fail_at_bind)
    fun _ => hitem.term.stays_settle settled token

theorem Items.Alike.stays_to_term {read read' : Items} (h : read.Alike read') :
    pairing.Stays read.toTerm read'.toTerm Term.Alike := by
  intro settled token
  unfold Items.toTerm
  refine h.stays_plain.bind fun _ _ _ => ?_
  refine follows_ite_iff (by rw [h.trailing]) (fun _ => follows_fail_at_bind) fun _ => ?_
  obtain ⟨list, trailing, first, last⟩ := read
  obtain ⟨list', trailing', first', last'⟩ := read'
  obtain ⟨hitems, -⟩ := h
  cases hitems with
  | nil => exact follows_current (follows_ite (fun _ => follows_fail) fun _ => follows_fail_at _)
  | cons hitem hothers =>
      cases hothers with
      | nil => exact stays_pure (hitem.term.parenthesised first first') settled token
      | cons _ _ => exact stays_pure (plain_alike first first' .other) settled token

theorem keeps_literal :
    pairing.Keeps false true (literal context) (literal context) Term.Alike := by
  intro token
  unfold literal
  refine follows_line fun line line' => follows_current ?_
  split
  · refine follows_when (stays_report _ _) ?_
    exact follows_next fun _ => follows_return (plain_alike _ _ _) fun _ => rfl
  · refine follows_when (stays_report _ _) ?_
    exact follows_next fun _ => follows_return (plain_alike _ _ _) fun _ => rfl
  · exact follows_fail

theorem follows_regular_expression (htoken : token = .sign "/" ∨ token = .sign "/=") :
    Follows (pairing.At settled token) regularExpression regularExpression
      fun found other here there => found.Alike other ∧ pairing.Somewhere true here there := by
  intro here there hat found here' hrun
  obtain ⟨_, hread, hrest⟩ := except_bind_ok_iff.mp hrun
  obtain ⟨behind, hregex, ⟨⟩⟩ := except_bind_ok_iff.mp hread
  obtain ⟨⟨⟨⟩, here₁⟩, hresume, ⟨⟩⟩ := except_bind_ok_iff.mp hrest
  obtain ⟨behind', hregex', hplaces⟩ := hat.lexeme.regex (hat.token ▸ htoken) behind hregex
  obtain ⟨there₁, hresume', hat₁⟩ := hat.resume hplaces hresume
  have hread' : (liftM (regexAt there.lexeme.start) : Reading Place).run there =
      .ok (behind', there) := except_bind_ok_iff.mpr ⟨behind', hregex', rfl⟩
  refine ⟨Term.other there.lexeme.start.line, there₁, ?_, plain_alike _ _ _, hat₁⟩
  exact except_bind_ok_iff.mpr ⟨_, hread', except_bind_ok_iff.mpr ⟨_, hresume', rfl⟩⟩

theorem keeps_super_operand (calls : Bool) :
    pairing.Keeps false true (superOperand context calls) (superOperand context calls)
      Term.Alike := by
  intro token
  unfold superOperand
  refine follows_line fun line line' => follows_expect_word fun next => ?_
  refine follows_sees (follows_sees ?_)
  have hlast := plain_alike line line' .other
  refine follows_ite (fun _ => ?_) fun _ => follows_sees ?_
  · exact follows_ite (fun _ => follows_fail_at_bind) fun _ => follows_return hlast id
  · refine follows_ite (fun _ => ?_) fun _ => follows_fail_bind
    exact follows_when (stays_report _ _) (follows_return hlast id)

theorem keeps_import_operand (hrecur : pairing.KeepsParts recur) (calls : Bool) :
    pairing.Keeps false true (importOperand recur context calls)
      (importOperand recur context calls) Term.Alike := by
  intro token
  unfold importOperand
  refine follows_line fun line line' => follows_expect_word fun next => follows_sees ?_
  refine follows_ite (fun _ => ?_) fun _ => follows_fail_at_bind
  refine (keeps_items hrecur).bind fun read read' _ hread => ?_
  refine hread.stays_plain.bind fun _ _ _ => ?_
  have hcount : (read.items.isEmpty || decide (2 < read.items.length)) =
      (read'.items.isEmpty || decide (2 < read'.items.length)) := by
    rw [Bool.eq_iff_iff]
    simp only [Bool.or_eq_true, List.isEmpty_iff_length_eq_zero, hread.items.length_eq]
  refine follows_ite_iff (by rw [hcount]) (fun _ => follows_fail_at_bind) fun _ => ?_
  exact follows_return (plain_alike line line' .other) id

theorem keeps_creation (hrecur : pairing.KeepsParts recur) :
    pairing.Keeps false true (creation recur context) (creation recur context) Term.Alike := by
  intro token
  unfold creation
  refine follows_line fun line line' => follows_expect_word fun next => ?_
  have hlast := plain_alike line line' .other
  refine follows_accepts (fun _ => follows_expect_word fun _ => ?_) fun _ => ?_
  · exact follows_when (stays_report _ _) (follows_return hlast id)
  refine (hrecur.operand context false).bind fun callee callee' _ hcallee => ?_
  refine hcallee.stays_settle.bind fun _ _ _ => follows_sees ?_
  refine follows_ite (fun _ => follows_fail_bind) fun _ => follows_sees ?_
  refine follows_ite (fun _ => ?_) fun _ => follows_return hlast id
  exact (keeps_call_arguments hrecur).bind fun _ _ _ _ => follows_return hlast id

/-- A function behind `async` on the same line is there in both texts or in none. -/
theorem follows_sees_async_function {γ δ : Type} {after : γ → δ → Cursor → Cursor → Prop}
    {rest : Bool → Reading γ} {others : Bool → Reading δ}
    (h : ∀ found, (found = true → token = .name "async" false) →
      Follows (pairing.At settled token) (rest found) (others found) after) :
    Follows (pairing.At settled token) (seesAsyncFunction >>= rest)
      (seesAsyncFunction >>= others) after := by
  unfold seesAsyncFunction
  rw [bind_assoc, bind_assoc]
  refine follows_sees_word ?_
  by_cases htoken : token = .name "async" false
  · rw [if_pos (by exact beq_iff_eq.mpr htoken), bind_assoc, bind_assoc]
    refine follows_peek (htoken ▸ rfl) fun lexeme lexeme' hlexeme hsettled => ?_
    rw [pure_bind, pure_bind, ← hlexeme]
    obtain hnewline | ⟨-, hbrace⟩ := hsettled
    · rw [hnewline]
      exact h _ fun _ => htoken
    · rw [hbrace]
      exact h false nofun
  · rw [if_neg (by exact mt eq_of_beq htoken), pure_bind, pure_bind]
    exact h false nofun

theorem follows_word_operand (hrecur : pairing.KeepsParts recur) (calls : Bool) (word : String) :
    Follows (pairing.At settled (.name word false)) (wordOperand recur context calls word)
      (wordOperand recur context calls word) fun found other here there =>
        found.Alike other ∧ pairing.Somewhere true here there := by
  unfold wordOperand
  refine follows_line fun line line' => ?_
  have hlast := plain_alike line line' .other
  split
  case h_5 | h_6 =>
    first
      | exact (keeps_function hrecur false false).bind fun _ _ _ _ => follows_return hlast id
      | exact (keeps_class hrecur false).bind fun _ _ _ _ => follows_return hlast id
  case h_7 => exact (keeps_creation hrecur).of_unsettled _
  case h_8 => exact (keeps_super_operand calls).of_unsettled _
  case h_9 => exact (keeps_import_operand hrecur calls).of_unsettled _
  case h_10 =>
    refine follows_sees_async_function fun found _ => ?_
    refine follows_ite (fun _ => ?_) fun _ => keeps_reference.of_unsettled _
    refine follows_next fun _ => ?_
    exact (keeps_function hrecur true false).bind fun _ _ _ _ => follows_return hlast id
  -- the words that stand for values
  all_goals exact follows_next fun _ => follows_return hlast fun _ => rfl

theorem keeps_primary (hrecur : pairing.KeepsParts recur) (calls : Bool) :
    pairing.Keeps false true (primary recur context calls) (primary recur context calls)
      Term.Alike := by
  intro token
  unfold primary
  refine follows_line fun line line' => follows_current ?_
  split
  · exact follows_word_operand hrecur calls _
  · exact keeps_reference _
  · exact keeps_literal _
  · exact keeps_literal _
  · refine (keeps_items hrecur).apart.bind ?_
    rintro ⟨read, seen⟩ ⟨read', seen'⟩ _ ⟨hread, hseen⟩
    exact (stays_keep hseen).bind fun _ _ _ => hread.stays_to_term.keeps _
  · exact keeps_array_literal hrecur _
  · exact keeps_object_literal hrecur _
  · exact follows_ticks fun hticks => (keeps_template hrecur hticks false).bind fun _ _ _ _ =>
      follows_return (plain_alike line line' .other) id
  · exact follows_regular_expression (.inl rfl)
  · exact follows_regular_expression (.inr rfl)
  · exact follows_fail

/-! ## Fields and calls -/

theorem term_field_alike (line line' : Nat) (hidden : Bool) :
    (Term.field line hidden).Alike (Term.field line' hidden) :=
  ⟨rfl, rfl, rfl, rfl, rfl, rfl⟩

theorem keeps_field_name (line line' : Nat) :
    pairing.Keeps false true (fieldName line) (fieldName line') Term.Alike := by
  intro token
  unfold fieldName
  refine follows_current ?_
  split
  · exact follows_next fun _ => follows_return (term_field_alike _ _ _) fun _ => rfl
  · exact follows_next fun _ => follows_return (term_field_alike _ _ _) fun _ => rfl
  · exact follows_fail

theorem keeps_optional_field (hrecur : pairing.KeepsParts recur) (line line' : Nat) :
    pairing.Keeps false true (optionalField recur context line) (optionalField recur context line')
      fun _ _ => True := by
  intro token
  unfold optionalField
  refine follows_current ?_
  split
  · exact keeps_call_arguments hrecur _
  · refine follows_next fun _ => (keeps_inner_expression hrecur).bind fun _ _ _ _ => ?_
    rw [← bind_pure (Reading.expect "]")]
    exact follows_expect fun _ => follows_return trivial (by decide)
  · exact (keeps_field_name line line').bind fun _ _ _ _ => follows_return trivial id

/-- The same operand. -/
structure Chain.Alike (first second : Chain) : Prop where
  term : first.term.Alike second.term
  optional : first.optional = second.optional

/-- What a part behind an operand makes of it. -/
theorem Chain.Alike.with_term {chain chain' : Chain} (h : chain.Alike chain') {term term' : Term}
    (hterm : term.Alike term') (line line' : Nat) :
    Chain.Alike
      { chain with term := if chain.optional then Term.plain line term.form else term }
      { chain' with term := if chain'.optional then Term.plain line' term'.form else term' } := by
  refine ⟨?_, h.optional⟩
  dsimp only
  rw [h.optional, hterm.form]
  split
  · exact plain_alike line line' _
  · exact hterm

theorem follows_subscript (hrecur : pairing.KeepsParts recur) (calls : Bool) {chain chain' : Chain}
    (hchain : chain.Alike chain') :
    Follows (pairing.At true token) (subscript recur context calls chain)
      (subscript recur context calls chain')
      (pairing.Rounds true true Chain.Alike Term.Alike) := by
  unfold subscript
  refine follows_current ?_
  have hsettle := @Term.Alike.stays_settle pairing _ _ hchain.term
  split
  · refine hsettle.bind fun _ _ _ => follows_next fun _ => ?_
    refine (keeps_field_name _ _).bind fun term term' _ hterm => ?_
    exact follows_again (hchain.with_term hterm _ _) id
  · refine hsettle.bind fun _ _ _ => follows_next fun _ => ?_
    refine (keeps_inner_expression hrecur).bind fun _ _ _ _ => follows_expect fun _ => ?_
    exact follows_again (hchain.with_term (term_field_alike _ _ _) _ _) (by decide)
  · refine hsettle.bind fun _ _ _ => ?_
    refine follows_ite_iff (by rw [hchain.optional]) (fun _ => follows_fail_bind) fun _ => ?_
    refine follows_ticks fun hticks => (keeps_template hrecur hticks true).bind fun _ _ _ _ => ?_
    exact follows_again (hchain.with_term (plain_alike _ _ _) _ _) id
  · refine follows_ite (fun _ => ?_) fun _ => follows_done hchain.term id
    refine hsettle.bind fun _ _ _ => (keeps_call_arguments hrecur).bind fun _ _ _ _ => ?_
    exact follows_again (hchain.with_term (plain_alike _ _ _) _ _) id
  · refine follows_ite (fun _ => ?_) fun _ => follows_done hchain.term id
    refine hsettle.bind fun _ _ _ => follows_next fun _ => follows_sees ?_
    refine follows_ite (fun _ => follows_fail_bind) fun _ => ?_
    refine (keeps_optional_field hrecur _ _).bind fun _ _ _ _ => ?_
    exact follows_again ⟨plain_alike _ _ _, rfl⟩ id
  · exact follows_done hchain.term id

theorem keeps_subscripts (hrecur : pairing.KeepsParts recur) (calls : Bool) {term term' : Term}
    (hterm : term.Alike term') :
    pairing.Keeps true true (subscripts recur context calls term)
      (subscripts recur context calls term') Term.Alike :=
  keeps_repeat Chain.Alike (fun _ _ _ hchain => follows_subscript hrecur calls hchain) _
    ⟨hterm, rfl⟩

theorem keeps_operand (hrecur : pairing.KeepsParts recur) (calls : Bool) :
    pairing.Keeps false true (operand recur context calls) (operand recur context calls)
      Term.Alike := by
  intro token
  unfold operand
  exact (keeps_primary hrecur calls).bind fun _ _ _ hterm => keeps_subscripts hrecur calls hterm _

end TemplateBundle.Script

import TemplateBundle.Proofs.Script.Reading
import TemplateBundle.Proofs.Script.Parts

/-!
# Reading expressions

How the parser reads names, string literals, fields, parentheses and assignments in code that is not
strict. Each lemma takes the parts of an expression as read and says how the whole is.
-/

namespace TemplateBundle.Script

open Reading Shown

/-- Plain code is not strict and belongs to no generator, to no asynchronous function and to no class.
Its loops may go through a few rounds. -/
structure Context.IsPlain (context : Context) : Prop where
  sloppy : context.strict = false
  generator : context.generator = false
  asynchronous : context.asynchronous = false
  keeps_arguments : context.refusesArguments = false
  rounds : 8 ≤ context.bound

theorem Context.IsPlain.inner {context : Context} (h : context.IsPlain) :
    Context.IsPlain { context with allowsIn := true } :=
  ⟨h.sloppy, h.generator, h.asynchronous, h.keeps_arguments, h.rounds⟩

theorem Context.IsPlain.settled {context : Context} (h : context.IsPlain) :
    Context.IsPlain { context with pending := [] } :=
  ⟨h.sloppy, h.generator, h.asynchronous, h.keeps_arguments, h.rounds⟩

/-- In plain code such a part is read from the tokens. -/
def ReadsPlain (recur : Recur) (goal : Context → Goal) (before after : List Shown)
    (result : Term → Prop) : Prop :=
  ∀ context : Context, context.IsPlain → Reads (recur (goal context)) before after result

/-- The word is a name wherever plain code has one. -/
def isOrdinary (word : String) : Bool :=
  !isReserved word && !(["async", "await", "let", "yield"].contains word)

/-- The token is one of the signs, or the script ends. -/
def Token.IsOneOf (signs : List String) : Token → Prop
  | .sign text => text ∈ signs
  | .stop => True
  | _ => False

instance (signs : List String) : DecidablePred (Token.IsOneOf signs)
  | .sign text => inferInstanceAs (Decidable (text ∈ signs))
  | .stop => isTrue trivial
  | .name .. | .hidden _ | .number _ | .string .. => isFalse id

/-- Signs behind a whole value. -/
def valueEnds : List String := [")", ",", ";", "\x7d"]

/-- Signs behind an operand that is not joined to another one. -/
def termEnds : List String := "=" :: "+=" :: valueEnds

/-- Signs behind an operand. -/
def operandEnds : List String := "||" :: termEnds

variable {recur : Recur} {context : Context} {name sign : String} {signs : List String}
  {line : Nat} {token : Token} {shown : Shown} {tokens before middle after : List Shown}
  {term : Term} {result final : Term → Prop}

/-! ## Words and signs -/

theorem ordinary_ne {word other : String} (h : isOrdinary word = true)
    (hother : isOrdinary other = false) : word ≠ other := by
  rintro rfl
  exact Bool.false_ne_true (hother.symm.trans h)

theorem beq_word_of_ordinary {word other : String} (h : isOrdinary word = true)
    (hother : isOrdinary other = false) :
    ((Shown.word word).token == .name other false) = false := by
  rw [beq_eq_false_iff_ne]
  intro heq
  cases heq
  exact Bool.false_ne_true (hother.symm.trans h)

theorem beq_sign_of_one_of (h : token.IsOneOf signs) (hsign : sign ∉ signs) :
    (token == .sign sign) = false := by
  rw [beq_eq_false_iff_ne]
  rintro rfl
  exact hsign h

theorem Token.IsOneOf.mono {others : List String} (h : token.IsOneOf signs)
    (hsub : signs ⊆ others) : token.IsOneOf others := by
  cases token with
  | sign text => exact hsub h
  | _ => exact h

theorem ends_term_of_value (h : token.IsOneOf valueEnds) : token.IsOneOf termEnds :=
  h.mono (by decide)

theorem ends_operand_of_term (h : token.IsOneOf termEnds) : token.IsOneOf operandEnds :=
  h.mono (by decide)

/-! ## Names -/

theorem reads_check_name (hcontext : context.IsPlain) (hname : isOrdinary name = true) :
    Reads (checkName context name line) tokens tokens anything := by
  have hreserved : isReserved name = false := by
    unfold isOrdinary at hname
    rw [Bool.and_eq_true, Bool.not_eq_true'] at hname
    exact hname.1
  have hawait : (name == "await") = false := beq_eq_false_iff_ne.mpr (ordinary_ne hname (by decide))
  unfold checkName
  simp only [hreserved, hcontext.sloppy, hcontext.generator, hawait, hcontext.keeps_arguments,
    Bool.and_false, Bool.false_and, Bool.false_eq_true, if_false]
  exact reads_pure trivial

/-- A name in use is a term that can be assigned to. -/
theorem reads_reference (hcontext : context.IsPlain) (hname : isOrdinary name = true) :
    Reads (reference context) (word name :: tokens) tokens fun term =>
      ∃ line, term = Term.ofName false name line := by
  unfold reference
  refine reads_bind_eq reads_current ?_
  refine reads_bind reads_line fun line _ => ?_
  refine reads_bind (reads_check_name hcontext hname) fun _ _ => ?_
  refine reads_bind (reads_next rfl) fun _ _ => ?_
  rw [hcontext.sloppy]
  exact reads_pure ⟨line, rfl⟩

theorem reads_binding_name (hcontext : context.IsPlain) (hname : isOrdinary name = true) :
    Reads (bindingName context) (word name :: tokens) tokens fun term =>
      ∃ line, term = Term.ofName false name line := by
  unfold bindingName
  refine reads_bind (reads_reference hcontext hname) ?_
  rintro _ ⟨line, rfl⟩
  exact reads_pure ⟨line, rfl⟩

theorem reads_binding (hcontext : context.IsPlain) (hname : isOrdinary name = true) :
    Reads (binding recur context) (word name :: tokens) tokens fun term =>
      ∃ line, term = Term.ofName false name line := by
  unfold binding
  refine reads_bind reads_line fun _ _ => ?_
  refine reads_bind_eq (reads_accepts_other rfl) ?_
  refine reads_bind_eq (reads_accepts_other rfl) ?_
  exact reads_binding_name hcontext hname

theorem reads_sees_async_function (h : (shown.token == .name "async" false) = false) :
    Reads seesAsyncFunction (shown :: tokens) (shown :: tokens) (· = false) := by
  unfold seesAsyncFunction
  refine reads_bind_eq (reads_sees_word _) ?_
  rw [h, if_neg Bool.false_ne_true]
  exact reads_pure rfl

theorem reads_sees_async_parameter (h : (shown.token == .name "async" false) = false) :
    Reads seesAsyncParameter (shown :: tokens) (shown :: tokens) (· = false) := by
  unfold seesAsyncParameter
  refine reads_bind_eq (reads_sees_word _) ?_
  rw [h, if_neg Bool.false_ne_true]
  exact reads_pure rfl

/-- An ordinary word is read as a name where an operand may stand. -/
theorem reads_primary_word (hcontext : context.IsPlain) (hname : isOrdinary name = true)
    (calls : Bool) :
    Reads (primary recur context calls) (word name :: tokens) tokens fun term =>
      ∃ line, term = Term.ofName false name line := by
  unfold primary
  refine reads_bind reads_line fun _ _ => ?_
  refine reads_bind_eq reads_current ?_
  show Reads (wordOperand recur context calls name) _ _ _
  unfold wordOperand
  refine reads_bind reads_line fun _ _ => ?_
  -- no word with a meaning of its own is ordinary
  split
  case h_10 =>
    refine reads_bind_eq (reads_sees_async_function (beq_word_of_ordinary hname (by decide))) ?_
    exact reads_reference hcontext hname
  all_goals exact absurd hname (by decide)

/-! ## Operands -/

theorem reads_literal {written : List Char} :
    Reads (literal context) (string written :: tokens) tokens fun term =>
      ∃ line, term = Term.plain line (.string written false) := by
  unfold literal
  refine reads_bind reads_line fun line _ => ?_
  refine reads_bind_eq reads_current ?_
  exact reads_bind (reads_next rfl) fun _ _ => reads_pure ⟨line, rfl⟩

theorem reads_primary_string {written : List Char} (calls : Bool) :
    Reads (primary recur context calls) (string written :: tokens) tokens fun term =>
      ∃ line, term = Term.plain line (.string written false) := by
  unfold primary
  refine reads_bind reads_line fun _ _ => ?_
  exact reads_bind_eq reads_current reads_literal

/-- An object without fields. -/
theorem reads_primary_object (hcontext : context.IsPlain) (calls : Bool) :
    Reads (primary recur context calls) (.sign "\x7b" :: .sign "\x7d" :: tokens) tokens fun term =>
      ∃ line, term = Term.emptyLiteral line := by
  have hround : 0 < context.bound := Nat.lt_of_lt_of_le (by decide) hcontext.rounds
  unfold primary
  refine reads_bind reads_line fun _ _ => ?_
  refine reads_bind_eq reads_current ?_
  show Reads (objectLiteral recur context) _ _ _
  unfold objectLiteral
  refine reads_bind reads_line fun line _ => ?_
  refine reads_bind (reads_expect _) fun _ _ => ?_
  refine reads_done hround (reads_bind_eq (reads_accepts _) ?_)
  exact reads_pure ⟨_, rfl, line, rfl⟩

/-- A single item between parentheses. -/
theorem reads_items (hcontext : context.IsPlain) (hclosed : (shown.token == .sign ")") = false)
    (hspread : (shown.token == .sign "...") = false)
    (hitem : ReadsPlain recur .assignment (shown :: before) (.sign ")" :: tokens) result) :
    Reads (items recur context) (.sign "(" :: shown :: before) tokens fun read =>
      ∃ term first last, result term ∧
        read = { items := [{ spread := false, term := term }], trailing := false, first := first,
                 last := last } := by
  have hrounds := hcontext.rounds
  unfold items
  refine reads_bind reads_line fun first _ => ?_
  refine reads_bind (reads_expect _) fun _ _ => ?_
  refine reads_again (.sign ")" :: tokens)
    (fun state => ∃ term, result term ∧ state = ([{ spread := false, term := term }], false))
    (by omega) ?item ?rest
  case item =>
    refine reads_bind reads_line fun _ _ => ?_
    refine reads_bind_eq (reads_accepts_other hclosed) ?_
    refine reads_bind_eq (reads_accepts_other hspread) ?_
    refine reads_bind (hitem _ hcontext.inner) fun term hterm => ?_
    refine reads_bind_eq (reads_accepts_other rfl) ?_
    refine reads_bind_eq (reads_sees _) ?_
    exact reads_pure ⟨_, rfl, term, hterm, rfl⟩
  case rest =>
    rintro _ ⟨term, hterm, rfl⟩
    refine reads_done (by omega) ?_
    refine reads_bind reads_line fun last _ => ?_
    refine reads_bind_eq (reads_accepts _) ?_
    exact reads_pure ⟨_, rfl, term, first, last, hterm, rfl⟩

theorem reads_to_term {first last : Nat} (hterm : term.coverFault = none) :
    Reads (Items.toTerm
      { items := [{ spread := false, term := term }], trailing := false, first := first,
        last := last })
      tokens tokens (· = Term.parenthesised first term) := by
  unfold Items.toTerm
  exact reads_bind (reads_bind (reads_settle hterm) fun _ _ => reads_pure trivial)
    fun (_ : PUnit) (_ : True) => reads_pure rfl

/-- A value between parentheses. -/
theorem reads_primary_group (hcontext : context.IsPlain) (calls : Bool)
    (hclosed : (shown.token == .sign ")") = false) (hspread : (shown.token == .sign "...") = false)
    (hitem : ReadsPlain recur .assignment (shown :: before) (.sign ")" :: tokens) fun term =>
      term.coverFault = none) :
    Reads (primary recur context calls) (.sign "(" :: shown :: before) tokens fun term =>
      ∃ line item, term = Term.parenthesised line item := by
  unfold primary
  refine reads_bind reads_line fun _ _ => ?_
  refine reads_bind_eq reads_current ?_
  refine reads_bind (reads_apart (reads_items hcontext hclosed hspread hitem)) ?_
  rintro ⟨_, _⟩ ⟨⟨term, first, last, hterm, rfl⟩, rfl⟩
  refine reads_bind reads_keep_nothing fun _ _ => ?_
  exact (reads_to_term hterm).mono fun _ heq => ⟨first, term, heq⟩

/-! ## Fields and operators -/

theorem reads_subscript_none (calls : Bool) {chain : Chain} (h : shown.token.IsOneOf operandEnds) :
    Reads (subscript recur context calls chain) (shown :: tokens) (shown :: tokens)
      (· = .done chain.term) := by
  unfold subscript
  refine reads_bind_eq reads_current ?_
  split
  case h_6 => exact reads_pure rfl
  all_goals
    rename_i htoken
    rw [htoken] at h
    exact absurd h (by decide)

theorem reads_subscripts_none (hcontext : context.IsPlain) (calls : Bool)
    (h : shown.token.IsOneOf operandEnds) :
    Reads (subscripts recur context calls term) (shown :: tokens) (shown :: tokens) (· = term) := by
  have hrounds := hcontext.rounds
  unfold subscripts
  exact reads_done (by omega) ((reads_subscript_none calls h).mono fun _ heq => ⟨term, heq, rfl⟩)

theorem reads_field_name :
    Reads (fieldName line) (word name :: tokens) tokens (· = Term.field line false) :=
  reads_bind_eq reads_current (reads_bind (reads_next rfl) fun _ _ => reads_pure rfl)

/-! ## Calls -/

/-- An argument of a call in plain code, with the comma behind it, if there is one. -/
def ReadsArgument (recur : Recur) (before after : List Shown) : Prop :=
  ∃ shown others, before = shown :: others ∧ (shown.token == .sign ")") = false ∧
    (shown.token == .sign "...") = false ∧
    (ReadsPlain recur .assignment before (.sign "," :: after) (·.coverFault = none) ∨
      ∃ tokens, after = .sign ")" :: tokens ∧
        ReadsPlain recur .assignment before after (·.coverFault = none))

/-- Items of which none has a part that only patterns may have. -/
def AreValues (items : List Item) : Prop :=
  ∀ item ∈ items, item.term.coverFault = none

theorem reads_argument_round {first : Nat} {state : List Item × Bool} (hcontext : context.IsPlain)
    (hstate : AreValues state.1) (h : ReadsArgument recur before after) :
    Reads (itemRound recur context first state) before after fun round =>
      ∃ state, round = .again state ∧ AreValues state.1 := by
  obtain ⟨shown, others, rfl, hclosed, hspread, hvalue⟩ := h
  unfold itemRound behindItem
  refine reads_bind reads_line fun _ _ => ?_
  refine reads_bind_eq (reads_accepts_other hclosed) ?_
  refine reads_bind_eq (reads_accepts_other hspread) ?_
  rcases hvalue with hvalue | ⟨tokens, rfl, hvalue⟩
  · refine reads_bind (hvalue _ hcontext.inner) fun term hterm => ?_
    refine reads_bind_eq (reads_accepts _) ?_
    exact reads_pure ⟨_, rfl, List.forall_mem_cons.mpr ⟨hterm, hstate⟩⟩
  · refine reads_bind (hvalue _ hcontext.inner) fun term hterm => ?_
    refine reads_bind_eq (reads_accepts_other rfl) ?_
    refine reads_bind_eq (reads_sees _) ?_
    exact reads_pure ⟨_, rfl, List.forall_mem_cons.mpr ⟨hterm, hstate⟩⟩

theorem reads_settle_all {items : List Item} (h : AreValues items) :
    Reads (items.forM fun item => item.term.settle) tokens tokens anything := by
  induction items with
  | nil => exact reads_pure trivial
  | cons item items ih =>
      obtain ⟨hitem, hitems⟩ := List.forall_mem_cons.mp h
      show Reads (item.term.settle >>= fun _ => items.forM fun item => item.term.settle) _ _ _
      exact reads_bind (reads_settle hitem) fun _ _ => ih hitems

/-- The arguments of a call. -/
theorem reads_call_arguments (count : Nat) (hcontext : context.IsPlain)
    (hcount : count < context.bound)
    (h : Series (ReadsArgument recur) count before (.sign ")" :: after)) :
    Reads (callArguments recur context) (.sign "(" :: before) after anything := by
  have hitems : Reads (items recur context) (.sign "(" :: before) after fun read =>
      AreValues read.items := by
    rw [items_eq]
    refine reads_bind reads_line fun first _ => ?_
    refine reads_bind (reads_expect _) fun _ _ => ?_
    refine reads_rounds (fun state => AreValues state.1) h ?_ ?_ hcount nofun
    · exact fun state before middle hstate => reads_argument_round hcontext hstate
    · intro state hstate
      refine reads_bind reads_line fun last _ => ?_
      refine reads_bind_eq (reads_accepts _) ?_
      exact reads_pure ⟨_, rfl, fun item hitem => hstate item (List.mem_reverse.mp hitem)⟩
  unfold callArguments
  exact reads_bind hitems fun read hread => reads_settle_all hread

/-- An operand so far, in which nothing is optional. -/
structure Chain.IsPlain (chain : Chain) : Prop where
  required : chain.optional = false
  value : chain.term.coverFault = none
  no_arrow : chain.term.form ≠ .arrow

/-- A field or a call behind an operand in plain code. -/
def ReadsSubscript (recur : Recur) (before after : List Shown) : Prop :=
  ∀ (context : Context) (chain : Chain), context.IsPlain → chain.IsPlain →
    Reads (subscript recur context true chain) before after fun round =>
      ∃ chain, round = .again chain ∧ chain.IsPlain

theorem reads_subscript_field :
    ReadsSubscript recur (.sign "." :: word name :: tokens) tokens := by
  intro context chain hcontext hchain
  unfold subscript
  refine reads_bind_eq reads_current ?_
  refine reads_bind (reads_settle hchain.value) fun _ _ => ?_
  refine reads_bind (reads_next rfl) fun _ _ => ?_
  refine reads_bind_eq reads_field_name (reads_pure ⟨_, rfl, ?_⟩)
  rw [hchain.required]
  exact ⟨rfl, rfl, nofun⟩

theorem reads_subscript_call (count : Nat) (hcount : count < 8)
    (h : Series (ReadsArgument recur) count before (.sign ")" :: after)) :
    ReadsSubscript recur (.sign "(" :: before) after := by
  intro context chain hcontext hchain
  unfold subscript
  refine reads_bind_eq reads_current ?_
  refine reads_bind (reads_settle hchain.value) fun _ _ => ?_
  have hbound : count < context.bound := Nat.lt_of_lt_of_le hcount hcontext.rounds
  refine reads_bind (reads_call_arguments count hcontext hbound h) fun _ _ => ?_
  refine reads_pure ⟨_, rfl, ?_⟩
  rw [hchain.required]
  exact ⟨rfl, rfl, nofun⟩

/-- Fields and calls behind an operand. -/
theorem reads_subscripts (count : Nat) (hcount : count < 8) (hcontext : context.IsPlain)
    (hterm : term.coverFault = none) (hform : term.form ≠ .arrow)
    (h : Series (ReadsSubscript recur) count before (shown :: tokens))
    (hend : shown.token.IsOneOf operandEnds) :
    Reads (subscripts recur context true term) before (shown :: tokens) fun found =>
      found.coverFault = none ∧ found.form ≠ .arrow := by
  unfold subscripts
  refine reads_rounds Chain.IsPlain h ?_ ?_ (Nat.lt_of_lt_of_le hcount hcontext.rounds)
    ⟨rfl, hterm, hform⟩
  · exact fun chain before middle hchain hpart => hpart context chain hcontext hchain
  · exact fun chain hchain => (reads_subscript_none true hend).mono fun _ heq =>
      ⟨_, heq, hchain.value, hchain.no_arrow⟩

theorem reads_postfix_none (h : shown.token.IsOneOf operandEnds) :
    Reads (postfixStep term) (shown :: tokens) (shown :: tokens) (· = term) := by
  have hup : (shown.token == .sign "++") = false := beq_sign_of_one_of h (by decide)
  have hdown : (shown.token == .sign "--") = false := beq_sign_of_one_of h (by decide)
  unfold postfixStep
  refine reads_bind_eq (reads_sees _) (reads_bind_eq (reads_sees _) ?_)
  refine reads_bind reads_newline fun _ _ => ?_
  rw [hup, hdown]
  exact reads_pure rfl

theorem reads_operator_none (h : shown.token.IsOneOf termEnds) :
    Reads (binaryOperator? context) (shown :: tokens) (shown :: tokens) (· = none) := by
  have hnone : ∀ text ∈ termEnds, binaryOperators.find? (fun entry => entry.1 == text) = none := by
    decide
  unfold binaryOperator?
  refine reads_bind_eq reads_current ?_
  cases htoken : shown.token with
  | sign text =>
      rw [htoken] at h
      exact reads_pure (hnone text h)
  | stop => exact reads_pure rfl
  | _ =>
      rw [htoken] at h
      exact h.elim

theorem reads_binary_none (hcontext : context.IsPlain) (h : shown.token.IsOneOf termEnds) :
    Reads (binary recur context term) (shown :: tokens) (shown :: tokens) (· = term) := by
  have hrounds := hcontext.rounds
  unfold binary
  refine reads_done (by omega) ?_
  refine reads_bind_eq (reads_operator_none h) ?_
  exact reads_pure ⟨_, rfl, rfl⟩

theorem reads_combine_or {other : Term} (hterm : term.coverFault = none)
    (hother : other.coverFault = none) (hform : term.form ≠ .coalesce)
    (hform' : other.form ≠ .coalesce) :
    Reads (combine term "||" other) tokens tokens (· = Term.plain term.line .logical) := by
  unfold combine
  refine reads_bind (reads_settle hterm) fun _ _ => ?_
  refine reads_bind (reads_settle hother) fun _ _ => ?_
  -- neither operand is one that does not mix with this operator
  have hleft : (term.form == .coalesce) = false := beq_eq_false_iff_ne.mpr hform
  have hright : (other.form == .coalesce) = false := beq_eq_false_iff_ne.mpr hform'
  rw [if_neg (by decide), if_pos (by decide)]
  simp only [hleft, hright, Bool.false_eq_true, if_false]
  exact reads_bind (reads_pure trivial) fun (_ : PUnit) (_ : True) => reads_pure rfl

/-- Two operands of which one is taken. -/
theorem reads_binary_or (hcontext : context.IsPlain) (hterm : term.coverFault = none)
    (hform : term.form ≠ .coalesce) (h : shown.token.IsOneOf termEnds)
    (hright : Reads (rightOperand recur context 1) before (shown :: tokens) fun other =>
      other.coverFault = none ∧ other.form ≠ .coalesce) :
    Reads (binary recur context term) (.sign "||" :: before) (shown :: tokens)
      (· = Term.plain term.line .logical) := by
  have hrounds := hcontext.rounds
  have hoperator : Reads (binaryOperator? context) (.sign "||" :: before) (.sign "||" :: before)
      (· = some ("||", 1)) :=
    reads_bind_eq reads_current (reads_pure rfl)
  -- nothing waits for the first operand
  have hreduce : Reads (reduce 1 [] term) (.sign "||" :: before) (.sign "||" :: before)
      (· = ([], term)) :=
    reads_pure rfl
  unfold binary
  refine reads_again (shown :: tokens)
    (fun state => ∃ other : Term, other.coverFault = none ∧ other.form ≠ .coalesce ∧
      state = ([(term, "||", 1)], other)) (by omega) ?other ?rest
  case other =>
    refine reads_bind_eq hoperator ?_
    refine reads_bind_eq hreduce ?_
    refine reads_bind (reads_next rfl) fun _ _ => ?_
    refine reads_bind hright ?_
    rintro other ⟨hother, hform'⟩
    exact reads_pure ⟨_, rfl, other, hother, hform', rfl⟩
  case rest =>
    rintro _ ⟨other, hother, hform', rfl⟩
    have hreduce : Reads (reduce 0 [(term, "||", 1)] other) (shown :: tokens) (shown :: tokens)
        (· = ([], Term.plain term.line .logical)) :=
      reads_bind_eq (reads_combine_or hterm hother hform hform') (reads_pure rfl)
    refine reads_done (by omega) ?_
    refine reads_bind_eq (reads_operator_none h) ?_
    exact reads_bind_eq hreduce (reads_pure ⟨_, rfl, rfl⟩)

/-! ## Assignments -/

theorem reads_conditional_none (h : shown.token.IsOneOf termEnds) :
    Reads (conditional recur context term) (shown :: tokens) (shown :: tokens) (· = term) := by
  unfold conditional
  refine reads_bind_eq (reads_accepts_other (beq_sign_of_one_of h (by decide))) ?_
  exact reads_pure rfl

theorem reads_assignment_none (h : shown.token.IsOneOf valueEnds) :
    Reads (assignmentRest recur context term) (shown :: tokens) (shown :: tokens) (· = term) := by
  have hnone : ∀ text ∈ valueEnds, updateOperators.contains text = false := by
    decide
  unfold assignmentRest
  refine reads_bind_eq reads_current ?_
  split
  case h_1 htoken =>
    rw [htoken] at h
    exact absurd h (by decide)
  case h_2 text _ htoken =>
    rw [htoken] at h
    rw [hnone text h, if_neg Bool.false_ne_true]
    exact reads_pure rfl
  case h_3 => exact reads_pure rfl

/-- A value that a declaration or an assignment takes. -/
theorem reads_value (hcontext : context.IsPlain)
    (hterm : ReadsPlain recur .assignment before after fun term => term.coverFault = none) :
    Reads (value recur context) before after anything := by
  unfold value
  refine reads_bind (hterm context hcontext) fun term hcover => ?_
  exact reads_bind (reads_settle hcover) fun _ _ => reads_pure trivial

theorem reads_check_target (hterm : term.isTarget = true) :
    Reads (checkTarget term) tokens tokens anything := by
  unfold checkTarget
  rw [hterm]
  exact reads_pure trivial

/-- A name that is set to a value. -/
theorem reads_assignment_set (hvalue : Reads (value recur context) before after anything) :
    Reads (assignmentRest recur context (Term.ofName false name line)) (.sign "=" :: before) after
      fun term => term.coverFault = none ∧ term.form = .assignment := by
  unfold assignmentRest
  refine reads_bind_eq reads_current ?_
  refine reads_bind (reads_check_target rfl) fun _ _ => ?_
  refine reads_bind (reads_next rfl) fun _ _ => ?_
  exact reads_bind hvalue fun _ _ => reads_pure ⟨rfl, rfl⟩

/-- A name to which a value is added. -/
theorem reads_assignment_add (hvalue : Reads (value recur context) before after anything) :
    Reads (assignmentRest recur context (Term.ofName false name line)) (.sign "+=" :: before) after
      (· = Term.other line) := by
  unfold assignmentRest
  refine reads_bind_eq reads_current ?_
  refine reads_bind (reads_settle rfl) fun _ _ => ?_
  refine reads_bind (reads_check_target rfl) fun _ _ => ?_
  refine reads_bind (reads_next rfl) fun _ _ => ?_
  exact reads_bind hvalue fun _ _ => reads_pure rfl

theorem reads_behind_none (hcontext : context.IsPlain) (h : shown.token.IsOneOf valueEnds) :
    Reads (behindOperand recur context term) (shown :: tokens) (shown :: tokens) (· = term) := by
  have hterm := ends_term_of_value h
  unfold behindOperand
  refine reads_bind_eq (reads_binary_none hcontext hterm) ?_
  refine reads_bind_eq (reads_conditional_none hterm) ?_
  exact reads_assignment_none h

/-- The token starts a string, an object or a value between parentheses. -/
def Token.StartsOperand : Token → Prop
  | .sign text => text ∈ ["(", "\x7b"]
  | .string .. => True
  | _ => False

instance : DecidablePred Token.StartsOperand
  | .sign text => inferInstanceAs (Decidable (text ∈ ["(", "\x7b"]))
  | .string .. => isTrue trivial
  | .name .. | .hidden _ | .number _ | .stop => isFalse id

/-- An operand that is no name. -/
theorem reads_right_operand {follower : Shown} {rank : Nat} (hcontext : context.IsPlain)
    (hstart : shown.token.StartsOperand) (hend : follower.token.IsOneOf operandEnds)
    (hprimary : Reads (primary recur context true) (shown :: before) (follower :: after) result) :
    Reads (rightOperand recur context rank) (shown :: before) (follower :: after) result := by
  have hoperand : Reads (do postfixStep (← operand recur context true)) (shown :: before)
      (follower :: after) result := by
    unfold operand
    refine reads_bind (reads_bind hprimary fun term hterm =>
      (reads_subscripts_none hcontext true hend).mono fun found heq => heq ▸ hterm) ?_
    exact fun term hterm => (reads_postfix_none hend).mono fun found heq => heq ▸ hterm
  -- neither a bracket nor a brace is a sign in front of an operand
  have hsigns : ∀ text ∈ ["(", "\x7b"], isPrefixSign text = false ∧ text ≠ "++" ∧ text ≠ "--" := by
    decide
  unfold rightOperand
  refine reads_bind_eq reads_current ?_
  cases htoken : shown.token with
  | sign text =>
      rw [htoken] at hstart
      obtain ⟨hsigned, hup, hdown⟩ := hsigns text hstart
      unfold unary
      refine reads_bind reads_line fun _ _ => ?_
      refine reads_bind_eq reads_current ?_
      rw [htoken]
      simp only [hsigned, hup, hdown, or_self, Bool.false_eq_true, if_false]
      exact hoperand
  | string written legacy =>
      unfold unary
      refine reads_bind reads_line fun _ _ => ?_
      refine reads_bind_eq reads_current ?_
      rw [htoken]
      exact hoperand
  | _ =>
      rw [htoken] at hstart
      exact hstart.elim

/-- An expression that starts with a string or an object. -/
theorem reads_assignment_operand {follower : Shown} (hcontext : context.IsPlain)
    (hstart : shown.token.StartsOperand) (hopen : shown.token ≠ .sign "(")
    (hend : follower.token.IsOneOf valueEnds)
    (hprimary : Reads (primary recur context true) (shown :: before) (follower :: after) result) :
    Reads (assignment recur context) (shown :: before) (follower :: after) result := by
  have hoperand := ends_operand_of_term (ends_term_of_value hend)
  have harrow : mayStartArrow context shown.token = false := by
    cases htoken : shown.token with
    | sign text =>
        rw [htoken] at hopen
        exact beq_eq_false_iff_ne.mpr fun heq => hopen (congrArg Token.sign heq)
    | name =>
        rw [htoken] at hstart
        exact hstart.elim
    | _ => rfl
  unfold assignment
  refine reads_bind_eq (reads_sees_word _) ?_
  rw [hcontext.generator, Bool.false_and, if_neg Bool.false_ne_true]
  refine reads_bind_eq reads_current ?_
  rw [harrow, if_neg Bool.false_ne_true]
  refine reads_bind (reads_right_operand hcontext hstart hoperand hprimary) fun term hterm => ?_
  exact (reads_behind_none hcontext hend).mono fun found heq => heq ▸ hterm

/-- Fields and calls behind an operand that is no parameter of an arrow function. -/
theorem reads_operand_start {first : Term → Prop} {follower : Shown}
    (hasync : (shown.token == .name "async" false) = false)
    (hopen : (shown.token == .sign "(") = false) (harrow : (follower.token == .sign "=>") = false)
    (hprimary : Reads (primary recur context true) (shown :: before) (follower :: middle) first)
    (hsubscripts : ∀ term, first term →
      Reads (subscripts recur context true term) (follower :: middle) after result) :
    Reads (arrowOrOperand recur context) (shown :: before) after result := by
  unfold arrowOrOperand
  refine reads_bind reads_line fun _ _ => ?_
  refine reads_bind_eq (reads_sees_word _) ?_
  refine reads_bind_eq (reads_sees _) ?_
  rw [hopen, if_neg Bool.false_ne_true]
  refine reads_bind_eq (reads_sees_async_parameter hasync) ?_
  rw [if_neg Bool.false_ne_true]
  refine reads_bind hprimary fun term hterm => ?_
  split
  · refine reads_bind_eq (reads_sees _) ?_
    rw [harrow, if_neg Bool.false_ne_true]
    refine reads_bind_eq (reads_sees _) ?_
    refine reads_bind reads_newline fun _ _ => ?_
    rw [hasync, Bool.false_and, Bool.false_and, if_neg Bool.false_ne_true]
    exact hsubscripts term hterm
  · exact hsubscripts term hterm

/-- Fields and calls behind a name that is no parameter of an arrow function. -/
theorem reads_operand_word (hcontext : context.IsPlain)
    (hname : isOrdinary name = true) (harrow : (shown.token == .sign "=>") = false)
    (hsubscripts : ∀ line, Reads (subscripts recur context true (Term.ofName false name line))
      (shown :: before) after result) :
    Reads (arrowOrOperand recur context) (word name :: shown :: before) after result := by
  refine reads_operand_start (beq_word_of_ordinary hname (by decide)) rfl harrow
    (reads_primary_word hcontext hname true) ?_
  rintro _ ⟨line, rfl⟩
  exact hsubscripts line

/-- An expression that starts with a name or a parenthesis. -/
theorem reads_assignment_first {operand : Term → Prop} {follower : Shown}
    (hcontext : context.IsPlain) (hstart : mayStartArrow context shown.token = true)
    (hoperand : Reads (arrowOrOperand recur context) (shown :: before) (follower :: middle) operand)
    (hform : ∀ term, operand term → term.form ≠ .arrow)
    (hend : follower.token.IsOneOf operandEnds)
    (hrest : ∀ term, operand term → Reads (behindOperand recur context term) (follower :: middle)
      after result) :
    Reads (assignment recur context) (shown :: before) after result := by
  unfold assignment
  refine reads_bind_eq (reads_sees_word _) ?_
  rw [hcontext.generator, Bool.false_and, if_neg Bool.false_ne_true]
  refine reads_bind_eq reads_current ?_
  rw [hstart, if_pos rfl]
  refine reads_bind hoperand fun term hterm => ?_
  have harrow : (term.form == .arrow) = false := beq_eq_false_iff_ne.mpr (hform term hterm)
  rw [harrow, if_neg Bool.false_ne_true]
  exact reads_bind_eq (reads_postfix_none hend) (hrest term hterm)

theorem may_start_arrow_word (hcontext : context.IsPlain) (hname : isOrdinary name = true) :
    mayStartArrow context (Shown.word name).token = true := by
  have hsigned : isPrefixWord name = false := by
    have hwords : ∀ word ∈ ["delete", "typeof", "void"], isOrdinary word = false := by
      decide
    cases hmem : isPrefixWord name with
    | false => rfl
    | true =>
        have hordinary := hwords name (List.contains_iff_mem.mp hmem)
        exact absurd rfl (ordinary_ne hname hordinary)
  show (false || !(isPrefixWord name || (name == "await" && context.asynchronous))) = true
  rw [hsigned, hcontext.asynchronous, Bool.and_false]
  rfl

/-- An expression that starts with a name on its own. -/
theorem reads_assignment_word (hcontext : context.IsPlain)
    (hname : isOrdinary name = true) (hend : shown.token.IsOneOf operandEnds)
    (hrest : ∀ line, Reads (behindOperand recur context (Term.ofName false name line))
      (shown :: before) after result) :
    Reads (assignment recur context) (word name :: shown :: before) after result := by
  have harrow : (shown.token == .sign "=>") = false := beq_sign_of_one_of hend (by decide)
  have hoperand : Reads (arrowOrOperand recur context) (word name :: shown :: before)
      (shown :: before) fun term => ∃ line, term = Term.ofName false name line :=
    reads_operand_word hcontext hname harrow fun line =>
      (reads_subscripts_none hcontext true hend).mono fun _ heq => ⟨line, heq⟩
  refine reads_assignment_first hcontext (may_start_arrow_word hcontext hname) hoperand ?_ hend ?_
  · rintro _ ⟨line, rfl⟩ hform
    cases hform
  · rintro _ ⟨line, rfl⟩
    exact hrest line

end TemplateBundle.Script

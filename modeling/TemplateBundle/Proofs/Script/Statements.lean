import TemplateBundle.Proofs.Script.Expressions
import TemplateBundle.Proofs.Script.Lexing

/-!
# Reading statements

How the parser reads statements and functions of plain code, from how it reads the expressions in
them.
-/

namespace TemplateBundle.Script

open Reading Shown

variable {recur : Recur} {context : Context} {place : StatementPlace} {name word : String}
  {line : Nat} {token : Token} {shown follower : Shown} {tokens before middle after : List Shown}
  {term : Term} {names : List String} {result : Term → Prop}

/-! ## Values -/

/-- A name as a value. -/
theorem reads_assignment_name (hcontext : context.IsPlain) (hname : isOrdinary name = true)
    (hend : shown.token.IsOneOf valueEnds) :
    Reads (assignment recur context) (Shown.word name :: shown :: tokens) (shown :: tokens)
      fun term => ∃ line, term = Term.ofName false name line :=
  reads_assignment_word hcontext hname (ends_operand_of_term (ends_term_of_value hend)) fun line =>
    (reads_behind_none hcontext hend).mono fun _ heq => ⟨line, heq⟩

/-- Fields and calls of a name as a value. -/
theorem reads_assignment_chain (count : Nat) (hcount : count < 8) (hcontext : context.IsPlain)
    (hname : isOrdinary name = true) (harrow : (shown.token == .sign "=>") = false)
    (h : Series (ReadsSubscript recur) count (shown :: before) (follower :: after))
    (hend : follower.token.IsOneOf valueEnds) :
    Reads (assignment recur context) (Shown.word name :: shown :: before) (follower :: after)
      fun term => term.coverFault = none := by
  have hoperand := ends_operand_of_term (ends_term_of_value hend)
  refine reads_assignment_first hcontext (may_start_arrow_word hcontext hname)
    (reads_operand_word hcontext hname harrow fun line =>
      reads_subscripts count hcount hcontext rfl nofun h hoperand) ?_ hoperand ?_
  · exact fun term hterm => hterm.2
  · rintro term ⟨hcover, -⟩
    exact (reads_behind_none hcontext hend).mono fun found heq => heq ▸ hcover

/-- A string as a value. -/
theorem reads_assignment_string {written : List Char} (hcontext : context.IsPlain)
    (hend : shown.token.IsOneOf valueEnds) :
    Reads (assignment recur context) (Shown.string written :: shown :: tokens) (shown :: tokens)
      fun term => term.coverFault = none := by
  refine reads_assignment_operand hcontext trivial nofun hend ((reads_primary_string true).mono ?_)
  rintro _ ⟨line, rfl⟩
  rfl

/-- An object without fields as a value. -/
theorem reads_assignment_object (hcontext : context.IsPlain)
    (hend : shown.token.IsOneOf valueEnds) :
    Reads (assignment recur context) (.sign "\x7b" :: .sign "\x7d" :: shown :: tokens)
      (shown :: tokens) fun term => term.coverFault = none := by
  refine reads_assignment_operand hcontext (by decide) (by decide) hend
    ((reads_primary_object hcontext true).mono ?_)
  rintro _ ⟨line, rfl⟩
  rfl

/-- A value between parentheses, which is not the left side of an arrow. -/
theorem reads_assignment_group (hcontext : context.IsPlain)
    (hclosed : (shown.token == .sign ")") = false) (hspread : (shown.token == .sign "...") = false)
    (hend : follower.token.IsOneOf valueEnds)
    (hitem : ReadsPlain recur .assignment (shown :: before) (.sign ")" :: follower :: tokens)
      fun term => term.coverFault = none) :
    Reads (assignment recur context) (.sign "(" :: shown :: before) (follower :: tokens)
      fun term => ∃ line item, term = Term.parenthesised line item := by
  have hoperandEnd := ends_operand_of_term (ends_term_of_value hend)
  have hoperand : Reads (arrowOrOperand recur context) (.sign "(" :: shown :: before)
      (follower :: tokens) fun term => ∃ line item, term = Term.parenthesised line item := by
    unfold arrowOrOperand
    refine reads_bind reads_line fun _ _ => ?_
    refine reads_bind_eq (reads_sees_word _) ?_
    refine reads_bind_eq (reads_sees _) ?_
    refine reads_bind (reads_apart (reads_items hcontext hclosed hspread hitem)) ?_
    rintro ⟨_, _⟩ ⟨⟨term, first, last, hterm, rfl⟩, rfl⟩
    refine reads_bind_eq (reads_sees _) ?_
    rw [beq_sign_of_one_of hend (by decide), if_neg Bool.false_ne_true]
    refine reads_bind reads_keep_nothing fun _ _ => ?_
    refine reads_bind_eq (reads_to_term hterm) ?_
    exact (reads_subscripts_none hcontext true hoperandEnd).mono fun _ heq => ⟨first, term, heq⟩
  refine reads_assignment_first hcontext rfl hoperand ?_ hoperandEnd ?_
  · rintro _ ⟨line, item, rfl⟩ hform
    cases hform
  · rintro _ ⟨line, item, rfl⟩
    exact (reads_behind_none hcontext hend).mono fun _ heq => ⟨line, item, heq⟩

/-- A name that is set to a value. -/
theorem reads_assignment_equals (hcontext : context.IsPlain) (hname : isOrdinary name = true)
    (hvalue : ReadsPlain recur .assignment before after fun term => term.coverFault = none) :
    Reads (assignment recur context) (Shown.word name :: .sign "=" :: before) after
      fun term => term.coverFault = none ∧ term.form = .assignment := by
  refine reads_assignment_word hcontext hname (by decide) fun line => ?_
  have hend : (Shown.sign "=").token.IsOneOf termEnds := by
    decide
  unfold behindOperand
  refine reads_bind_eq (reads_binary_none hcontext hend) ?_
  refine reads_bind_eq (reads_conditional_none hend) ?_
  exact reads_assignment_set (reads_value hcontext hvalue)

/-- A name to which a value is added. -/
theorem reads_assignment_plus (hcontext : context.IsPlain) (hname : isOrdinary name = true)
    (hvalue : ReadsPlain recur .assignment before after fun term => term.coverFault = none) :
    Reads (assignment recur context) (Shown.word name :: .sign "+=" :: before) after
      fun term => ∃ line, term = Term.other line := by
  refine reads_assignment_word hcontext hname (by decide) fun line => ?_
  have hend : (Shown.sign "+=").token.IsOneOf termEnds := by
    decide
  unfold behindOperand
  refine reads_bind_eq (reads_binary_none hcontext hend) ?_
  refine reads_bind_eq (reads_conditional_none hend) ?_
  exact (reads_assignment_add (reads_value hcontext hvalue)).mono fun _ heq => ⟨line, heq⟩

/-- A name, or else a value between parentheses. -/
theorem reads_assignment_or (hcontext : context.IsPlain) (hname : isOrdinary name = true)
    (hclosed : (shown.token == .sign ")") = false) (hspread : (shown.token == .sign "...") = false)
    (hend : follower.token.IsOneOf valueEnds)
    (hitem : ReadsPlain recur .assignment (shown :: before) (.sign ")" :: follower :: tokens)
      fun term => term.coverFault = none) :
    Reads (assignment recur context)
      (Shown.word name :: .sign "||" :: .sign "(" :: shown :: before) (follower :: tokens)
      fun term => ∃ line, term = Term.plain line .logical := by
  have hterm := ends_term_of_value hend
  refine reads_assignment_word hcontext hname (by decide) fun line => ?_
  have hright : Reads (rightOperand recur context 1) (.sign "(" :: shown :: before)
      (follower :: tokens) fun other => other.coverFault = none ∧ other.form ≠ .coalesce := by
    refine reads_right_operand hcontext (by decide)
      (ends_operand_of_term hterm)
      ((reads_primary_group hcontext true hclosed hspread hitem).mono ?_)
    rintro _ ⟨line, item, rfl⟩
    exact ⟨rfl, nofun⟩
  unfold behindOperand
  refine reads_bind_eq (reads_binary_or hcontext rfl nofun hterm hright) ?_
  refine reads_bind_eq (reads_conditional_none hterm) ?_
  exact (reads_assignment_none hend).mono fun _ heq => ⟨line, heq⟩

/-! ## Statements -/

theorem reads_expression (hcomma : (shown.token == .sign ",") = false)
    (h : Reads (recur (.assignment context)) before (shown :: tokens) result) :
    Reads (expression recur context) before (shown :: tokens) result := by
  unfold expression
  refine reads_bind h fun term hterm => ?_
  refine reads_bind_eq (reads_sees _) ?_
  rw [hcomma, if_neg Bool.false_ne_true]
  exact reads_pure hterm

theorem reads_inner_expression (hcontext : context.IsPlain)
    (hcomma : (shown.token == .sign ",") = false)
    (h : ReadsPlain recur .assignment before (shown :: tokens)
      fun term => term.coverFault = none ∧ result term) :
    Reads (innerExpression recur context) before (shown :: tokens) result := by
  unfold innerExpression
  refine reads_bind (reads_expression hcomma (h _ hcontext.inner)) ?_
  rintro term ⟨hcover, hterm⟩
  exact reads_bind (reads_settle hcover) fun _ _ => reads_pure hterm

theorem reads_semicolon : Reads semicolon (.sign ";" :: tokens) tokens anything := by
  unfold semicolon
  exact reads_bind_eq (reads_accepts _) (reads_pure trivial)

/-- No semicolon is needed in front of a closing brace and at the end of the script. -/
theorem reads_semicolon_none (hother : (shown.token == .sign ";") = false)
    (hend : (shown.token == .sign "\x7d" || shown.token == .stop) = true) :
    Reads semicolon (shown :: tokens) (shown :: tokens) anything := by
  unfold semicolon
  refine reads_bind_eq (reads_accepts_other hother) ?_
  refine reads_bind reads_newline fun newline _ => ?_
  refine reads_bind_eq (reads_sees _) ?_
  refine reads_bind_eq reads_current ?_
  rw [Bool.or_assoc, hend, Bool.or_true]
  exact reads_pure trivial

theorem reads_expression_statement (hcontext : context.IsPlain)
    (hcomma : (shown.token == .sign ",") = false)
    (h : ReadsPlain recur .assignment before (shown :: tokens)
      fun term => term.coverFault = none ∧ result term)
    (hend : Reads semicolon (shown :: tokens) after anything) :
    Reads (expressionStatement recur context) before after result := by
  unfold expressionStatement
  refine reads_bind (reads_inner_expression hcontext hcomma h) fun term hterm => ?_
  exact reads_bind hend fun _ _ => reads_pure hterm

theorem reads_sees_label {word : String} (hopen : shown.behind = none)
    (hlabel : (follower.token == .sign ":") = false) :
    Reads (seesLabel word) (shown :: follower :: tokens) (shown :: follower :: tokens)
      (· = false) := by
  unfold seesLabel
  split
  · exact reads_pure rfl
  · exact reads_bind (reads_peek hopen) fun lexeme hlexeme => reads_pure (by rw [hlexeme, hlabel])

theorem reads_sees_let (hname : isOrdinary name = true) :
    Reads seesLet (Shown.word name :: tokens) (Shown.word name :: tokens) (· = false) := by
  unfold seesLet
  refine reads_bind_eq (reads_sees_word _) ?_
  rw [beq_word_of_ordinary hname (by decide), if_neg Bool.false_ne_true]
  exact reads_pure rfl

/-- A statement that starts with a name is an expression. -/
theorem reads_statement_word (hname : isOrdinary name = true)
    (hlabel : (follower.token == .sign ":") = false)
    (h : Reads (expressionStatement recur { context with pending := [] })
      (Shown.word name :: follower :: before) after result) :
    Reads (statement recur context place) (Shown.word name :: follower :: before) after result := by
  unfold statement
  refine reads_bind reads_line fun _ _ => ?_
  refine reads_bind_eq reads_current ?_
  show Reads (wordStatement recur context place name) _ _ _
  unfold wordStatement
  refine reads_bind reads_line fun _ _ => ?_
  -- no word with a meaning of its own is ordinary
  split
  case h_17 =>
    refine reads_bind_eq (reads_sees_label rfl hlabel) ?_
    rw [if_neg Bool.false_ne_true]
    refine reads_bind_eq (reads_sees_async_function (beq_word_of_ordinary hname (by decide))) ?_
    rw [if_neg Bool.false_ne_true]
    refine reads_bind_eq (reads_sees_let hname) ?_
    rw [if_neg Bool.false_ne_true]
    exact h
  all_goals exact absurd hname (by decide)

/-- A statement that starts with a parenthesis is an expression. -/
theorem reads_statement_group
    (h : Reads (expressionStatement recur { context with pending := [] })
      (.sign "(" :: before) after
      result) :
    Reads (statement recur context place) (.sign "(" :: before) after result := by
  unfold statement
  refine reads_bind reads_line fun _ _ => ?_
  exact reads_bind_eq reads_current h

/-! ## Declarations -/

theorem reads_initializer_none (hother : (shown.token == .sign "=") = false) :
    Reads (initializer? recur context) (shown :: tokens) (shown :: tokens) (· = false) := by
  unfold initializer?
  refine reads_bind_eq (reads_accepts_other hother) ?_
  exact reads_pure rfl

theorem reads_initializer (hcontext : context.IsPlain)
    (hvalue : ReadsPlain recur .assignment before after fun term => term.coverFault = none) :
    Reads (initializer? recur context) (.sign "=" :: before) after (· = true) := by
  unfold initializer?
  refine reads_bind_eq (reads_accepts _) ?_
  exact reads_bind (reads_value hcontext hvalue) fun _ _ => reads_pure rfl

/-- The declaration of a name, from how its value is read. -/
theorem reads_declarator (hcontext : context.IsPlain)
    (hname : ReadsPlain recur .binding before middle fun term =>
      ∃ line, term = Term.ofName false name line)
    (hvalue : Reads (initializer? recur context) middle after anything) :
    Reads (declarator recur context .variable) before after anything := by
  unfold declarator declaredValue
  refine reads_bind (hname context hcontext) ?_
  rintro _ ⟨line, rfl⟩
  refine reads_bind (reads_pure trivial) fun (_ : PUnit) (_ : True) => ?_
  -- a name needs no value
  have hform (hasValue : Bool) : (!hasValue && (Term.ofName false name line).form == .literal) =
      false := by
    have hname : (Form.name name == .literal) = false := beq_eq_false_iff_ne.mpr nofun
    show (!hasValue && (Form.name name == .literal)) = false
    rw [hname, Bool.and_false]
  refine reads_bind (reads_bind hvalue fun hasValue _ => ?_) fun (_ : Bool) (_ : True) =>
    reads_pure trivial
  rw [hform, if_neg Bool.false_ne_true]
  exact reads_pure trivial

/-- In plain code the declaration of a variable is read from the tokens. -/
def ReadsDeclarator (recur : Recur) (before after : List Shown) : Prop :=
  ∀ context : Context, context.IsPlain →
    Reads (declarator recur context .variable) before after anything

/-- Declarations with commas between them. -/
theorem reads_declarations (count : Nat) (hcontext : context.IsPlain)
    (hcount : count < context.bound) (hend : (shown.token == .sign ",") = false)
    (hfirst : ReadsDeclarator recur before middle)
    (hothers : Series (fun before after => ∃ others, before = .sign "," :: others ∧
      ReadsDeclarator recur others after) count middle (shown :: tokens)) :
    Reads (declarations recur context .variable) before (shown :: tokens) anything := by
  unfold declarations moreDeclarators
  refine reads_bind (hfirst context hcontext) fun _ _ => ?_
  refine reads_rounds anything hothers ?_ ?_ hcount trivial
  · rintro ⟨⟩ _ middle - ⟨others, rfl, hdeclarator⟩
    refine reads_bind_eq (reads_accepts _) ?_
    exact reads_bind (hdeclarator context hcontext) fun _ _ => reads_pure ⟨_, rfl, trivial⟩
  · rintro ⟨⟩ -
    exact reads_bind_eq (reads_accepts_other hend) (reads_pure ⟨_, rfl, trivial⟩)

/-- A statement that starts with a word of its own and is no expression. -/
theorem reads_statement_of_word (parser : Reading Unit)
    (hword : wordStatement recur context place word = do
      let line ← Reading.line
      parser
      pure (Term.other line))
    (h : Reads parser (Shown.word word :: tokens) after anything) :
    Reads (statement recur context place) (Shown.word word :: tokens) after fun term =>
      ∃ line, term = Term.other line := by
  unfold statement
  refine reads_bind reads_line fun _ _ => ?_
  refine reads_bind_eq reads_current ?_
  show Reads (wordStatement recur context place word) _ _ _
  rw [hword]
  refine reads_bind reads_line fun line _ => ?_
  exact reads_bind h fun _ _ => reads_pure ⟨line, rfl⟩

/-- A declaration of variables. -/
theorem reads_statement_variables
    (h : Reads (declarations recur { context with pending := [] } .variable) before
      (.sign ";" :: after) anything) :
    Reads (statement recur context place) (Shown.word "var" :: before) after fun term =>
      ∃ line, term = Term.other line := by
  refine reads_statement_of_word
    (declarationStatement recur { context with pending := [] } .variable place) rfl ?_
  unfold declarationStatement
  refine reads_bind (reads_next rfl) fun _ _ => ?_
  exact reads_bind h fun _ _ => reads_semicolon

/-! ## Blocks -/

/-- A block with a single statement. -/
theorem reads_block (hcontext : context.IsPlain) (hbrace : (shown.token == .sign "\x7d") = false)
    (h : ReadsPlain recur (.statement · .list) (shown :: before) (.sign "\x7d" :: tokens)
      anything) :
    Reads (block recur context) (.sign "\x7b" :: shown :: before) tokens anything := by
  have hrounds := hcontext.rounds
  unfold block statementsToBrace
  refine reads_bind (reads_expect _) fun _ _ => ?_
  refine reads_again (.sign "\x7d" :: tokens) anything (by omega) ?statement ?rest
  case statement =>
    refine reads_bind_eq (reads_accepts_other hbrace) ?_
    exact reads_bind (h context hcontext) fun _ _ => reads_pure ⟨_, rfl, trivial⟩
  case rest =>
    rintro ⟨⟩ -
    refine reads_done (by omega) ?_
    exact reads_bind_eq (reads_accepts _) (reads_pure ⟨_, rfl, trivial⟩)

theorem reads_statement_block (hcontext : context.IsPlain)
    (hbrace : (shown.token == .sign "\x7d") = false)
    (h : ReadsPlain recur (.statement · .list) (shown :: before) (.sign "\x7d" :: tokens)
      anything) :
    Reads (statement recur context place) (.sign "\x7b" :: shown :: before) tokens fun term =>
      ∃ line, term = Term.other line := by
  unfold statement
  refine reads_bind reads_line fun line _ => ?_
  refine reads_bind_eq reads_current ?_
  exact reads_bind (reads_block hcontext.settled hbrace h) fun _ _ => reads_pure ⟨line, rfl⟩

/-- A value between parentheses in front of a statement. -/
theorem reads_condition (hcontext : context.IsPlain)
    (h : ReadsPlain recur .assignment before (.sign ")" :: tokens) fun term =>
      term.coverFault = none) :
    Reads (condition recur context) (.sign "(" :: before) tokens anything := by
  have hvalue : ReadsPlain recur .assignment before (.sign ")" :: tokens) fun term =>
      term.coverFault = none ∧ anything term :=
    fun context hcontext => (h context hcontext).mono fun _ hterm => ⟨hterm, trivial⟩
  unfold condition
  refine reads_bind (reads_expect _) fun _ _ => ?_
  refine reads_bind (reads_inner_expression hcontext rfl hvalue) fun _ _ => ?_
  exact reads_expect _

theorem reads_with (hcontext : context.IsPlain)
    (hobject : ReadsPlain recur .assignment before (.sign ")" :: middle) fun term =>
      term.coverFault = none)
    (hbody : ReadsPlain recur (.statement · .body) middle after anything) :
    Reads (withStatement recur context) (Shown.word "with" :: .sign "(" :: before) after
      anything := by
  unfold withStatement
  rw [hcontext.sloppy, if_neg Bool.false_ne_true]
  refine reads_bind (reads_next rfl) fun _ _ => ?_
  refine reads_bind (reads_condition hcontext hobject) fun _ _ => ?_
  exact reads_bind (hbody context hcontext) fun _ _ => reads_pure trivial

/-- A statement that looks names up in an object first. -/
theorem reads_statement_with (hcontext : context.IsPlain)
    (hobject : ReadsPlain recur .assignment before (.sign ")" :: middle) fun term =>
      term.coverFault = none)
    (hbody : ReadsPlain recur (.statement · .body) middle after anything) :
    Reads (statement recur context place) (Shown.word "with" :: .sign "(" :: before) after
      fun term => ∃ line, term = Term.other line :=
  reads_statement_of_word (withStatement recur { context with pending := [] }) rfl
    (reads_with hcontext.settled hobject hbody)

theorem reads_return (hcontext : context.IsPlain) (hreturn : context.allowsReturn = true)
    (hstart : (shown.token == .sign ";" || shown.token == .sign "\x7d" || shown.token == .stop) =
      false)
    (hvalue : ReadsPlain recur .assignment (shown.onLine :: before) (.sign "\x7d" :: tokens)
      fun term => term.coverFault = none) :
    Reads (returnStatement recur context) (Shown.word "return" :: shown.onLine :: before)
      (.sign "\x7d" :: tokens) anything := by
  have hvalue' : ReadsPlain recur .assignment (shown.onLine :: before) (.sign "\x7d" :: tokens)
      fun term => term.coverFault = none ∧ anything term :=
    fun context hcontext => (hvalue context hcontext).mono fun _ hterm => ⟨hterm, trivial⟩
  unfold returnStatement
  rw [hreturn]
  refine reads_bind (reads_next rfl) fun _ _ => ?_
  refine reads_bind_eq reads_newline_on_line ?_
  refine reads_bind_eq (reads_sees _) (reads_bind_eq (reads_sees _) ?_)
  refine reads_bind_eq reads_current ?_
  rw [if_neg (by rw [Bool.false_or]; exact Bool.eq_false_iff.mp hstart)]
  refine reads_bind (reads_inner_expression hcontext rfl hvalue') fun _ _ => ?_
  exact reads_semicolon_none rfl rfl

/-- A statement that gives back a value. -/
theorem reads_statement_return (hcontext : context.IsPlain) (hreturn : context.allowsReturn = true)
    (hstart : (shown.token == .sign ";" || shown.token == .sign "\x7d" || shown.token == .stop) =
      false)
    (hvalue : ReadsPlain recur .assignment (shown.onLine :: before) (.sign "\x7d" :: tokens)
      fun term => term.coverFault = none) :
    Reads (statement recur context place) (Shown.word "return" :: shown.onLine :: before)
      (.sign "\x7d" :: tokens) fun term => ∃ line, term = Term.other line :=
  reads_statement_of_word (returnStatement recur { context with pending := [] }) rfl
    (reads_return hcontext.settled hreturn hstart hvalue)

/-! ## Functions -/

/-- The head of a function in plain code, where no name is refused but the reserved words. -/
structure Context.IsHead (context : Context) : Prop extends Context.IsPlain context where
  keeps_await : context.refusesAwait = false

/-- The parameters are these names. -/
structure Parameters.AreNames (read : Parameters) (names : List String) : Prop where
  texts : read.names.map BoundName.text = names
  simple : read.simple = true
  count : read.count = names.length
  no_rest : read.hasRest = false

/-- The tokens are names of parameters between parentheses, in which nothing is suspended. -/
def ReadsParameters (recur : Recur) (names : List String) (before after : List Shown) : Prop :=
  ∀ context : Context, context.IsHead →
    Reads (apart (parameters recur context)) before after fun found =>
      found.1.AreNames names ∧ found.2.yields = none ∧ found.2.awaits = none

/-- No parameters between parentheses. -/
theorem reads_parameters_none :
    ReadsParameters recur [] (.sign "(" :: .sign ")" :: after) after := by
  intro context hcontext
  have hrounds := hcontext.rounds
  have hread : Reads (parameters recur context) (.sign "(" :: .sign ")" :: after) after
      (·.AreNames []) := by
    unfold parameters
    refine reads_bind reads_line fun first _ => ?_
    refine reads_bind (reads_expect _) fun _ _ => ?_
    refine reads_done (by omega) ?_
    exact reads_bind_eq (reads_accepts _) (reads_pure ⟨_, rfl, rfl, rfl, rfl, rfl⟩)
  refine (reads_apart hread).mono ?_
  rintro ⟨read, _⟩ ⟨hsimple, rfl⟩
  exact ⟨hsimple, rfl, rfl⟩

/-- The body of a function that is plain code. -/
structure Context.IsBody (context : Context) : Prop extends Context.IsPlain context where
  allows_return : context.allowsReturn = true

/-- The term is no string on its own, which could be a directive. -/
def Term.IsNoDirective (term : Term) : Prop :=
  ∀ written legacy, term.form ≠ .string written legacy

/-- A statement of a body that is no directive. -/
def ReadsStatement (recur : Recur) (before after : List Shown) : Prop :=
  ∃ shown others, before = shown :: others ∧ (shown.token == .sign "\x7d") = false ∧
    ∀ context : Context, context.IsBody →
      Reads (recur (.statement context .list)) before after Term.IsNoDirective

/-- A statement that is no directive leaves the code of a body plain. -/
theorem reads_body_round {prologue : Prologue} (hcontext : context.IsBody)
    (hstrict : prologue.strict = false) (h : ReadsStatement recur before after) :
    Reads (bodyRound recur context prologue) before after
      (· = .again { prologue with isOpen := false }) := by
  obtain ⟨shown, others, rfl, hbrace, hstatement⟩ := h
  have hplain : Context.IsBody { context with strict := prologue.strict } :=
    ⟨⟨hstrict, hcontext.generator, hcontext.asynchronous, hcontext.keeps_arguments,
      hcontext.rounds⟩, hcontext.allows_return⟩
  unfold bodyRound behindStatement
  refine reads_bind_eq (reads_accepts_other hbrace) ?_
  refine reads_bind (hstatement _ hplain) fun term hterm => ?_
  split
  · exact absurd ‹term.form = _› (hterm _ _)
  · exact reads_pure rfl

theorem reads_body (count : Nat) (hcontext : context.IsBody) (hcount : count < context.bound)
    (h : Series (ReadsStatement recur) count before (.sign "\x7d" :: after)) :
    Reads (functionBody recur context) (.sign "\x7b" :: before) after (· = none) := by
  rw [function_body_eq]
  refine reads_bind (reads_expect _) fun _ _ => ?_
  refine reads_rounds (fun prologue => prologue.strict = false ∧ prologue.directive = none) h ?_ ?_
    hcount ⟨hcontext.sloppy, rfl⟩
  · rintro prologue _ middle ⟨hstrict, hdirective⟩ hstatement
    exact (reads_body_round hcontext hstrict hstatement).mono fun _ hround =>
      ⟨_, hround, hstrict, hdirective⟩
  · rintro prologue ⟨-, hdirective⟩
    exact reads_bind_eq (reads_accepts _) (reads_pure ⟨_, rfl, hdirective⟩)

theorem reads_check_parameters {read : Parameters} (hcontext : context.IsPlain)
    (hsimple : read.simple = true) :
    Reads (checkParameters context false read none) tokens tokens anything := by
  unfold checkParameters
  simp only [hcontext.sloppy, hsimple, Option.isSome_none, Bool.or_false, Bool.not_true,
    Bool.false_eq_true, if_false]
  exact reads_pure trivial

theorem reads_function_rest (hcontext : context.IsPlain)
    (hparameters : ReadsParameters recur names (.sign "(" :: before) middle)
    (hbody : ∀ context : Context, context.IsBody →
      Reads (functionBody recur context) middle after (· = none)) :
    Reads (functionRest recur context {} false) (.sign "(" :: before) after fun found =>
      found.2 = none := by
  have hinner : (context.ofFunction {} false).IsBody :=
    ⟨⟨hcontext.sloppy, rfl, rfl, rfl, hcontext.rounds⟩, rfl⟩
  unfold functionRest
  refine reads_bind (reads_apart (?read : Reads _ _ after fun found =>
    found.1.simple = true ∧ found.2 = none)) ?checked
  case read =>
    refine reads_bind (hparameters _ ⟨hinner.toIsPlain, rfl⟩) ?_
    rintro ⟨read, seen⟩ ⟨hread, hyields, hawaits⟩
    have hnothing : (seen.yields <|> seen.awaits) = none := by
      rw [hyields, hawaits]
      rfl
    refine reads_bind (hnothing ▸ reads_report_none) fun _ _ => ?_
    exact reads_bind_eq (hbody _ hinner) (reads_pure ⟨hread.simple, rfl⟩)
  case checked =>
    rintro ⟨⟨read, _⟩, _⟩ ⟨⟨hsimple, rfl⟩, -⟩
    refine reads_bind (reads_check_parameters hcontext hsimple) fun _ _ => ?_
    exact reads_pure rfl

/-- A function without a name. -/
theorem reads_function (hcontext : context.IsPlain)
    (hparameters : ReadsParameters recur names (.sign "(" :: before) middle)
    (hbody : ∀ context : Context, context.IsBody →
      Reads (functionBody recur context) middle after (· = none)) :
    Reads (function recur context false false)
      (Shown.word "function" :: .sign "(" :: before) after anything := by
  have hrest := reads_function_rest hcontext hparameters hbody
  unfold function
  refine reads_bind (reads_expect_word _) fun _ _ => ?_
  refine reads_bind_eq (reads_accepts_other rfl) ?_
  refine reads_bind_eq (reads_sees _) ?_
  refine reads_bind_eq (reads_pure rfl) ?_
  refine reads_bind hrest ?_
  rintro ⟨read, _⟩ rfl
  exact reads_pure trivial

/-- A function without a name as an operand. -/
theorem reads_primary_function (hcontext : context.IsPlain) (calls : Bool)
    (hparameters : ReadsParameters recur names (.sign "(" :: before) middle)
    (hbody : ∀ context : Context, context.IsBody →
      Reads (functionBody recur context) middle after (· = none)) :
    Reads (primary recur context calls)
      (Shown.word "function" :: .sign "(" :: before) after fun term =>
        ∃ line, term = Term.other line := by
  unfold primary
  refine reads_bind reads_line fun _ _ => ?_
  refine reads_bind_eq reads_current ?_
  show Reads (wordOperand recur context calls "function") _ _ _
  unfold wordOperand
  refine reads_bind reads_line fun line _ => ?_
  refine reads_bind (reads_function hcontext hparameters hbody) fun _ _ => ?_
  exact reads_pure ⟨line, rfl⟩

/-- A function without a name as a value. -/
theorem reads_assignment_function (hcontext : context.IsPlain)
    (hend : follower.token.IsOneOf valueEnds)
    (hparameters : ReadsParameters recur names (.sign "(" :: before) middle)
    (hbody : ∀ context : Context, context.IsBody →
      Reads (functionBody recur context) middle (follower :: after) (· = none)) :
    Reads (assignment recur context)
      (Shown.word "function" :: .sign "(" :: before) (follower :: after) fun term =>
        term.coverFault = none := by
  have hoperandEnd := ends_operand_of_term (ends_term_of_value hend)
  have hoperand : Reads (arrowOrOperand recur context)
      (Shown.word "function" :: .sign "(" :: before) (follower :: after) fun term =>
        ∃ line, term = Term.other line := by
    refine reads_operand_start rfl rfl (beq_sign_of_one_of hend (by decide))
      (reads_primary_function hcontext true hparameters hbody) ?_
    rintro _ ⟨line, rfl⟩
    exact (reads_subscripts_none hcontext true hoperandEnd).mono fun _ heq => ⟨line, heq⟩
  refine reads_assignment_first hcontext rfl hoperand ?_ hoperandEnd ?_
  · rintro _ ⟨line, rfl⟩ hform
    cases hform
  · rintro _ ⟨line, rfl⟩
    exact (reads_behind_none hcontext hend).mono fun _ heq => heq ▸ rfl

/-! ## Scripts -/

/-- A script that is a single expression. -/
theorem reads_script {size : Nat} (hsize : 8 ≤ size)
    (hstart : (shown.token == .stop) = false)
    (h : ReadsPlain (read (3 * size + 3)) (.statement · .list) (shown :: before) (.stop :: tokens)
      anything) :
    Reads (script size) (shown :: before) (.stop :: tokens) anything := by
  have hcontext : Context.IsPlain { bound := size + 2 } :=
    ⟨rfl, rfl, rfl, rfl, Nat.le_add_right_of_le hsize⟩
  unfold script
  refine reads_again (.stop :: tokens) anything (Nat.succ_pos _) ?statement ?rest
  case statement =>
    refine reads_bind_eq reads_current ?_
    rw [hstart, if_neg Bool.false_ne_true]
    exact reads_bind (h _ hcontext) fun _ _ => reads_pure ⟨_, rfl, trivial⟩
  case rest =>
    rintro ⟨⟩ -
    refine reads_done (Nat.succ_pos _) ?_
    exact reads_bind_eq reads_current (reads_pure ⟨_, rfl, trivial⟩)

/-- A text whose tokens are read as a script is right. -/
theorem fault_none {text : List Char} (htext : Spells text before)
    (h : Reads (script (extent text)) before after anything) : fault? text = none := by
  obtain ⟨lexeme, hlex, hshows⟩ := htext.lex 1
  obtain ⟨found, final, hrun, -, -⟩ := h { lexeme := lexeme, early := none, seen := {} } hshows
  unfold fault?
  rw [hlex]
  simp only [hrun]

end TemplateBundle.Script

import TemplateBundle.Proofs.Script.Lockstep.Statements
import TemplateBundle.Proofs.Script.Parameters

/-!
# Texts with the same head

Two texts start with the same tokens up to the closing brace of a function that is declared among the
first statements of another one. Up to there each parser `Reads` them, whatever stands behind the
brace; from there on the parsers go in step (`Ahead`). So where no fault is found in the first text,
none is found in the second one (`fault_none_of_ahead`).
-/

namespace TemplateBundle.Script

open Reading Shown

variable {pairing : Pairing} {recur : Recur} {context : Context} {α β γ δ : Type} {later : Bool}
  {rest rest' : List Char} {tokens before middle : List Shown} {shown : Shown}
  {names : List String} {name : String}

/-! ## The same tokens ahead -/

/-- The cursors stand in front of the same tokens. A closing brace follows, with one of the texts
behind it. -/
structure Ahead (rest rest' : List Char) (tokens : List Shown) (here there : Cursor) : Prop where
  first : here.lexeme.Shows (tokens ++ [closing rest])
  second : there.lexeme.Shows (tokens ++ [closing rest'])
  early : here.early.isSome = there.early.isSome
  seen : here.seen.Alike there.seen

/-- The parser passes over the tokens, whatever stands behind the closing brace. -/
abbrev ReadsUpTo (parser : Reading α) (before after : List Shown) (result : α → Prop) : Prop :=
  ∀ rest, Reads parser (before ++ [closing rest]) (after ++ [closing rest]) result

section

variable {parser : Reading α} {after : γ → δ → Cursor → Cursor → Prop} {next : α → Reading γ}
  {others : α → Reading δ} {result : α → Prop}

theorem ahead_bind (h : ReadsUpTo parser before middle result)
    (hnext : ∀ found other, result found → result other →
      Follows (Ahead rest rest' middle) (next found) (others other) after) :
    Follows (Ahead rest rest' before) (parser >>= next) (parser >>= others) after := by
  intro here there hahead found here' hrun
  obtain ⟨value, lexeme, hread, hlexeme, hvalue⟩ := h rest here hahead.first
  obtain ⟨value', lexeme', hread', hlexeme', hvalue'⟩ := h rest' there hahead.second
  rw [StateT.run_bind, hread] at hrun
  rw [StateT.run_bind, hread']
  exact hnext value value' hvalue hvalue' { here with lexeme := lexeme }
    { there with lexeme := lexeme' } ⟨hlexeme, hlexeme', hahead.early, hahead.seen⟩ found here' hrun

/-- The result of the parser is known. -/
theorem ahead_bind_eq {value : α} (h : ReadsUpTo parser before middle (· = value))
    (hnext : Follows (Ahead rest rest' middle) (next value) (others value) after) :
    Follows (Ahead rest rest' before) (parser >>= next) (parser >>= others) after :=
  ahead_bind h fun _ _ hfound hother => hfound ▸ hother ▸ hnext

/-- The parser only looks at the tokens. -/
theorem ahead_looks (h : ReadsUpTo parser tokens tokens result)
    (hnext : ∀ found other, result found → result other →
      Follows (Ahead rest rest' tokens) (next found) (others other) after) :
    Follows (Ahead rest rest' tokens) (parser >>= next) (parser >>= others) after :=
  ahead_bind h hnext

theorem ahead_looks_eq {value : α} (h : ReadsUpTo parser tokens tokens (· = value))
    (hnext : Follows (Ahead rest rest' tokens) (next value) (others value) after) :
    Follows (Ahead rest rest' tokens) (parser >>= next) (parser >>= others) after :=
  ahead_bind_eq h hnext

end

/-- What is met on its own is met after the same tokens. -/
theorem ahead_apart {first : Reading α} {second : Reading β} {related : α → β → Prop}
    (h : pairing.Leads (Ahead rest rest' before) later first second related) :
    pairing.Leads (Ahead rest rest' before) later (Reading.apart first) (Reading.apart second)
      (WithSeen related) :=
  Pairing.Leads.apart (fun _ _ hahead => ⟨hahead.seen, { hahead with seen := .rfl }⟩) h

/-- Behind the closing brace the parsers go in step. -/
theorem ahead_accepts_closing {after : γ → δ → Cursor → Cursor → Prop} {next : Bool → Reading γ}
    {others : Bool → Reading δ}
    (hplaces : ∀ line line', pairing.places later ⟨rest, line⟩ ⟨rest', line'⟩)
    (h : ∀ token, Follows (pairing.At later token) (next true) (others true) after) :
    Follows (Ahead rest rest' []) (accepts "\x7d" >>= next) (accepts "\x7d" >>= others) after := by
  intro here there hahead found here' hrun
  obtain ⟨hbrace, -, hplace⟩ := hahead.first
  obtain ⟨hbrace', -, hplace'⟩ := hahead.second
  have haccepts {cursor : Cursor} (htoken : cursor.lexeme.token = .sign "\x7d") :
      (accepts "\x7d").run cursor =
        (resume cursor.lexeme.after >>= fun _ => pure true).run cursor := by
    have hsees : (sees "\x7d").run cursor = .ok (true, cursor) :=
      congrArg (fun token => Except.ok (token == Token.sign "\x7d", cursor)) htoken
    unfold accepts
    rw [StateT.run_bind, hsees]
    rfl
  rw [StateT.run_bind, haccepts hbrace] at hrun
  rw [StateT.run_bind, haccepts hbrace']
  obtain ⟨⟨_, here₁⟩, hfirst, hlast⟩ := except_bind_ok_iff.mp hrun
  obtain ⟨⟨⟨⟩, _⟩, hresume, ⟨⟩⟩ := except_bind_ok_iff.mp hfirst
  have hbehind : pairing.places later here.lexeme.after there.lexeme.after := by
    have hall := hplaces here.lexeme.after.line there.lexeme.after.line
    rwa [← hplace, ← hplace'] at hall
  obtain ⟨there₁, hresume', hat⟩ := pairing.resume hahead.early hahead.seen hbehind hresume
  obtain ⟨other, there', hother, hafter⟩ := h _ here₁ there₁ hat found here' hlast
  refine ⟨other, there', ?_, hafter⟩
  rw [StateT.run_bind, hresume']
  exact hother

/-! ## Bodies -/

/-- A statement of a body that is no directive, whatever stands behind the closing brace. -/
abbrev ReadsAhead (recur : Recur) (before after : List Shown) : Prop :=
  ∀ rest, ReadsStatement recur (before ++ [closing rest]) (after ++ [closing rest])

/-- What comes behind statements of a body decides. The induction is on the statements. -/
theorem ahead_rounds {count bound : Nat} {prologue : Prologue} (hcontext : context.IsBody)
    (hparts : Series (ReadsAhead recur) count before middle) (hstrict : prologue.strict = false)
    (hrest : ∀ (prologue : Prologue) (bound : Nat), prologue.strict = false →
      pairing.Leads (Ahead rest rest' middle) later
        (repeatUpTo (bodyRound recur context) bound prologue)
        (repeatUpTo (bodyRound recur context) bound prologue) SameKnown) :
    pairing.Leads (Ahead rest rest' before) later
      (repeatUpTo (bodyRound recur context) bound prologue)
      (repeatUpTo (bodyRound recur context) bound prologue) SameKnown := by
  induction hparts generalizing bound prologue with
  | nil tokens => exact hrest prologue bound hstrict
  | cons hpart _ ih =>
      cases bound with
      | zero => exact follows_fail
      | succ bound =>
          refine ahead_bind_eq (fun rest => reads_body_round hcontext hstrict (hpart rest)) ?_
          refine ih ?_ hrest
          exact hstrict

/-- A body that ends with the closing brace. -/
theorem ahead_body_end {count : Nat} (hcontext : context.IsBody)
    (hplaces : ∀ line line', pairing.places later ⟨rest, line⟩ ⟨rest', line'⟩)
    (hparts : Series (ReadsAhead recur) count before []) :
    pairing.Leads (Ahead rest rest' (sign "\x7b" :: before)) later (functionBody recur context)
      (functionBody recur context) SameKnown := by
  rw [function_body_eq]
  refine ahead_bind (fun _ => reads_expect _) fun _ _ _ _ => ?_
  refine ahead_rounds hcontext hparts hcontext.sloppy fun prologue bound _ => ?_
  cases bound with
  | zero => exact follows_fail
  | succ bound =>
      unfold repeatUpTo bodyRound
      rw [bind_assoc]
      exact ahead_accepts_closing hplaces fun _ => follows_return rfl id

/-- A body in which a statement leads to behind the closing brace. -/
theorem ahead_body {count : Nat} (hcontext : context.IsBody) (hrecur : pairing.KeepsParts recur)
    (hparts : Series (ReadsAhead recur) count before (shown :: middle))
    (hbrace : (shown.token == .sign "\x7d") = false)
    (hstatement : ∀ context : Context, context.IsBody →
      pairing.Leads (Ahead rest rest' (shown :: middle)) false (recur (.statement context .list))
        (recur (.statement context .list)) Term.Alike) :
    pairing.Leads (Ahead rest rest' (sign "\x7b" :: before)) true (functionBody recur context)
      (functionBody recur context) SameKnown := by
  rw [function_body_eq]
  refine ahead_bind (fun _ => reads_expect _) fun _ _ _ _ => ?_
  refine ahead_rounds hcontext hparts hcontext.sloppy fun prologue bound hstrict => ?_
  have hplain : Context.IsBody { context with strict := prologue.strict } :=
    ⟨⟨hstrict, hcontext.generator, hcontext.asynchronous, hcontext.keeps_arguments,
      hcontext.rounds⟩, hcontext.allows_return⟩
  refine leads_repeat Prologue.Alike ?_ fun _ _ _ => follows_body_round hrecur
  unfold bodyRound
  refine ahead_looks_eq (fun _ => reads_accepts_other hbrace) ?_
  refine Pairing.Leads.bind (hstatement _ hplain) fun _ _ _ hterm => ?_
  exact follows_behind_statement ⟨rfl, rfl, rfl, rfl⟩ hterm

/-! ## Functions -/

theorem Parameters.AreNames.alike {read read' : Parameters} (h : read.AreNames names)
    (h' : read'.AreNames names) : read.Alike read' where
  names := h.texts.trans h'.texts.symm
  simple := h.simple.trans h'.simple.symm
  count := h.count.trans h'.count.symm
  hasRest := h.no_rest.trans h'.no_rest.symm

/-- The code in a function is plain where it stands in plain code. -/
theorem Context.IsPlain.of_function (h : context.IsPlain) :
    (context.ofFunction {} false).IsBody ∧ (context.ofFunction {} false).IsHead :=
  ⟨⟨⟨h.sloppy, rfl, rfl, rfl, h.rounds⟩, rfl⟩, ⟨⟨h.sloppy, rfl, rfl, rfl, h.rounds⟩, rfl⟩⟩

theorem ahead_function_rest (hcontext : context.IsPlain)
    (hparameters : ∀ rest,
      ReadsParameters recur names (before ++ [closing rest]) (middle ++ [closing rest]))
    (hbody : ∀ context : Context, context.IsBody →
      pairing.Leads (Ahead rest rest' middle) later (functionBody recur context)
        (functionBody recur context) SameKnown) :
    pairing.Leads (Ahead rest rest' before) later (functionRest recur context {} false)
      (functionRest recur context {} false) PartsAlike := by
  obtain ⟨hinner, hhead⟩ := hcontext.of_function
  refine leads_function_rest (ahead_apart ?_)
  unfold functionParts
  refine ahead_bind (fun rest => hparameters rest _ hhead) ?_
  rintro ⟨read, seen⟩ ⟨read', seen'⟩ ⟨hread, hyields, hawaits⟩ ⟨hread', hyields', hawaits'⟩
  have hnothing : (seen.yields <|> seen.awaits) = none := by
    rw [hyields, hawaits]
    rfl
  have hnothing' : (seen'.yields <|> seen'.awaits) = none := by
    rw [hyields', hawaits']
    rfl
  dsimp only
  rw [hnothing, hnothing']
  refine ahead_looks (fun _ => reads_report_none) fun _ _ _ _ => ?_
  refine Pairing.Leads.bind (hbody _ hinner) fun _ _ _ hdirective => ?_
  exact follows_return ⟨hread.alike hread', hdirective⟩ id

/-- A function without a name as a value. -/
theorem ahead_assignment_function (hcontext : context.IsPlain) (hrecur : pairing.KeepsParts recur)
    (hrest : pairing.Leads (Ahead rest rest' (sign "(" :: before)) true
      (functionRest recur context {} false) (functionRest recur context {} false) PartsAlike) :
    pairing.Leads (Ahead rest rest' (word "function" :: sign "(" :: before)) true
      (assignment recur context) (assignment recur context) Term.Alike := by
  have hfunction : pairing.Leads (Ahead rest rest' (word "function" :: sign "(" :: before)) true
      (function recur context false false) (function recur context false false)
      fun _ _ => True := by
    unfold function
    refine ahead_bind (fun _ => reads_expect_word _) fun _ _ _ _ => ?_
    refine ahead_looks_eq (fun _ => reads_accepts_other rfl) ?_
    refine ahead_looks_eq (fun _ => reads_sees _) ?_
    exact leads_behind_name rfl hrest
  rw [assignment_eq]
  refine ahead_looks_eq (fun _ => reads_sees_word _) ?_
  rw [hcontext.generator, Bool.false_and, if_neg Bool.false_ne_true]
  refine ahead_looks_eq (fun _ => reads_current) ?_
  refine leads_operand hrecur ?_
  rw [arrow_or_operand_eq]
  refine ahead_looks (fun _ => reads_line) fun line line' _ _ => ?_
  refine ahead_looks_eq (fun _ => reads_sees_word _) ?_
  refine ahead_looks_eq (fun _ => reads_sees _) ?_
  refine ahead_looks_eq (fun _ => reads_sees_async_parameter rfl) ?_
  -- up to here both parsers looked at the word only; from the parameters on they go in step
  suffices hprimary : pairing.Leads (Ahead rest rest' (word "function" :: sign "(" :: before)) true
      (primary recur context true) (primary recur context true) Term.Alike from
    hprimary.bind fun _ _ _ hname => keeps_name_or_arrow hrecur line line' _ hname _
  unfold primary
  refine ahead_looks (fun _ => reads_line) fun _ _ _ _ => ?_
  refine ahead_looks_eq (fun _ => reads_current) ?_
  show Follows _ (wordOperand recur context true "function")
    (wordOperand recur context true "function") _
  unfold wordOperand
  refine ahead_looks (fun _ => reads_line) fun line line' _ _ => ?_
  refine Pairing.Leads.bind hfunction fun _ _ _ _ => ?_
  exact follows_return (plain_alike line line' .other) id

/-- The declaration of a function. -/
theorem ahead_declaration (hcontext : context.IsPlain) (hname : isOrdinary name = true)
    (hrest : ∀ context : Context, context.IsPlain →
      pairing.Leads (Ahead rest rest' before) false (functionRest recur context {} false)
        (functionRest recur context {} false) PartsAlike) :
    pairing.Leads (Ahead rest rest' (word "function" :: word name :: before)) false
      (statement recur context .list) (statement recur context .list) Term.Alike := by
  have hfunction {context : Context} (hcontext : context.IsPlain) :
      pairing.Leads (Ahead rest rest' (word "function" :: word name :: before)) false
        (function recur context false true) (function recur context false true)
        fun _ _ => True := by
    unfold function
    refine ahead_bind (fun _ => reads_expect_word _) fun _ _ _ _ => ?_
    refine ahead_looks_eq (fun _ => reads_accepts_other rfl) ?_
    refine ahead_looks_eq (fun _ => reads_sees _) ?_
    show Follows _ ((some <$> bindingName context) >>= _) ((some <$> bindingName context) >>= _) _
    rw [map_eq_pure_bind, bind_assoc]
    refine ahead_bind (fun _ => reads_binding_name hcontext hname) ?_
    rintro _ _ ⟨line, rfl⟩ ⟨line', rfl⟩
    exact leads_behind_name rfl (hrest _ hcontext)
  unfold statement
  refine ahead_looks (fun _ => reads_line) fun _ _ _ _ => ?_
  refine ahead_looks_eq (fun _ => reads_current) ?_
  show Follows _ (wordStatement recur context .list "function")
    (wordStatement recur context .list "function") _
  unfold wordStatement
  refine ahead_looks (fun _ => reads_line) fun line line' _ _ => ?_
  exact follows_behind (hfunction hcontext.settled) line line'

/-! ## Scripts -/

/-- A value between parentheses. -/
theorem ahead_assignment_group (hcontext : context.IsPlain) (hrecur : pairing.KeepsParts recur)
    (hclosed : (shown.token == .sign ")") = false) (hspread : (shown.token == .sign "...") = false)
    (hvalue : ∀ context : Context, context.IsPlain →
      pairing.Leads (Ahead rest rest' (shown :: before)) true (recur (.assignment context))
        (recur (.assignment context)) Term.Alike) :
    pairing.Leads (Ahead rest rest' (sign "(" :: shown :: before)) true (assignment recur context)
      (assignment recur context) Term.Alike := by
  rw [assignment_eq]
  refine ahead_looks_eq (fun _ => reads_sees_word _) ?_
  rw [hcontext.generator, Bool.false_and, if_neg Bool.false_ne_true]
  refine ahead_looks_eq (fun _ => reads_current) ?_
  refine leads_operand hrecur ?_
  rw [arrow_or_operand_eq]
  refine ahead_looks (fun _ => reads_line) fun _ _ _ _ => ?_
  refine ahead_looks_eq (fun _ => reads_sees_word _) ?_
  refine ahead_looks_eq (fun _ => reads_sees _) ?_
  refine leads_group hrecur (ahead_apart ?_)
  rw [items_eq]
  refine ahead_looks (fun _ => reads_line) fun first first' _ _ => ?_
  refine ahead_bind (fun _ => reads_expect _) fun _ _ _ _ => ?_
  refine leads_repeat ReadAlike ?_ fun _ _ _ => follows_item_round hrecur
  unfold itemRound
  refine ahead_looks (fun _ => reads_line) fun _ _ _ _ => ?_
  refine ahead_looks_eq (fun _ => reads_accepts_other hclosed) ?_
  refine ahead_looks_eq (fun _ => reads_accepts_other hspread) ?_
  refine Pairing.Leads.bind (hvalue _ hcontext.inner) fun _ _ _ hterm => ?_
  exact follows_behind_item .nil ⟨rfl, hterm⟩

/-- A script that starts with a value between parentheses. -/
theorem ahead_script {size : Nat} (hsize : 8 ≤ size)
    (hclosed : (shown.token == .sign ")") = false) (hspread : (shown.token == .sign "...") = false)
    (hvalue : ∀ context : Context, context.IsPlain →
      pairing.Leads (Ahead rest rest' (shown :: before)) true
        (read (3 * size + 1) (.assignment context)) (read (3 * size + 1) (.assignment context))
        Term.Alike) :
    pairing.Leads (Ahead rest rest' (sign "(" :: shown :: before)) false (script size)
      (script size) NoState := by
  have hcontext : Context.IsPlain { bound := size + 2 } :=
    ⟨rfl, rfl, rfl, rfl, Nat.le_add_right_of_le hsize⟩
  have hstatement : pairing.Leads (Ahead rest rest' (sign "(" :: shown :: before)) false
      (statement (read (3 * size + 2)) { bound := size + 2 } .list)
      (statement (read (3 * size + 2)) { bound := size + 2 } .list) Term.Alike := by
    unfold statement
    refine ahead_looks (fun _ => reads_line) fun _ _ _ _ => ?_
    refine ahead_looks_eq (fun _ => reads_current) ?_
    refine leads_expression_statement (leads_inner_expression (keeps_parts _) ?_)
    exact ahead_assignment_group hcontext.settled.inner (keeps_parts _) hclosed hspread hvalue
  rw [script_eq]
  refine leads_repeat NoState ?_ fun _ _ _ _ => follows_script_round size
  unfold scriptRound
  refine ahead_looks_eq (fun _ => reads_current) ?_
  exact Pairing.Leads.bind hstatement fun _ _ _ _ => follows_again trivial nofun

/-- Where no fault is found in a text, none is found in one of the same extent that starts with the
same tokens up to a closing brace, and goes on in step behind it. -/
theorem fault_none_of_ahead {text text' : List Char}
    (htext : Spells text (tokens ++ [closing rest]))
    (htext' : Spells text' (tokens ++ [closing rest'])) (hextent : extent text = extent text')
    (hscript : pairing.Leads (Ahead rest rest' tokens) false (script (extent text))
      (script (extent text)) NoState)
    (h : fault? text = none) : fault? text' = none := by
  obtain ⟨lexeme, hlex, hshows⟩ := htext.lex 1
  obtain ⟨lexeme', hlex', hshows'⟩ := htext'.lex 1
  exact fault_none_of_leads hextent hlex hlex' ⟨hshows, hshows', rfl, .rfl⟩ hscript h

end TemplateBundle.Script

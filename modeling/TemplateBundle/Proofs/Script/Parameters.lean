import TemplateBundle.Proofs.Script.Statements

/-!
# Names of parameters

In plain code a function may name its parameter by any word that is not reserved
(`reads_parameter`), also by `await`, which the parser keeps in mind for asynchronous code. A text
whose parameter is named by a reserved word is refused, whatever stands behind the name
(`reserved_parameter_refused`).
-/

namespace TemplateBundle.Script

open Reading Shown

namespace Reading

variable {α β σ : Type} {parser : Reading α} {before middle after : List Shown}
  {first : α → Prop} {second : β → Prop}

/-! ## Names that are kept in mind -/

/-- The parser passes over the tokens like one that `Reads` them, but may meet a name `await`. -/
def ReadsNames (parser : Reading α) (before after : List Shown) (result : α → Prop) : Prop :=
  ∀ cursor : Cursor, cursor.lexeme.Shows before →
    ∃ found lexeme names,
      parser.run cursor = .ok (found, { cursor with
        lexeme := lexeme, seen := { cursor.seen with awaitNames := names } }) ∧
      lexeme.Shows after ∧ result found

theorem Reads.names (h : Reads parser before after first) :
    ReadsNames parser before after first := by
  intro cursor hcursor
  obtain ⟨found, lexeme, hrun, hafter, hfound⟩ := h cursor hcursor
  exact ⟨found, lexeme, cursor.seen.awaitNames, hrun, hafter, hfound⟩

theorem reads_names_bind {rest : α → Reading β} (h : ReadsNames parser before middle first)
    (hrest : ∀ found, first found → ReadsNames (rest found) middle after second) :
    ReadsNames (parser >>= rest) before after second := by
  intro cursor hcursor
  obtain ⟨found, lexeme, names, hrun, hmiddle, hfound⟩ := h cursor hcursor
  obtain ⟨result, final, others, hrun', hafter, hresult⟩ :=
    hrest found hfound
      { cursor with lexeme := lexeme, seen := { cursor.seen with awaitNames := names } } hmiddle
  refine ⟨result, final, others, ?_, hafter, hresult⟩
  rw [StateT.run_bind, hrun]
  exact hrun'

/-- Such a parser suspends nothing. -/
theorem reads_apart_names (h : ReadsNames parser before after first) :
    Reads (apart parser) before after fun found =>
      first found.1 ∧ found.2.yields = none ∧ found.2.awaits = none := by
  intro cursor hcursor
  obtain ⟨found, lexeme, names, hrun, hafter, hfound⟩ := h { cursor with seen := {} } hcursor
  refine ⟨(found, { awaitNames := names }), lexeme, ?_, hafter, hfound, rfl, rfl⟩
  show (parser.run { cursor with seen := {} } >>= _ : Except Nat _) = _
  rw [hrun]
  rfl

theorem reads_names_keep {tokens : List Shown} (line : Nat) :
    ReadsNames (keep { awaitNames := some line }) tokens tokens anything := by
  intro cursor hcursor
  refine ⟨(), cursor.lexeme, cursor.seen.awaitNames <|> some line, ?_, hcursor, trivial⟩
  show Except.ok ((), { cursor with seen := cursor.seen.merge { awaitNames := some line } }) = _
  have hmerge : cursor.seen.merge { awaitNames := some line } =
      { cursor.seen with awaitNames := cursor.seen.awaitNames <|> some line } := by
    simp [Suspensions.merge]
  rw [hmerge]

/-- A round with others behind it, of which it is said which tokens and states it leaves them. -/
theorem reads_names_again {step : σ → Reading (Round σ α)} {bound : Nat} {state : σ}
    (middle : List Shown) (states : σ → Prop) (hbound : 0 < bound)
    (h : ReadsNames (step state) before middle fun round =>
      ∃ state, round = .again state ∧ states state)
    (hrest : ∀ state, states state →
      ReadsNames (repeatUpTo step (bound - 1) state) middle after first) :
    ReadsNames (repeatUpTo step bound state) before after first := by
  obtain ⟨fewer, rfl⟩ := Nat.exists_eq_add_of_lt hbound
  rw [Nat.zero_add] at *
  refine reads_names_bind h ?_
  rintro _ ⟨state, rfl, hstate⟩
  exact hrest state hstate

/-! ## Parsers that fail -/

/-- Where the tokens come next, the parser fails. -/
def Fails (parser : Reading α) (before : List Shown) : Prop :=
  ∀ cursor : Cursor, cursor.lexeme.Shows before → ∃ line, parser.run cursor = .error line

theorem fails_bind {rest : α → Reading β} (h : Fails parser before) :
    Fails (parser >>= rest) before := by
  intro cursor hcursor
  obtain ⟨line, hrun⟩ := h cursor hcursor
  refine ⟨line, ?_⟩
  rw [StateT.run_bind, hrun]
  rfl

theorem fails_behind {rest : α → Reading β} (h : Reads parser before middle first)
    (hrest : ∀ found, first found → Fails (rest found) middle) :
    Fails (parser >>= rest) before := by
  intro cursor hcursor
  obtain ⟨found, lexeme, hrun, hmiddle, hfound⟩ := h cursor hcursor
  obtain ⟨line, hrun'⟩ := hrest found hfound { cursor with lexeme := lexeme } hmiddle
  refine ⟨line, ?_⟩
  rw [StateT.run_bind, hrun]
  exact hrun'

theorem fails_behind_eq {rest : α → Reading β} {value : α}
    (h : Reads parser before middle (· = value)) (hrest : Fails (rest value) middle) :
    Fails (parser >>= rest) before :=
  fails_behind h fun _ hfound => hfound ▸ hrest

theorem fails_apart (h : Fails parser before) : Fails (apart parser) before := by
  intro cursor hcursor
  obtain ⟨line, hrun⟩ := h { cursor with seen := {} } hcursor
  refine ⟨line, ?_⟩
  show (parser.run { cursor with seen := {} } >>= _ : Except Nat _) = _
  rw [hrun]
  rfl

/-- A loop fails in its first round, or because it has none. -/
theorem fails_repeat {step : σ → Reading (Round σ α)} {bound : Nat} {state : σ}
    (h : Fails (step state) before) : Fails (repeatUpTo step bound state) before := by
  cases bound with
  | zero => exact fun cursor _ => ⟨_, rfl⟩
  | succ bound => exact fails_bind h

end Reading

variable {recur : Recur} {context : Context} {place : StatementPlace} {name : String} {line : Nat}
  {shown : Shown} {tokens before after : List Shown}

/-! ## Words that name parameters -/

theorem reads_names_check_name (hcontext : context.IsHead) (hname : isReserved name = false) :
    ReadsNames (checkName context name line) tokens tokens anything := by
  have hdone : ReadsNames (pure ()) tokens tokens anything := (reads_pure trivial).names
  unfold checkName
  simp only [hname, hcontext.sloppy, hcontext.generator, hcontext.asynchronous,
    hcontext.keeps_await, hcontext.keeps_arguments, Bool.and_false, Bool.false_and, Bool.or_false,
    Bool.false_eq_true, if_false]
  split
  · exact reads_names_bind (reads_names_keep line) fun _ _ => hdone
  · exact hdone

theorem reads_names_binding (hcontext : context.IsHead) (hname : isReserved name = false) :
    ReadsNames (binding recur context) (word name :: tokens) tokens fun term =>
      ∃ line, term = Term.ofName false name line := by
  have hreference : ReadsNames (reference context) (word name :: tokens) tokens fun term =>
      ∃ line, term = Term.ofName false name line := by
    unfold reference
    refine reads_names_bind reads_current.names ?_
    rintro _ rfl
    refine reads_names_bind reads_line.names fun line _ => ?_
    refine reads_names_bind (reads_names_check_name hcontext hname) fun _ _ => ?_
    refine reads_names_bind (reads_next rfl).names fun _ _ => ?_
    rw [hcontext.sloppy]
    exact (reads_pure ⟨line, rfl⟩).names
  unfold binding bindingName
  refine reads_names_bind reads_line.names fun _ _ => ?_
  refine reads_names_bind (reads_accepts_other rfl).names ?_
  rintro _ rfl
  refine reads_names_bind (reads_accepts_other rfl).names ?_
  rintro _ rfl
  refine reads_names_bind hreference ?_
  rintro _ ⟨line, rfl⟩
  exact (reads_pure ⟨line, rfl⟩).names

/-- A single parameter, named by a word that is not reserved. -/
theorem reads_parameter {depth : Nat} (hname : isReserved name = false) :
    ReadsParameters (read (depth + 1)) [name] (.sign "(" :: word name :: .sign ")" :: after) after := by
  intro context hcontext
  have hrounds := hcontext.rounds
  have hread : ReadsNames (parameters (read (depth + 1)) context)
      (.sign "(" :: word name :: .sign ")" :: after) after (·.AreNames [name]) := by
    unfold parameters
    refine reads_names_bind reads_line.names fun first _ => ?_
    refine reads_names_bind (reads_expect _).names fun _ _ => ?_
    refine reads_names_again (.sign ")" :: after) (·.AreNames [name]) (by omega) ?parameter ?rest
    case parameter =>
      refine reads_names_bind (reads_accepts_other rfl).names ?_
      rintro _ rfl
      refine reads_names_bind (reads_accepts_other rfl).names ?_
      rintro _ rfl
      refine reads_names_bind (reads_names_binding hcontext hname) ?_
      rintro _ ⟨line, rfl⟩
      refine (reads_bind_eq (reads_initializer_none rfl) ?_).names
      refine reads_bind_eq (reads_sees _) ?_
      exact reads_pure ⟨_, rfl, rfl, rfl, rfl, rfl⟩
    case rest =>
      intro read hread
      refine (reads_done (by omega) ?_).names
      exact reads_bind_eq (reads_accepts _) (reads_pure ⟨_, rfl, hread⟩)
  exact reads_apart_names hread

/-! ## Words that do not -/

theorem fails_binding (hname : isReserved name = true) :
    Fails (binding recur context) (word name :: tokens) := by
  have hreference : Fails (reference context) (word name :: tokens) := by
    unfold reference
    refine fails_behind_eq reads_current ?_
    refine fails_behind reads_line fun line _ => ?_
    refine fails_bind ?_
    unfold checkName
    rw [hname, if_pos rfl]
    exact fails_bind fun cursor _ => ⟨line, rfl⟩
  unfold binding bindingName
  refine fails_behind reads_line fun _ _ => ?_
  refine fails_behind_eq (reads_accepts_other rfl) ?_
  refine fails_behind_eq (reads_accepts_other rfl) ?_
  exact fails_bind hreference

theorem fails_parameters {depth : Nat} (hname : isReserved name = true) :
    Fails (parameters (read (depth + 1)) context) (.sign "(" :: word name :: tokens) := by
  unfold parameters
  refine fails_behind reads_line fun first _ => ?_
  refine fails_behind (reads_expect _) fun _ _ => ?_
  refine fails_repeat ?_
  refine fails_behind_eq (reads_accepts_other rfl) ?_
  refine fails_behind_eq (reads_accepts_other rfl) ?_
  exact fails_bind (fails_binding hname)

/-- A function whose first parameter is named by a reserved word. -/
theorem fails_function {depth : Nat} (hname : isReserved name = true) :
    Fails (arrowOrOperand (read (depth + 1)) context)
      (word "function" :: .sign "(" :: word name :: tokens) := by
  have hfunction : Fails (function (read (depth + 1)) context false false)
      (word "function" :: .sign "(" :: word name :: tokens) := by
    unfold function functionRest
    refine fails_behind (reads_expect_word _) fun _ _ => ?_
    refine fails_behind_eq (reads_accepts_other rfl) ?_
    refine fails_behind_eq (reads_sees _) ?_
    refine fails_behind_eq (reads_pure rfl) ?_
    exact fails_bind (fails_bind (fails_apart (fails_bind (fails_apart (fails_parameters hname)))))
  have hprimary : Fails (primary (read (depth + 1)) context true)
      (word "function" :: .sign "(" :: word name :: tokens) := by
    unfold primary
    refine fails_behind reads_line fun _ _ => ?_
    refine fails_behind_eq reads_current ?_
    show Fails (wordOperand (read (depth + 1)) context true "function") _
    unfold wordOperand
    exact fails_behind reads_line fun line _ => fails_bind hfunction
  unfold arrowOrOperand
  refine fails_behind reads_line fun _ _ => ?_
  refine fails_behind_eq (reads_sees_word _) ?_
  refine fails_behind_eq (reads_sees _) ?_
  refine fails_behind_eq (reads_sees_async_parameter rfl) ?_
  exact fails_bind hprimary

/-- An expression fails if what it starts with does. -/
theorem fails_assignment (hcontext : context.IsPlain)
    (hstart : mayStartArrow context shown.token = true)
    (h : Fails (arrowOrOperand recur context) (shown :: tokens)) :
    Fails (assignment recur context) (shown :: tokens) := by
  unfold assignment
  refine fails_behind_eq (reads_sees_word _) ?_
  rw [hcontext.generator, Bool.false_and, if_neg Bool.false_ne_true]
  refine fails_behind_eq reads_current ?_
  rw [hstart, if_pos rfl]
  exact fails_bind h

/-- A value between parentheses fails if it does so without them. -/
theorem fails_group (hclosed : (shown.token == .sign ")") = false)
    (hspread : (shown.token == .sign "...") = false)
    (h : ∀ context : Context, context.IsPlain → Fails (recur (.assignment context)) (shown :: tokens))
    (hcontext : context.IsPlain) :
    Fails (arrowOrOperand recur context) (.sign "(" :: shown :: tokens) := by
  have hitems : Fails (items recur context) (.sign "(" :: shown :: tokens) := by
    unfold items
    refine fails_behind reads_line fun first _ => ?_
    refine fails_behind (reads_expect _) fun _ _ => ?_
    refine fails_repeat ?_
    refine fails_behind reads_line fun _ _ => ?_
    refine fails_behind_eq (reads_accepts_other hclosed) ?_
    refine fails_behind_eq (reads_accepts_other hspread) ?_
    exact fails_bind (h _ hcontext.inner)
  unfold arrowOrOperand
  refine fails_behind reads_line fun _ _ => ?_
  refine fails_behind_eq (reads_sees_word _) ?_
  refine fails_behind_eq (reads_sees _) ?_
  exact fails_bind (fails_apart hitems)

/-- A script that is such a function between parentheses. -/
theorem fails_script {size : Nat} (hsize : 8 ≤ size) (hname : isReserved name = true) :
    Fails (script size) (.sign "(" :: word "function" :: .sign "(" :: word name :: tokens) := by
  have hcontext : Context.IsPlain { bound := size + 2 } :=
    ⟨rfl, rfl, rfl, rfl, Nat.le_add_right_of_le hsize⟩
  -- the statement holds the group, the group the value, and the value its parameters
  obtain ⟨depth, hdepth⟩ : ∃ depth, 3 * size + 3 = depth + 4 := ⟨3 * size - 1, by omega⟩
  have hvalue (context : Context) (hcontext : context.IsPlain) :
      Fails (read (depth + 2) (.assignment context))
        (word "function" :: .sign "(" :: word name :: tokens) :=
    fails_assignment hcontext rfl (fails_function hname)
  have hgroup (context : Context) (hcontext : context.IsPlain) :
      Fails (read (depth + 3) (.assignment context))
        (.sign "(" :: word "function" :: .sign "(" :: word name :: tokens) :=
    fails_assignment hcontext rfl (fails_group rfl rfl hvalue hcontext)
  have hstatement (context : Context) (hcontext : context.IsPlain) :
      Fails (read (depth + 4) (.statement context .list))
        (.sign "(" :: word "function" :: .sign "(" :: word name :: tokens) := by
    refine fails_behind reads_line fun _ _ => fails_behind_eq reads_current ?_
    exact fails_bind (fails_bind (fails_bind (hgroup _ hcontext.settled.inner)))
  unfold script
  refine fails_repeat (fails_behind_eq reads_current ?_)
  rw [hdepth]
  exact fails_bind (hstatement _ hcontext)

/-- A function text is refused if a reserved word names its first parameter. -/
theorem reserved_parameter_refused (hword : isWord name.toList = true)
    (hname : isReserved name = true) (rest : List Char) :
    ∃ line, check (String.ofList ("function(".toList ++ (name.toList ++ ')' :: rest))) =
      some line := by
  have hend : Spells (')' :: (rest ++ ['\n', ')'])) [] := spells_before_sign rfl rfl
  have hspells : Spells (wrap ("function(".toList ++ (name.toList ++ ')' :: rest)))
      [.sign "(", word "function", .sign "(", word name] := by
    unfold wrap
    simp only [String.reduceToList, List.cons_append, List.nil_append, List.append_assoc]
    refine spells_sign "(" rfl rfl ?_
    refine spells_word "function" rfl rfl ?_
    exact spells_sign "(" rfl rfl (spells_word name hword rfl hend)
  have hsize : 8 ≤ extent (wrap ("function(".toList ++ (name.toList ++ ')' :: rest))) := by
    unfold wrap extent
    simp only [String.reduceToList, List.cons_append, List.nil_append, List.countP_cons]
    simp
  obtain ⟨lexeme, hlex, hshows⟩ := hspells.lex 1
  obtain ⟨line, hrun⟩ :=
    fails_script hsize hname { lexeme := lexeme, early := none, seen := {} } hshows
  refine ⟨line, ?_⟩
  unfold check fault?
  rw [String.toList_ofList, hlex]
  simp only [hrun]

end TemplateBundle.Script

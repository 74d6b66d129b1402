import TemplateBundle.Script.Check

/-!
# Runs of parsers

A parser is followed token by token. `Reads` says that it passes over the first tokens of those that
come next and leaves everything else at the cursor as it was; it has a rule for each step that
parsers are made of.
-/

namespace TemplateBundle.Script

/-! ## Tokens ahead -/

/-- A token as a parser meets it. -/
structure Shown where
  token : Token
  /-- It is known that no line ends before the token. -/
  sameLine : Bool := false
  /-- The text behind the token, where nothing else is known of what comes next. -/
  behind : Option (List Char) := none

namespace Shown

/-- A sign. -/
def sign (text : String) : Shown where
  token := .sign text

/-- A name or a word, written plainly. -/
def word (text : String) : Shown where
  token := .name text false

/-- A string literal without escapes that strict code refuses. -/
def string (written : List Char) : Shown where
  token := .string written false

/-- The end of the script. -/
def stop : Shown where
  token := .stop

/-- A closing brace with the text behind it. -/
def closing (rest : List Char) : Shown where
  token := .sign "\x7d"
  behind := some rest

/-- The token stands on the line of the one before. -/
def onLine (shown : Shown) : Shown :=
  { shown with sameLine := true }

end Shown

/-- These tokens come next. -/
def Lexeme.Shows : Lexeme → List Shown → Prop
  | _, [] => True
  | lexeme, first :: others =>
      lexeme.token = first.token ∧ (first.sameLine = true → lexeme.newline = false) ∧
        first.behind.elim (∃ next, lex lexeme.after = .ok next ∧ next.Shows others)
          (lexeme.after.rest = ·)

/-! ## Parsers -/

namespace Reading

variable {α β σ : Type} {parser : Reading α} {before middle after : List Shown}
  {first : α → Prop} {second : β → Prop} {shown : Shown} {tokens : List Shown}

/-- Where the tokens `before` come next, the parser has such a result, and then the tokens `after`
come next. No fault and no suspension is met. -/
def Reads (parser : Reading α) (before after : List Shown) (result : α → Prop) : Prop :=
  ∀ cursor : Cursor, cursor.lexeme.Shows before →
    ∃ found lexeme, parser.run cursor = .ok (found, { cursor with lexeme := lexeme }) ∧
      lexeme.Shows after ∧ result found

/-- The parser has a result. -/
abbrev anything : α → Prop :=
  fun _ => True

theorem reads_pure {result : α → Prop} {value : α} (h : result value) :
    Reads (pure value) before before result :=
  fun cursor hcursor => ⟨value, cursor.lexeme, rfl, hcursor, h⟩

theorem reads_bind {rest : α → Reading β} (h : Reads parser before middle first)
    (hrest : ∀ found, first found → Reads (rest found) middle after second) :
    Reads (parser >>= rest) before after second := by
  intro cursor hcursor
  obtain ⟨found, lexeme, hrun, hmiddle, hfound⟩ := h cursor hcursor
  obtain ⟨result, final, hrun', hafter, hresult⟩ :=
    hrest found hfound { cursor with lexeme := lexeme } hmiddle
  refine ⟨result, final, ?_, hafter, hresult⟩
  rw [StateT.run_bind, hrun]
  exact hrun'

/-- The result of the first parser is known. -/
theorem reads_bind_eq {rest : α → Reading β} {value : α}
    (h : Reads parser before middle (· = value))
    (hrest : Reads (rest value) middle after second) :
    Reads (parser >>= rest) before after second :=
  reads_bind h fun _ hfound => hfound ▸ hrest

theorem Reads.mono {weaker : α → Prop} (h : Reads parser before after first)
    (hweaker : ∀ found, first found → weaker found) : Reads parser before after weaker := by
  intro cursor hcursor
  obtain ⟨found, lexeme, hrun, hafter, hfound⟩ := h cursor hcursor
  exact ⟨found, lexeme, hrun, hafter, hweaker found hfound⟩

theorem Reads.on_line (h : Reads parser (shown :: tokens) after first) :
    Reads parser (shown.onLine :: tokens) after first :=
  fun cursor ⟨htoken, hline, hothers⟩ => h cursor ⟨htoken, fun _ => hline rfl, hothers⟩

/-! ## Looking at a token -/

theorem reads_line : Reads line before before anything :=
  fun cursor hcursor => ⟨_, cursor.lexeme, rfl, hcursor, trivial⟩

theorem reads_newline : Reads newline before before anything :=
  fun cursor hcursor => ⟨_, cursor.lexeme, rfl, hcursor, trivial⟩

theorem reads_newline_on_line :
    Reads newline (shown.onLine :: tokens) (shown.onLine :: tokens) (· = false) :=
  fun cursor hcursor => ⟨_, cursor.lexeme, rfl, hcursor, hcursor.2.1 rfl⟩

theorem reads_current : Reads current (shown :: tokens) (shown :: tokens) (· = shown.token) :=
  fun cursor hcursor => ⟨_, cursor.lexeme, rfl, hcursor, hcursor.1⟩

theorem reads_sees (sign : String) :
    Reads (sees sign) (shown :: tokens) (shown :: tokens) (· = (shown.token == .sign sign)) :=
  reads_bind reads_current fun _ htoken => reads_pure (by rw [htoken])

theorem reads_sees_word (word : String) :
    Reads (seesWord word) (shown :: tokens) (shown :: tokens)
      (· = (shown.token == .name word false)) :=
  reads_bind reads_current fun _ htoken => reads_pure (by rw [htoken])

theorem reads_peek {follower : Shown} (hopen : shown.behind = none) :
    Reads peek (shown :: follower :: tokens) (shown :: follower :: tokens) fun found =>
      found.token = follower.token := by
  intro cursor hcursor
  have hothers := hcursor.2.2
  rw [hopen] at hothers
  obtain ⟨behind, hlex, hbehind⟩ := hothers
  refine ⟨behind, cursor.lexeme, ?_, hcursor, hbehind.1⟩
  unfold peek
  rw [StateT.run_bind]
  show ((lex cursor.lexeme.after : Except Nat Lexeme) >>= _ : Except Nat _) = _
  rw [hlex]
  rfl

/-! ## Passing over a token -/

theorem reads_next (hopen : shown.behind = none) :
    Reads next (shown :: tokens) tokens anything := by
  intro cursor hcursor
  have hothers := hcursor.2.2
  rw [hopen] at hothers
  obtain ⟨behind, hlex, hbehind⟩ := hothers
  refine ⟨(), behind, ?_, hbehind, trivial⟩
  show (resume cursor.lexeme.after).run cursor = _
  unfold resume
  rw [StateT.run_bind, hlex]
  rfl

theorem reads_accepts (sign : String) :
    Reads (accepts sign) (.sign sign :: tokens) tokens (· = true) := by
  refine reads_bind_eq (reads_sees sign) ?_
  rw [if_pos (by exact beq_self_eq_true _)]
  exact reads_bind (reads_next rfl) fun _ _ => reads_pure rfl

theorem reads_accepts_other {sign : String} (h : (shown.token == .sign sign) = false) :
    Reads (accepts sign) (shown :: tokens) (shown :: tokens) (· = false) := by
  refine reads_bind_eq (reads_sees sign) ?_
  rw [h, if_neg Bool.false_ne_true]
  exact reads_pure rfl

theorem reads_accepts_word (word : String) :
    Reads (acceptsWord word) (.word word :: tokens) tokens (· = true) := by
  refine reads_bind_eq (reads_sees_word word) ?_
  rw [if_pos (by exact beq_self_eq_true _)]
  exact reads_bind (reads_next rfl) fun _ _ => reads_pure rfl

theorem reads_expect (sign : String) :
    Reads (expect sign) (.sign sign :: tokens) tokens anything :=
  reads_bind_eq (reads_accepts sign) (reads_pure trivial)

theorem reads_expect_word (word : String) :
    Reads (expectWord word) (.word word :: tokens) tokens anything :=
  reads_bind_eq (reads_accepts_word word) (reads_pure trivial)

/-! ## Faults and suspensions -/

theorem reads_report_none : Reads (reportAny none) before before anything :=
  reads_pure trivial

theorem reads_settle {term : Term} (h : term.coverFault = none) :
    Reads term.settle before before anything := by
  unfold Term.settle
  rw [h]
  exact reads_report_none

/-- A parser that meets no suspension gives none. -/
theorem reads_apart (h : Reads parser before after first) :
    Reads (apart parser) before after fun found => first found.1 ∧ found.2 = {} := by
  intro cursor hcursor
  obtain ⟨found, lexeme, hrun, hafter, hfound⟩ := h { cursor with seen := {} } hcursor
  refine ⟨(found, {}), lexeme, ?_, hafter, hfound, rfl⟩
  show (parser.run { cursor with seen := {} } >>= _ : Except Nat _) = _
  rw [hrun]
  rfl

theorem reads_keep_nothing : Reads (keep {}) before before anything := by
  intro cursor hcursor
  refine ⟨(), cursor.lexeme, ?_, hcursor, trivial⟩
  show Except.ok ((), { cursor with seen := cursor.seen.merge {} }) = _
  have hmerge : cursor.seen.merge {} = cursor.seen := by
    simp [Suspensions.merge]
  rw [hmerge]

/-! ## Loops -/

variable {step : σ → Reading (Round σ α)} {bound : Nat} {state : σ}

/-- A last round. -/
theorem reads_done (hbound : 0 < bound)
    (h : Reads (step state) before after fun round => ∃ found, round = .done found ∧ first found) :
    Reads (repeatUpTo step bound state) before after first := by
  obtain ⟨fewer, rfl⟩ := Nat.exists_eq_add_of_lt hbound
  rw [Nat.zero_add] at *
  refine reads_bind h ?_
  rintro _ ⟨found, rfl, hfound⟩
  exact reads_pure hfound

/-- A round with others behind it, of which it is said which tokens and states it leaves them. -/
theorem reads_again (middle : List Shown) (states : σ → Prop) (hbound : 0 < bound)
    (h : Reads (step state) before middle fun round => ∃ state, round = .again state ∧ states state)
    (hrest : ∀ state, states state →
      Reads (repeatUpTo step (bound - 1) state) middle after first) :
    Reads (repeatUpTo step bound state) before after first := by
  obtain ⟨fewer, rfl⟩ := Nat.exists_eq_add_of_lt hbound
  rw [Nat.zero_add] at *
  refine reads_bind h ?_
  rintro _ ⟨state, rfl, hstate⟩
  exact hrest state hstate

/-- So many parts stand one behind the other. -/
inductive Series (part : List Shown → List Shown → Prop) :
    Nat → List Shown → List Shown → Prop where
  | nil (tokens : List Shown) : Series part 0 tokens tokens
  | cons {count : Nat} {before middle after : List Shown} (hpart : part before middle)
      (hothers : Series part count middle after) : Series part (count + 1) before after

/-- A loop that reads one part in each round, and ends behind them. The induction is on the
parts. -/
theorem reads_rounds {part : List Shown → List Shown → Prop} {count : Nat} (states : σ → Prop)
    (hparts : Series part count before middle)
    (hagain : ∀ state before middle, states state → part before middle →
      Reads (step state) before middle fun round =>
        ∃ state, round = .again state ∧ states state)
    (hdone : ∀ state, states state → Reads (step state) middle after fun round =>
      ∃ found, round = .done found ∧ first found)
    (hcount : count < bound) (hstate : states state) :
    Reads (repeatUpTo step bound state) before after first := by
  induction hparts generalizing bound state with
  | nil tokens => exact reads_done (by omega) (hdone state hstate)
  | cons hpart hothers ih =>
      exact reads_again _ states (by omega) (hagain state _ _ hstate hpart) fun state hstate =>
        ih hdone (by omega) hstate

end Reading

end TemplateBundle.Script

import TemplateBundle.Proofs.Script.Lockstep.Scanning
import TemplateBundle.Proofs.Template.Literals

/-!
# Functions without their line breaks

The line breaks of a function can be left out (`Broken`) where its lines end so that the token before
the break is over and no comment reaches behind it. The parser reads the same tokens then
(`linePairing`).
-/

namespace TemplateBundle.Template

open Script

variable {ticks : Prop} {text code front back rest left right behind : List Char} {line : Nat}

/-! ## Quiet characters -/

/-- A character that ends no line, starts neither a template nor a regular expression and belongs to no
sign of a comment. -/
def isQuietChar (c : Char) : Bool :=
  !isLineEnd c && !(['\x60', '$', '/', '<', '-', '*'].contains c)

theorem of_quiet_char {c : Char} (h : isQuietChar c = true) :
    isLineEnd c = false ∧ c ≠ '\x60' ∧ c ≠ '$' ∧ c ≠ '/' := by
  simp only [isQuietChar, Bool.and_eq_true, Bool.not_eq_true'] at h
  obtain ⟨hinline, hsign⟩ := h
  refine ⟨hinline, ?_, ?_, ?_⟩ <;>
    · rintro rfl
      exact absurd hsign (by decide)

theorem not_mem_quiet {c : Char} (hc : isQuietChar c = false) (h : text.all isQuietChar = true) :
    c ∉ text :=
  fun hmem => Bool.false_ne_true (hc.symm.trans (List.all_eq_true.mp h c hmem))

/-- A pattern does not start in a part without its first character. -/
theorem infix_of_not_mem {c : Char} {pattern front rest : List Char} (hc : c ∉ front)
    (h : c :: pattern <:+: front ++ rest) : c :: pattern <:+: rest := by
  induction front with
  | nil => exact h
  | cons d front ih =>
      rcases List.infix_cons_iff.mp h with hhere | hbehind
      · exact absurd (List.cons_prefix_cons.mp hhere).1 (List.ne_of_not_mem_cons hc)
      · exact ih (List.not_mem_of_not_mem_cons hc) hbehind

/-- A pattern does not end in a part without its last character. -/
theorem infix_of_not_mem_end {c : Char} (pattern : List Char) (hc : c ∉ back)
    (h : pattern ++ [c] <:+: front ++ back) : pattern ++ [c] <:+: front := by
  rw [← List.reverse_infix, List.reverse_append] at h ⊢
  rw [List.reverse_append] at h
  exact infix_of_not_mem (List.mem_reverse.not.mpr hc) h

theorem suffix_of_not_mem {c : Char} {pattern : List Char} (hc : c ∉ front)
    (h : c :: pattern <:+ front ++ rest) : c :: pattern <:+ rest := by
  induction front with
  | nil => exact h
  | cons d front ih =>
      rcases List.suffix_cons_iff.mp h with hhere | hbehind
      · exact absurd (List.cons.inj hhere).1 (List.ne_of_not_mem_cons hc)
      · exact ih (List.not_mem_of_not_mem_cons hc) hbehind

/-- Around code that starts no comment that reaches behind it nothing starts one. -/
theorem tame_within (h : IsTame code) (hfront : front.all isQuietChar = true)
    (hback : back.all isQuietChar = true) : IsTame (front ++ (code ++ back)) where
  no_line := fun hline => h.no_line (infix_of_not_mem_end ['/']
    (not_mem_quiet rfl hback) (infix_of_not_mem (not_mem_quiet rfl hfront) hline))
  no_markup := fun hmarkup => h.no_markup (infix_of_not_mem_end "<!-".toList
    (not_mem_quiet rfl hback) (infix_of_not_mem (not_mem_quiet rfl hfront) hmarkup))
  closed := by
    intro rest hrest
    have hslash : '/' ∉ back := not_mem_quiet rfl hback
    have hstar : '*' ∉ back := not_mem_quiet rfl hback
    obtain ⟨before, hbefore⟩ := suffix_of_not_mem (not_mem_quiet rfl hfront) hrest
    have hsigns : before ++ '/' :: '*' :: rest = code ++ back := hbefore
    rcases List.append_eq_append_iff.mp hsigns with ⟨behind, hcode, hend⟩ | ⟨behind, -, hend⟩
    · rcases behind with _ | ⟨c, _ | ⟨d, behind⟩⟩
      · have hstart : '/' :: '*' :: rest = back := hend
        exact absurd (hstart ▸ List.mem_cons_self) hslash
      · have hstart : '*' :: rest = back := (List.cons.inj hend).2
        exact absurd (hstart ▸ List.mem_cons_self) hstar
      · obtain ⟨rfl, hothers⟩ : c = '/' ∧ '*' :: rest = d :: (behind ++ back) :=
          ⟨(List.cons.inj hend).1.symm, (List.cons.inj hend).2⟩
        obtain ⟨rfl, rfl⟩ := List.cons.inj hothers
        have hclosed := h.closed behind ⟨before, hcode.symm⟩
        exact hclosed.trans (List.prefix_append behind back).isInfix
    · exact absurd (hend ▸ List.mem_append_right behind List.mem_cons_self) hslash

/-! ## Lines -/

/-- Tokens in front of a literal. Each ends in front of the next one, whatever stands behind the
quote. -/
inductive IsOpening : List Char → Prop where
  | nil : IsOpening []
  | blank {front : List Char} (h : IsOpening front) : IsOpening (' ' :: front)
  | token {c : Char} {front rest : List Char} {found : Token} (hc : startsToken c = true)
      (hread : ∀ behind line, tokenAt (c :: front ++ '\'' :: behind) line =
        .ok (found, ⟨rest ++ '\'' :: behind, line⟩))
      (hrest : rest <:+ front) (h : IsOpening rest) : IsOpening (c :: front)

/-- What may stand behind the literal in a line. -/
def literalEndings : List (List Char) :=
  [";".toList, " +".toList]

/-- The text can stand in a literal: where code has template marks, the text has none, or it starts no
comment that reaches behind it. -/
def FitsLiteral (ticks : Prop) (text : List Char) : Prop :=
  ticks → ('\x60' ∉ text ∧ ¬ "$\x7b".toList <:+: text) ∨ IsTame (escapeText text)

/-- A line from some token on: code, or a line with the literal for a text. Code has template marks
only if `ticks`. -/
inductive Front (ticks : Prop) : List Char → Prop where
  | code {text : List Char} (hclosed : Closed text) (htame : IsTame text)
      (htick : '\x60' ∈ text → ticks) : Front ticks text
  | literal {front text ending : List Char} (hfront : IsOpening front)
      (hquiet : front.all isQuietChar = true) (hending : ending ∈ literalEndings)
      (htext : FitsLiteral ticks text) :
      Front ticks (front ++ '\'' :: (escapeText text ++ '\'' :: ending))

theorem inline_of_ne {c : Char} (hfeed : c ≠ '\n') (hreturn : c ≠ '\r') (hline : c ≠ '\u2028')
    (hparagraph : c ≠ '\u2029') : isLineEnd c = false := by
  simp [isLineEnd, hfeed, hreturn, hline, hparagraph]

theorem inline_escape_char (c : Char) : ∀ d ∈ escapeChar c, isLineEnd d = false := by
  unfold escapeChar
  split
  case h_8 hfeed hreturn _ hline hparagraph =>
    intro d hd
    rw [List.mem_singleton.mp hd]
    exact inline_of_ne hfeed hreturn hline hparagraph
  all_goals decide

/-- In a literal no line ends. -/
theorem inline_escape_text (text : List Char) : ∀ c ∈ escapeText text, isLineEnd c = false := by
  intro d hd
  obtain ⟨c, -, hd⟩ := List.mem_flatMap.mp hd
  exact inline_escape_char c d hd

theorem closed_literal {front ending : List Char} (hquiet : front.all isQuietChar = true)
    (hending : ending ∈ literalEndings) (text : List Char) :
    Closed (front ++ '\'' :: (escapeText text ++ '\'' :: ending)) where
  ne_nil := by simp
  ends := by
    have hends : ∀ ending ∈ literalEndings, ending ∈ lineEndings := by decide
    exact ⟨ending, hends ending hending, .inr ⟨front ++ '\'' :: (escapeText text ++ ['\'']),
      by simp⟩⟩
  inline := by
    have hendings : ∀ ending ∈ literalEndings, ∀ c ∈ '\'' :: ending, isLineEnd c = false := by
      decide
    intro c hc
    rcases List.mem_append.mp hc with hc | hc
    · exact (of_quiet_char (List.all_eq_true.mp hquiet c hc)).1
    · rcases List.mem_cons.mp hc with rfl | hc
      · decide
      · rcases List.mem_append.mp hc with hc | hc
        · exact inline_escape_text text c hc
        · exact hendings ending hending c hc

theorem Front.closed (h : Front ticks text) : Closed text := by
  cases h with
  | code hclosed _ _ => exact hclosed
  | literal _ hquiet hending _ => exact closed_literal hquiet hending _

/-- Blanks in front of a literal are passed over. -/
theorem IsOpening.gap {front : List Char} (h : IsOpening front) : ∃ rest, IsOpening rest ∧
    rest <:+ front ∧ ∀ behind line newline, skipGap .blank (front ++ '\'' :: behind) line newline =
      .ok (⟨rest ++ '\'' :: behind, line⟩, newline) := by
  induction h with
  | nil => exact ⟨[], .nil, List.suffix_rfl, fun _ _ _ => skip_gap_token rfl⟩
  | blank _ ih =>
      obtain ⟨rest, hrest, hsuffix, hskip⟩ := ih
      exact ⟨rest, hrest, hsuffix.trans (List.suffix_cons _ _), hskip⟩
  | token hc hread hrest h _ =>
      exact ⟨_, .token hc hread hrest h, List.suffix_rfl, fun _ _ _ => skip_gap_token hc⟩

/-- What stands between tokens in a line is passed over in the same way, whatever stands behind the
line. -/
theorem Front.gap (h : Front ticks text) : ∃ rest, Front ticks rest ∧ rest <:+ text ∧
    ∀ behind line newline, ¬(newline = true ∧ "-->".toList <+: rest) →
      skipGap .blank (text ++ behind) line newline = .ok (⟨rest ++ behind, line⟩, newline) := by
  cases h with
  | code hclosed htame htick =>
      obtain ⟨rest, hrest, hsuffix, hskip⟩ := gap_within hclosed htame
      exact ⟨rest, .code hrest (htame.of_suffix hsuffix) fun hmem => htick (hsuffix.subset hmem),
        hsuffix, hskip⟩
  | @literal front text ending hfront hquiet hending htext =>
      obtain ⟨rest, hrest, hsuffix, hskip⟩ := hfront.gap
      have hquiet' : rest.all isQuietChar = true :=
        List.all_eq_true.mpr fun c hc => List.all_eq_true.mp hquiet c (hsuffix.subset hc)
      refine ⟨_, .literal hrest hquiet' hending htext, ?_, fun behind line newline _ => ?_⟩
      · obtain ⟨blanks, rfl⟩ := hsuffix
        exact ⟨blanks, by simp⟩
      · rw [List.append_assoc, List.append_assoc]
        exact hskip _ line newline

/-- The literal for a text is read as one token. -/
theorem token_literal (text rest : List Char) (line : Nat) :
    tokenAt ('\'' :: (escapeText text ++ '\'' :: rest)) line =
      .ok (.string (text.map keptChar) false, ⟨rest, line⟩) := by
  have hlength := length_escape_text text
  show stringBody '\'' line _ (escapeText text ++ '\'' :: rest) line false [] = _
  rw [body_escape_text text line line (by rw [List.length_append]; omega)]
  rfl

theorem front_literal_ending {ending : List Char} (hending : ending ∈ literalEndings) :
    Front ticks ending := by
  have hplain : ∀ ending ∈ literalEndings, ending ≠ [] ∧ EndsLine ending ∧
      (∀ c ∈ ending, isLineEnd c = false) ∧ '/' ∉ ending ∧ '<' ∉ ending ∧ '\x60' ∉ ending := by
    decide
  obtain ⟨hne, hends, hinline, hslash, hless, htick⟩ := hplain ending hending
  exact .code ⟨hne, hends, hinline⟩ (tame_of_not_mem hslash hless) fun hmem => absurd hmem htick

/-- A token that is read in a line is read there, whatever goes on behind the line. -/
theorem Front.token (h : Front ticks text) (hlink : Links text right) {token : Token}
    {after : Place} (hread : tokenAt (text ++ '\n' :: left) line = .ok (token, after)) :
    ∃ rest, (rest = [] ∨ Front ticks rest) ∧ rest <:+ text ∧ (rest = [] → token.settles = false) ∧
      after = ⟨rest ++ '\n' :: left, line⟩ ∧
      ∀ line, tokenAt (text ++ right) line = .ok (token, ⟨rest ++ right, line⟩) := by
  cases h with
  | code hclosed htame htick =>
      obtain ⟨rest, hsuffix, hrest⟩ := token_within hclosed hlink hread
      refine ⟨rest, (hclosed.nil_or_suffix hsuffix).imp_right fun hclosed => ?_, hsuffix, hrest⟩
      exact .code hclosed (htame.of_suffix hsuffix) fun hmem => htick (hsuffix.subset hmem)
  | @literal front text ending hfront hquiet hending htext =>
      -- a token that is read whatever stands behind the line is the one that was read
      have hgo (found : Token) {rest : List Char} (hrest : Front ticks rest)
          (hsuffix : rest <:+ front ++ '\'' :: (escapeText text ++ '\'' :: ending))
          (hall : ∀ behind line,
            tokenAt (front ++ '\'' :: (escapeText text ++ '\'' :: ending) ++ behind) line =
              .ok (found, ⟨rest ++ behind, line⟩)) :
          ∃ rest, (rest = [] ∨ Front ticks rest) ∧
            rest <:+ front ++ '\'' :: (escapeText text ++ '\'' :: ending) ∧
            (rest = [] → token.settles = false) ∧ after = ⟨rest ++ '\n' :: left, line⟩ ∧
            ∀ line, tokenAt (front ++ '\'' :: (escapeText text ++ '\'' :: ending) ++ right) line =
              .ok (token, ⟨rest ++ right, line⟩) := by
        obtain ⟨rfl, rfl⟩ := Prod.mk.inj (Except.ok.inj ((hall _ line).symm.trans hread))
        exact ⟨rest, .inr hrest, hsuffix, fun hnil => absurd hnil hrest.closed.ne_nil, rfl,
          hall right⟩
      cases hfront with
      | nil =>
          refine hgo (.string (text.map keptChar) false) (front_literal_ending hending) ?_
            fun behind line => ?_
          · exact ⟨'\'' :: (escapeText text ++ ['\'']), by simp⟩
          · have htoken := token_literal text (ending ++ behind) line
            simpa using htoken
      | blank _ => exact nomatch hread
      | @token c front rest found hc hnext hrest h =>
          have hsuffix := hrest.trans (List.suffix_cons c front)
          have hquiet' : rest.all isQuietChar = true :=
            List.all_eq_true.mpr fun d hd => List.all_eq_true.mp hquiet d (hsuffix.subset hd)
          refine hgo found (.literal h hquiet' hending htext) ?_ fun behind line => ?_
          · obtain ⟨others, hothers⟩ := hsuffix
            exact ⟨others, by rw [← hothers]; simp⟩
          · have htoken := hnext (escapeText text ++ '\'' :: ending ++ behind) line
            simpa using htoken

/-! ## Texts with and without their line breaks -/

/-- Behind blanks and comments the text starts with the sign that closes a markup comment. -/
def startsMarkup (text : List Char) : Bool :=
  match skipGap .blank text 1 false with
  | .ok (place, _) => "-->".toList.isPrefixOf place.rest
  | .error _ => false

/-- The end of a function, from some token on, with and without its line breaks. -/
def endings : List (List Char × List Char) :=
  [("\x7dreturn __p\n\x7d\n)".toList, "\x7dreturn __p\x7d\n)".toList),
    ("return __p\n\x7d\n)".toList, "return __p\x7d\n)".toList),
    (" __p\n\x7d\n)".toList, " __p\x7d\n)".toList),
    ("\n\x7d\n)".toList, "\x7d\n)".toList),
    ("\n)".toList, "\n)".toList),
    ([], [])]

/-- What follows some token of a function, with and without its line breaks. No line break is left
out behind which a markup comment could end. -/
inductive Broken (ticks : Prop) : List Char → List Char → Prop where
  | line {text left right : List Char} (htext : text = [] ∨ Front ticks text)
      (hlink : Links text right) (hmarkup : startsMarkup left = false)
      (h : Broken ticks left right) : Broken ticks (text ++ '\n' :: left) (text ++ right)
  | ending {left right : List Char} (h : (left, right) ∈ endings) : Broken ticks left right

/-- Places of a function with and without its line breaks, before the same token. Where the token is
settled no line break is left out, but for the last ones. -/
structure Places (ticks : Prop) (settled : Bool) (first second : Place) : Prop where
  broken : Broken ticks first.rest second.rest
  same_line : settled = true →
    first.rest.head? ≠ some '\n' ∨ (first.rest, second.rest) ∈ endings

variable {newline : Bool} {lexeme : Lexeme}

/-- The tokens at the end of a function. -/
theorem lex_ending (h : (left, right) ∈ endings) (newline : Bool) (line line' : Nat) :
    ∃ lexeme other, lexFrom left line newline = .ok lexeme ∧ lexFrom right line' false = .ok other ∧
      lexeme.token = other.token ∧ (lexeme.after.rest, other.after.rest) ∈ endings ∧
      (∀ sign ∈ ["\x60", "/", "/="], lexeme.token ≠ .sign sign) ∧
      (newline = false → lexeme.Settled other) := by
  simp only [endings, String.reduceToList, List.mem_cons, List.not_mem_nil, or_false,
    Prod.mk.injEq] at h
  rcases h with ⟨rfl, rfl⟩ | ⟨rfl, rfl⟩ | ⟨rfl, rfl⟩ | ⟨rfl, rfl⟩ | ⟨rfl, rfl⟩ | ⟨rfl, rfl⟩
  all_goals
    cases newline <;>
      exact ⟨_, _, rfl, rfl, rfl, by simp [endings], by simp, by simp [Lexeme.Settled]⟩

/-! ## Templates -/

/-- A text without signs of templates holds no end of one. -/
theorem template_text_error {text : List Char} (h : ∀ c ∈ text, c ∉ ['\x60', '$', '\\'])
    (bound line : Nat) (fault : Option Nat) :
    ∃ faulty, templateText bound text line fault = .error faulty := by
  induction bound generalizing text line with
  | zero => exact ⟨line, rfl⟩
  | succ bound ih =>
      cases text with
      | nil => exact ⟨line, rfl⟩
      | cons c text =>
          have hc := h c List.mem_cons_self
          simp only [List.mem_cons, List.not_mem_nil, or_false, not_or] at hc
          obtain ⟨faulty, hfaulty⟩ := ih (fun d hd => h d (List.mem_cons_of_mem _ hd)) (lineBehind c line)
          refine ⟨faulty, ?_⟩
          rw [templateText, hfaulty]
          · exact hc.1
          · exact fun _ heq _ => hc.2.1 heq
          · exact fun _ _ heq _ => hc.2.2 heq

/-- The signs of templates are written as they are. -/
theorem escape_char_mark (c : Char) : escapeChar c = [c] ∨
    ∃ behind, escapeChar c = '\\' :: behind ∧ '\x60' ∉ behind ∧ '$' ∉ behind := by
  unfold escapeChar
  split
  case h_8 => exact .inl rfl
  all_goals exact .inr ⟨_, rfl, by decide, by decide⟩

theorem tick_of_escape {text : List Char} (h : '\x60' ∈ escapeText text) : '\x60' ∈ text := by
  obtain ⟨c, hc, htick⟩ := List.mem_flatMap.mp h
  rcases escape_char_mark c with hsame | ⟨behind, hescape, hno, -⟩
  · rw [hsame, List.mem_singleton] at htick
    exact htick ▸ hc
  · rw [hescape, List.mem_cons] at htick
    exact absurd (htick.resolve_left (by decide)) hno

/-- The induction is on the text. -/
theorem opening_of_escape {text ending : List Char} (hending : ending ∈ literalEndings)
    (h : "$\x7b".toList <:+: escapeText text ++ '\'' :: ending) : "$\x7b".toList <:+: text := by
  induction text with
  | nil =>
      have hno : ∀ ending ∈ literalEndings, ¬ "$\x7b".toList <:+: '\'' :: ending := by decide
      exact absurd h (hno ending hending)
  | cons c text ih =>
      rw [escapeText, List.flatMap_cons, List.append_assoc] at h
      rcases escape_char_mark c with hsame | ⟨behind, hescape, -, hdollar⟩
      · rw [hsame] at h
        rcases List.infix_cons_iff.mp h with hhere | hbehind
        · obtain ⟨hc, hbrace⟩ := List.cons_prefix_cons.mp hhere
          cases text with
          | nil => exact absurd (List.cons_prefix_cons.mp hbrace).1 (by decide)
          | cons d text =>
              rw [List.flatMap_cons, List.append_assoc] at hbrace
              rcases escape_char_mark d with hsame | ⟨_, hescape, -⟩
              · rw [hsame] at hbrace
                obtain ⟨hd, -⟩ := List.cons_prefix_cons.mp hbrace
                exact ⟨[], text, by rw [← hc, ← hd]; rfl⟩
              · rw [hescape] at hbrace
                exact absurd (List.cons_prefix_cons.mp hbrace).1 (by decide)
        · exact (ih hbehind).trans (List.suffix_cons c text).isInfix
      · rw [hescape] at h
        have hno : '$' ∉ '\\' :: behind := List.not_mem_cons_of_ne_of_not_mem (by decide) hdollar
        exact (ih (infix_of_not_mem hno h)).trans (List.suffix_cons c text).isInfix

/-- Where templates are met, a line in which one ends is code. -/
theorem Front.tame_of_mark (h : Front ticks text) (hticks : ticks)
    (hmark : '\x60' ∈ text ∨ "$\x7b".toList <:+: text) : IsTame text := by
  cases h with
  | code _ htame _ => exact htame
  | @literal front text ending _ hquiet hending htext =>
      rcases htext hticks with ⟨htick, hopening⟩ | htame
      · have hendings : ∀ ending ∈ literalEndings, '\x60' ∉ ending := by decide
        have hno : '\x60' ∉ front := not_mem_quiet rfl hquiet
        have hdollar : '$' ∉ front ++ ['\''] := by
          rw [List.mem_append, not_or]
          exact ⟨not_mem_quiet rfl hquiet, by decide⟩
        rcases hmark with hmark | hmark
        · have hmem : '\x60' ∈ escapeText text := by
            simpa [hno, hendings ending hending] using hmark
          exact absurd (tick_of_escape hmem) htick
        · rw [← List.singleton_append, ← List.append_assoc] at hmark
          exact absurd (opening_of_escape hending (infix_of_not_mem hdollar hmark)) hopening
      · have hendings : ∀ ending ∈ literalEndings, ('\'' :: ending).all isQuietChar = true := by
          decide
        have hopened : (front ++ ['\'']).all isQuietChar = true := by
          rw [List.all_append, hquiet]
          rfl
        have hwhole := tame_within htame hopened (hendings ending hending)
        simpa using hwhole

/-- In a line none ends at once. -/
theorem head_of_closed (h : Closed text) (behind : List Char) :
    (text ++ behind).head? ≠ some '\n' := by
  obtain ⟨c, text, rfl⟩ := List.exists_cons_of_ne_nil h.ne_nil
  intro hhead
  have hc := h.inline c List.mem_cons_self
  rw [Option.some.inj hhead] at hc
  exact absurd hc (by decide)

/-- The text of a template ends at the same place with and without line breaks. -/
theorem Broken.template (h : Broken ticks left right) (hticks : ticks) {bound bound' : Nat}
    {fault fault' : Option Nat} {line' : Nat} {read : TemplateText} (hbound : left.length < bound)
    (hbound' : right.length < bound') (hfault : fault.isSome = fault'.isSome)
    (hread : templateText bound left line fault = .ok read) :
    ∃ other, templateText bound' right line' fault' = .ok other ∧ read.opens = other.opens ∧
      read.fault.isSome = other.fault.isSome ∧ Broken ticks read.after.rest other.after.rest ∧
      read.after.rest.head? ≠ some '\n' := by
  induction h generalizing bound bound' line line' fault fault' with
  | ending hmem =>
      have hplain : ∀ pair ∈ endings, ∀ c ∈ pair.1, c ∉ ['\x60', '$', '\\'] := by decide
      obtain ⟨faulty, hfaulty⟩ := template_text_error (hplain _ hmem) bound line fault
      exact nomatch hfaulty.symm.trans hread
  | @line text left right htext hlink hmarkup h ih =>
      obtain ⟨faulty, hwithin⟩ := template_within (htext.imp_right Front.closed)
      cases hwithin with
      | passes hpass =>
          obtain ⟨bound₁, fault₁, hread₁, hbound₁, hsome₁⟩ := hpass _ bound line fault hbound
          obtain ⟨bound₂, fault₂, hread₂, hbound₂, hsome₂⟩ := hpass right bound' line' fault' hbound'
          obtain ⟨bound₁, rfl⟩ := Nat.exists_eq_add_of_lt hbound₁
          have hsome : fault₁.isSome = fault₂.isSome := by rw [hsome₁, hsome₂, hfault]
          have hbreak : templateText (('\n' :: left).length + bound₁) left (line + 1) fault₁ =
              .ok read := hread₁.symm.trans hread
          rw [hread₂]
          refine ih ?_ hbound₂ hsome hbreak
          rw [List.length_cons]
          omega
      | stops opens rest hrest hsuffix hsign hstop =>
          obtain ⟨fault₁, hread₁, hsome₁⟩ := hstop _ bound line fault hbound
          obtain ⟨fault₂, hread₂, hsome₂⟩ := hstop right bound' line' fault' hbound'
          rw [hread₁] at hread
          obtain rfl := Except.ok.inj hread
          have hfront : Front ticks text := htext.resolve_left fun hnil =>
            hrest.ne_nil (List.suffix_nil.mp (hnil ▸ hsuffix))
          have htame := hfront.tame_of_mark hticks hsign
          have hcode : Front ticks rest := .code hrest (htame.of_suffix hsuffix) fun _ => hticks
          refine ⟨_, hread₂, rfl, ?_, ?_, ?_⟩
          · rw [hsome₁, hsome₂, hfault]
          · exact .line (.inr hcode) (hlink.of_suffix hsuffix) hmarkup h
          · exact head_of_closed hrest _

/-! ## Tokens of the two texts -/

/-- A line that starts with a sign of templates or regular expressions is code. -/
theorem Front.code_of_head {c : Char} (h : Front ticks (c :: text)) (hc : c ∈ ['\x60', '/']) :
    IsTame (c :: text) ∧ ('\x60' ∈ c :: text → ticks) := by
  generalize htext : c :: text = line at h
  cases h with
  | code _ htame htick => exact ⟨htame, htick⟩
  | @literal front text ending _ hquiet _ _ =>
      cases front with
      | nil =>
          obtain ⟨rfl, -⟩ := List.cons.inj htext
          exact absurd hc (by decide)
      | cons d front =>
          obtain ⟨rfl, -⟩ := List.cons.inj htext
          obtain ⟨-, htick, -, hslash⟩ := of_quiet_char (List.all_eq_true.mp hquiet c List.mem_cons_self)
          simp [htick, hslash] at hc

/-- A sign that is read in a line stands at its front. -/
theorem exists_cons_of_token_sign {c : Char} {sign : String} {after : Place} (h : Closed text)
    (hsign : sign.toList.head? = some c)
    (hread : tokenAt (text ++ behind) line = .ok (.sign sign, after)) :
    ∃ others, text = c :: others := by
  obtain ⟨others, hothers⟩ := List.head?_eq_some_iff.mp hsign
  have hprefix := prefix_of_token_sign hread
  obtain ⟨d, text, rfl⟩ := List.exists_cons_of_ne_nil h.ne_nil
  rw [hothers] at hprefix
  exact ⟨text, by rw [(List.cons_prefix_cons.mp hprefix).1]⟩

/-- A token at the front of a line is the same one without the line breaks behind it. -/
theorem Broken.token (h : Broken ticks left right) (hfront : Front ticks text)
    (hlink : Links text right) (hmarkup : startsMarkup left = false) (newline : Bool)
    {token : Token} {after : Place}
    (hread : tokenAt (text ++ '\n' :: left) line = .ok (token, after)) (line' : Nat) :
    ∃ after', tokenAt (text ++ right) line' = .ok (token, after') ∧
      Lexeme.Twin (Places ticks) ticks ⟨token, ⟨text ++ '\n' :: left, line⟩, newline, after⟩
        ⟨token, ⟨text ++ right, line'⟩, false, after'⟩ := by
  have hclosed := hfront.closed
  obtain ⟨rest, hrest, hsuffix, hends, rfl, hall⟩ := hfront.token hlink hread
  -- what is left of the line goes on as the line did
  have hafter : Broken ticks (rest ++ '\n' :: left) (rest ++ right) :=
    .line hrest (hlink.of_suffix hsuffix) hmarkup h
  refine ⟨⟨rest ++ right, line'⟩, hall line', rfl, ⟨hafter, fun hsettled => ?_⟩, ?tick, ?regex,
    fun hticks read htext => ?_⟩
  · have hne : rest ≠ [] := fun hnil => Bool.false_ne_true ((hends hnil).symm.trans hsettled)
    exact .inl (head_of_closed (hrest.resolve_left hne).closed _)
  case tick =>
    rintro (rfl : token = _)
    obtain ⟨others, rfl⟩ := exists_cons_of_token_sign hclosed (c := '\x60') rfl hread
    exact (hfront.code_of_head (by decide)).2 List.mem_cons_self
  case regex =>
    rintro (htoken : token = _ ∨ token = _) place hplace
    obtain ⟨others, rfl⟩ : ∃ others, text = '/' :: others := by
      rcases htoken with rfl | rfl
      · exact exists_cons_of_token_sign hclosed rfl hread
      · exact exists_cons_of_token_sign hclosed rfl hread
    obtain ⟨rest, hrest, hsuffix, rfl, hother⟩ := regex_within hclosed (by decide) hplace
    obtain ⟨htame, htick⟩ := hfront.code_of_head (by decide)
    have hlonger := hsuffix.trans (List.suffix_cons '/' others)
    have hcode : Front ticks rest := .code hrest (htame.of_suffix hlonger) fun hmem =>
      htick (hlonger.subset hmem)
    refine ⟨_, hother right line', .line (.inr hcode) (hlink.of_suffix hlonger) hmarkup h,
      fun _ => .inl (head_of_closed hrest _)⟩
  · obtain ⟨other, hother, hopens, hfault, hbroken, hhead⟩ :=
      hafter.template hticks (Nat.lt_succ_self _) (Nat.lt_succ_self _) rfl htext
    exact ⟨other, hother, hopens, hfault, hbroken, fun _ => .inl hhead⟩

/-- At the end of a function the same tokens are read. -/
theorem twin_ending (h : (left, right) ∈ endings) (hread : lexFrom left line newline = .ok lexeme)
    (line' : Nat) : ∃ other, lexFrom right line' false = .ok other ∧
      lexeme.Twin (Places ticks) ticks other ∧ (newline = false → lexeme.Settled other) := by
  obtain ⟨found, other, hfound, hother, htoken, hafter, hsigns, hsettled⟩ :=
    lex_ending h newline line line'
  obtain rfl := Except.ok.inj (hfound.symm.trans hread)
  refine ⟨other, hother, ⟨htoken, ⟨.ending hafter, fun _ => .inr hafter⟩, fun hsign => ?_,
    fun hsign => ?_, fun _ read hread => ?_⟩, hsettled⟩
  · exact absurd hsign (hsigns _ (by decide))
  · rcases hsign with hsign | hsign <;> exact absurd hsign (hsigns _ (by decide))
  · have hplain : ∀ pair ∈ endings, ∀ c ∈ pair.1, c ∉ ['\x60', '$', '\\'] := by decide
    obtain ⟨faulty, hfaulty⟩ := template_text_error (hplain _ hafter) _ _ _
    exact nomatch hfaulty.symm.trans hread

/-- Behind what stands between tokens the next one is read. -/
theorem lex_from_of_skip {text : List Char} {start : Place} {flag : Bool}
    (hskip : skipGap .blank text line newline = .ok (start, flag)) :
    lexFrom text line newline = (tokenAt start.rest start.line).map fun (token, after) =>
      ⟨token, start, flag, after⟩ := by
  unfold lexFrom
  rw [hskip]
  show (tokenAt start.rest start.line >>= _ : Except Nat _) = _
  cases tokenAt start.rest start.line <;> rfl

/-- The next token is the same with and without line breaks. The induction is on the lines that are
passed over. -/
theorem Broken.lex_from (h : Broken ticks left right)
    (hmarkup : newline = true → startsMarkup left = false)
    (hread : lexFrom left line newline = .ok lexeme) (line' : Nat) :
    ∃ other, lexFrom right line' false = .ok other ∧ lexeme.Twin (Places ticks) ticks other ∧
      (newline = false → left.head? ≠ some '\n' → lexeme.Settled other) := by
  induction h generalizing line newline with
  | ending hmem =>
      obtain ⟨other, hother, htwin, hsettled⟩ := twin_ending hmem hread line'
      exact ⟨other, hother, htwin, fun hfalse _ => hsettled hfalse⟩
  | @line text left right htext hlink hmarkup' h ih =>
      rcases htext with rfl | hfront
      · obtain ⟨other, hother, htwin, -⟩ := ih (fun _ => hmarkup') hread
        exact ⟨other, hother, htwin, fun _ hhead => absurd rfl hhead⟩
      · obtain ⟨rest, hrest, hsuffix, hskip⟩ := hfront.gap
        have hclosing : ¬(newline = true ∧ "-->".toList <+: rest) := by
          rintro ⟨htrue, hprefix⟩
          have hno := hmarkup htrue
          unfold startsMarkup at hno
          rw [hskip _ _ _ (by simp)] at hno
          have hinside := hprefix.trans (List.prefix_append rest ('\n' :: left))
          exact Bool.false_ne_true (hno.symm.trans (List.isPrefixOf_iff_prefix.mpr hinside))
        rw [lex_from_of_skip (hskip _ _ _ hclosing)] at hread
        obtain ⟨⟨token, after⟩, htoken, rfl⟩ := except_map_ok_iff.mp hread
        obtain ⟨after', htoken', htwin⟩ :=
          h.token hrest (hlink.of_suffix hsuffix) hmarkup' newline htoken line'
        refine ⟨_, ?_, htwin, fun hfalse _ => .inl hfalse⟩
        rw [lex_from_of_skip (hskip right line' false (by simp)), htoken']
        rfl

/-- A function with and without its line breaks. -/
def linePairing (ticks : Prop) : Pairing where
  places := Places ticks
  ticks := ticks
  same_token := by
    intro settled first second lexeme hplaces hlex
    have hread : lexFrom first.rest first.line false = .ok lexeme := hlex
    by_cases hending : (first.rest, second.rest) ∈ endings
    · obtain ⟨other, hother, htwin, hsettled⟩ := twin_ending hending hread second.line
      exact ⟨other, hother, htwin, fun _ => hsettled rfl⟩
    · obtain ⟨other, hother, htwin, hsettled⟩ :=
        hplaces.broken.lex_from (absurd · Bool.false_ne_true) hread second.line
      exact ⟨other, hother, htwin, fun hsame =>
        hsettled rfl ((hplaces.same_line hsame).resolve_right hending)⟩

end TemplateBundle.Template

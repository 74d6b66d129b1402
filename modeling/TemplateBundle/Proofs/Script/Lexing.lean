import TemplateBundle.Proofs.Script.Reading

/-!
# Reading tokens

What texts are read as which tokens. `Spells` has a rule for each kind of token and for what stands
between them, so that a text is followed from left to right.
-/

namespace TemplateBundle.Script

/-- The token that comes next in a text. A line has ended before the text if `newline` is set. -/
def lexFrom (text : List Char) (line : Nat) (newline : Bool) : Scan Lexeme := do
  let (start, newline) ← skipGap .blank text line newline
  let (token, after) ← tokenAt start.rest start.line
  return { token := token, start := start, newline := newline, after := after }

/-- The text is read as these tokens, on whatever line it starts. Where a line has ended before it,
nothing is said on the line of the first token. -/
def Spells (text : List Char) (tokens : List Shown) : Prop :=
  ∀ line newline, ∃ lexeme, lexFrom text line newline = .ok lexeme ∧
    (newline = false → lexeme.Shows tokens) ∧
    ∀ first others, tokens = first :: others → first.sameLine = false → lexeme.Shows tokens

variable {text rest : List Char} {tokens : List Shown} {shown : Shown} {line : Nat} {newline : Bool}

theorem Spells.lex (h : Spells text tokens) (line : Nat) :
    ∃ lexeme, lex ⟨text, line⟩ = .ok lexeme ∧ lexeme.Shows tokens := by
  obtain ⟨lexeme, hlex, hshows, -⟩ := h line false
  exact ⟨lexeme, hlex, hshows rfl⟩

/-! ## Between tokens -/

theorem spells_blank (h : Spells rest tokens) : Spells (' ' :: rest) tokens :=
  h

/-- The token behind the end of a line is not known to stand on the line of the one before. -/
theorem spells_line_end (hline : shown.sameLine = false) (h : Spells rest (shown :: tokens)) :
    Spells ('\n' :: rest) (shown :: tokens) := by
  intro line newline
  obtain ⟨lexeme, hlex, -, hshows⟩ := h (line + 1) true
  have hlexeme := hshows shown tokens rfl hline
  exact ⟨lexeme, hlex, fun _ => hlexeme, fun _ _ _ _ => hlexeme⟩

/-- A line may end in front of the text. -/
theorem spells_gap {gap : List Char} (hgap : gap = [] ∨ gap = ['\n'])
    (hline : shown.sameLine = false) (h : Spells rest (shown :: tokens)) :
    Spells (gap ++ rest) (shown :: tokens) := by
  rcases hgap with rfl | rfl
  · exact h
  · exact spells_line_end hline h

/-- The character starts a token, wherever it stands. -/
def startsToken (c : Char) : Bool :=
  !isLineEnd c && !isBlank c && !(['/', '<', '-'].contains c)

theorem skip_gap_token {c : Char} (hc : startsToken c = true) :
    skipGap .blank (c :: rest) line newline = .ok (⟨c :: rest, line⟩, newline) := by
  unfold startsToken at hc
  simp only [Bool.and_eq_true, Bool.not_eq_true', List.contains_cons, Bool.or_eq_false_iff,
    List.contains_nil, beq_eq_false_iff_ne, and_true] at hc
  obtain ⟨⟨hend, hblank⟩, hslash, hless, hminus⟩ := hc
  have hcomment : ['-', '-', '>'].isPrefixOf (c :: rest) = false := by
    show ('-' == c && _) = false
    rw [beq_eq_false_iff_ne.mpr hminus.symm, Bool.false_and]
  rw [skipGap]
  · rw [hend, hblank, hcomment, Bool.and_false]
    rfl
  · exact fun _ heq _ => hslash heq
  · exact fun _ heq _ => hslash heq
  · exact fun _ heq _ => hless heq

/-- A token at the front of the text. -/
theorem spells_token {c : Char} {after : List Char} (hc : startsToken c = true)
    (hopen : shown.behind = none)
    (htoken : ∀ line, tokenAt (c :: text) line = .ok (shown.token, ⟨after, line⟩))
    (hafter : Spells after tokens) : Spells (c :: text) (shown :: tokens) := by
  intro line newline
  obtain ⟨behind, hlex, hshows⟩ := hafter.lex line
  have hfrom : lexFrom (c :: text) line newline =
      .ok ⟨shown.token, ⟨c :: text, line⟩, newline, ⟨after, line⟩⟩ := by
    unfold lexFrom
    rw [skip_gap_token hc]
    show (tokenAt (c :: text) line >>= _ : Except Nat _) = _
    rw [htoken line]
    rfl
  have hothers : shown.behind.elim (∃ next, lex ⟨after, line⟩ = .ok next ∧ next.Shows tokens)
      (after = ·) := by
    rw [hopen]
    exact ⟨behind, hlex, hshows⟩
  refine ⟨_, hfrom, fun hnewline => ⟨rfl, fun _ => hnewline, hothers⟩, ?_⟩
  rintro _ _ ⟨⟩ hline
  refine ⟨rfl, fun hsame => ?_, hothers⟩
  exact absurd hsame (by rw [hline]; exact Bool.false_ne_true)

/-- The script ends. -/
theorem spells_stop : Spells [] [.stop] := by
  have hstop (line : Nat) (newline : Bool) :
      lexFrom [] line newline = .ok ⟨.stop, ⟨[], line⟩, newline, ⟨[], line⟩⟩ := rfl
  intro line newline
  exact ⟨_, hstop line newline, fun _ => ⟨rfl, nofun, _, hstop line false, trivial⟩,
    fun _ _ _ _ => ⟨rfl, nofun, _, hstop line false, trivial⟩⟩

/-! ## Words -/

/-- The character starts a word without letters outside ASCII. -/
def isWordStart (c : Char) : Bool :=
  c.isAlpha || c == '_' || c == '$'

/-- The character goes on with such a word. -/
def isWordPart (c : Char) : Bool :=
  isWordStart c || c.isDigit

/-- The text is such a word. -/
def isWord : List Char → Bool
  | [] => false
  | c :: others => isWordStart c && others.all isWordPart

theorem part_of_word_start {c : Char} (hc : isWordStart c = true) : isWordPart c = true := by
  unfold isWordPart
  rw [hc, Bool.true_or]

theorem parts_of_word {word : List Char} (hword : isWord word = true) :
    word.all isWordPart = true := by
  cases word with
  | nil => exact absurd hword Bool.false_ne_true
  | cons c others =>
      obtain ⟨hc, hothers⟩ := Bool.and_eq_true_iff.mp hword
      rw [List.all_cons, part_of_word_start hc, hothers, Bool.true_and]

/-- A word that ends in front of the text is complete. -/
def endsWord : List Char → Bool
  | [] => true
  | c :: _ => !continuesName c && c != '\\'

theorem ne_of_word_part {c other : Char} (hc : isWordPart c = true)
    (hother : isWordPart other = false) : c ≠ other := by
  rintro rfl
  exact Bool.false_ne_true (hother.symm.trans hc)

theorem continues_of_word_part {c : Char} (hc : isWordPart c = true) : continuesName c = true := by
  unfold isWordPart isWordStart at hc
  simp only [Bool.or_eq_true] at hc
  unfold continuesName Char.isAlphanum
  rcases hc with ((halpha | hline) | hdollar) | hdigit
  · simp [halpha]
  · simp [hline]
  · simp [hdollar]
  · simp [hdigit]

theorem starts_of_word_start {c : Char} (hc : isWordStart c = true) : startsName c = true := by
  unfold isWordStart at hc
  unfold startsName
  rw [hc, Bool.true_or]

/-- A character that is no backslash and fits goes on with the name. -/
theorem name_from_next {c : Char} (hescape : c ≠ '\\') (first : Bool)
    (hc : (if first then startsName c else continuesName c) = true) (bound : Nat)
    (name : List Char) :
    nameFrom (bound + 1) first false name (c :: rest) =
      nameFrom bound false false (c :: name) rest := by
  rw [nameFrom]
  · simp only [hc, if_true]
  · exact fun _ heq _ => hescape heq
  · exact hescape

/-- The induction is on the rest of the word. -/
theorem name_from_word {word : List Char} (hword : word.all isWordPart = true)
    (hrest : endsWord rest = true) {bound : Nat} (hbound : word.length < bound) (name : List Char) :
    nameFrom bound false false name (word ++ rest) = some (name.reverse ++ word, false, rest) := by
  obtain ⟨fewer, rfl⟩ := Nat.exists_eq_add_of_lt hbound
  induction word generalizing name with
  | nil =>
      rw [List.append_nil, List.nil_append]
      cases rest with
      | nil => rfl
      | cons c rest =>
          unfold endsWord at hrest
          rw [Bool.and_eq_true, Bool.not_eq_true', bne_iff_ne] at hrest
          obtain ⟨hcontinues, hescape⟩ := hrest
          rw [nameFrom]
          · simp only [Bool.false_eq_true, if_false, hcontinues]
          · exact fun _ heq _ => hescape heq
          · exact hescape
  | cons c word ih =>
      rw [List.all_cons, Bool.and_eq_true] at hword
      obtain ⟨hc, hword⟩ := hword
      have hshorter : (c :: word).length + fewer + 1 = word.length + fewer + 1 + 1 := by
        rw [List.length_cons]
        omega
      rw [List.cons_append, hshorter, name_from_next (ne_of_word_part hc (by decide)) false
        (continues_of_word_part hc), ih hword _ (by omega), List.reverse_cons, List.append_assoc]
      rfl

theorem name_of_word {word : List Char} (hword : isWord word = true)
    (hrest : endsWord rest = true) : name? (word ++ rest) = some (word, false, rest) := by
  cases word with
  | nil => exact absurd hword Bool.false_ne_true
  | cons c word =>
      unfold isWord at hword
      rw [Bool.and_eq_true] at hword
      obtain ⟨hstart, hword⟩ := hword
      have hpart := part_of_word_start hstart
      have hlength : word.length < (c :: (word ++ rest)).length := by
        rw [List.length_cons, List.length_append]
        omega
      unfold name?
      rw [List.cons_append, name_from_next (ne_of_word_part hpart (by decide)) true
        (starts_of_word_start hstart), name_from_word hword hrest hlength]
      rfl

theorem range_of_word_start {c : Char} (hc : isWordStart c = true) :
    c.toNat = 36 ∨ 65 ≤ c.toNat ∧ c.toNat < 0x80 := by
  unfold isWordStart at hc
  simp only [Bool.or_eq_true, beq_iff_eq] at hc
  rcases hc with (halpha | rfl) | rfl
  · have hbounds : (65 ≤ c.toNat ∧ c.toNat ≤ 90) ∨ (97 ≤ c.toNat ∧ c.toNat ≤ 122) := by
      rcases Bool.or_eq_true_iff.mp halpha with hupper | hlower
      · exact .inl (of_decide_eq_true hupper)
      · obtain ⟨hleast, hmost⟩ := Bool.and_eq_true_iff.mp hlower
        exact .inr ⟨of_decide_eq_true hleast, of_decide_eq_true hmost⟩
    omega
  · exact .inr (by decide)
  · exact .inl rfl

theorem not_digit_of_word_start {c : Char} (hc : isWordStart c = true) : c.isDigit = false := by
  have hrange := range_of_word_start hc
  have hdigits : '0'.val.toNat = 48 ∧ '9'.val.toNat = 57 := ⟨rfl, rfl⟩
  have hcode : c.toNat = c.val.toNat := rfl
  unfold Char.isDigit
  simp only [Bool.and_eq_false_iff, decide_eq_false_iff_not, ge_iff_le, UInt32.le_iff_toNat_le]
  omega

theorem token_of_word_start {c : Char} (hc : isWordStart c = true) : startsToken c = true := by
  have hrange := range_of_word_start hc
  have hne {other : Char} (hother : isWordStart other = false) : c ≠ other := by
    rintro rfl
    exact Bool.false_ne_true (hother.symm.trans hc)
  unfold startsToken isLineEnd isBlank
  simp only [Bool.and_eq_true, Bool.not_eq_true', Bool.or_eq_false_iff, beq_eq_false_iff_ne,
    List.contains_cons, List.contains_nil, Bool.and_eq_false_iff, decide_eq_false_iff_not]
  and_intros
  all_goals first
    | exact hne (by decide)
    | exact .inl (by omega)
    | trivial

/-- A word in front of something that ends it is one token. -/
theorem token_at_word (word : String) (hword : isWord word.toList = true)
    (hrest : endsWord rest = true) (line : Nat) :
    tokenAt (word.toList ++ rest) line = .ok (.name word false, ⟨rest, line⟩) := by
  have hname := name_of_word hword hrest
  cases htext : word.toList with
  | nil =>
      rw [htext] at hword
      exact absurd hword Bool.false_ne_true
  | cons c text =>
      rw [htext] at hword hname
      unfold isWord at hword
      rw [Bool.and_eq_true] at hword
      have hne {other : Char} (hother : isWordStart other = false) : c ≠ other := by
        rintro rfl
        exact Bool.false_ne_true (hother.symm.trans hword.1)
      unfold tokenAt
      rw [hname, List.cons_append]
      have hquotes : ¬(c = '"' ∨ c = '\'') := not_or.mpr ⟨hne (by decide), hne (by decide)⟩
      have hnumber : ¬(c.isDigit = true ∨ c = '.' ∧ (text ++ rest).head?.any Char.isDigit = true) :=
        not_or.mpr ⟨Bool.eq_false_iff.mp (not_digit_of_word_start hword.1),
          fun hdot => hne (by decide) hdot.1⟩
      have hhidden : c ≠ '#' := hne (by decide)
      simp only [hquotes, hnumber, hhidden, if_false, starts_of_word_start hword.1, true_or,
        if_true]
      rw [← htext, String.ofList_toList]

theorem spells_word_as (word : String) (hshown : shown.token = .name word false)
    (hopen : shown.behind = none) (hword : isWord word.toList = true)
    (hrest : endsWord rest = true) (h : Spells rest tokens) :
    Spells (word.toList ++ rest) (shown :: tokens) := by
  have htoken (line : Nat) : tokenAt (word.toList ++ rest) line =
      .ok (shown.token, ⟨rest, line⟩) := hshown ▸ token_at_word word hword hrest line
  cases htext : word.toList with
  | nil =>
      rw [htext] at hword
      exact absurd hword Bool.false_ne_true
  | cons c text =>
      rw [htext] at hword htoken
      unfold isWord at hword
      rw [Bool.and_eq_true] at hword
      exact spells_token (token_of_word_start hword.1) hopen htoken h

theorem spells_word (word : String) (hword : isWord word.toList = true)
    (hrest : endsWord rest = true) (h : Spells rest tokens) :
    Spells (word.toList ++ rest) (.word word :: tokens) :=
  spells_word_as word rfl rfl hword hrest h

/-! ## Signs -/

/-- The character starts a sign in front of the text: no name, number or string, and no name behind
a number sign. -/
def startsSign (c : Char) (text : List Char) : Bool :=
  startsToken c && !(startsName c || c.isDigit || ['"', '\'', '#', '\\'].contains c ||
    (c == '.' && text.head?.any Char.isDigit))

theorem token_at_sign {sign : String} {c : Char} (hc : startsSign c text = true)
    (hsign : sign? (c :: text) = some (sign, rest)) (line : Nat) :
    tokenAt (c :: text) line = .ok (.sign sign, ⟨rest, line⟩) := by
  unfold startsSign at hc
  simp only [Bool.and_eq_true, Bool.not_eq_true', Bool.or_eq_false_iff, List.contains_cons,
    List.contains_nil, beq_eq_false_iff_ne, ne_eq] at hc
  obtain ⟨-, ⟨⟨hname, hdigit⟩, hdouble, hsingle, hhidden, hescape, -⟩, hdot⟩ := hc
  have hnumber : ¬(c = '.' ∧ text.head?.any Char.isDigit = true) := by
    rintro ⟨rfl, hhead⟩
    rw [hhead] at hdot
    exact absurd hdot (by decide)
  unfold tokenAt
  simp only [hname, hdigit, hdouble, hsingle, hhidden, hescape, hnumber, hsign, or_self,
    Bool.false_eq_true, if_false]

theorem token_of_starts_sign {c : Char} (hc : startsSign c text = true) : startsToken c = true := by
  unfold startsSign at hc
  exact (Bool.and_eq_true_iff.mp hc).1

theorem spells_sign (sign : String) {c : Char} (hc : startsSign c text = true)
    (hsign : sign? (c :: text) = some (sign, rest)) (h : Spells rest tokens) :
    Spells (c :: text) (Shown.sign sign :: tokens) :=
  spells_token (token_of_starts_sign hc) rfl (token_at_sign hc hsign) h

theorem lex_from_sign {sign : String} {c : Char} (hc : startsSign c text = true)
    (hsign : sign? (c :: text) = some (sign, rest)) (line : Nat) (newline : Bool) :
    lexFrom (c :: text) line newline =
      .ok ⟨.sign sign, ⟨c :: text, line⟩, newline, ⟨rest, line⟩⟩ := by
  unfold lexFrom
  rw [skip_gap_token (token_of_starts_sign hc)]
  show (tokenAt (c :: text) line >>= _ : Except Nat _) = _
  rw [token_at_sign hc hsign line]
  rfl

/-- Nothing is said on the sign that comes next, nor on what stands behind it. -/
theorem spells_before_sign {sign : String} {c : Char} (hc : startsSign c text = true)
    (hsign : sign? (c :: text) = some (sign, rest)) : Spells (c :: text) [] :=
  fun line newline => ⟨_, lex_from_sign hc hsign line newline, fun _ => trivial, nofun⟩

/-- A closing brace, of which it is only said what text stands behind it. -/
theorem spells_closing (rest : List Char) : Spells ('\x7d' :: rest) [.closing rest] := by
  intro line newline
  have hsign : sign? ('\x7d' :: rest) = some ("\x7d", rest) := rfl
  exact ⟨_, lex_from_sign rfl hsign line newline, fun _ => ⟨rfl, nofun, rfl⟩,
    fun _ _ _ _ => ⟨rfl, nofun, rfl⟩⟩

end TemplateBundle.Script

import TemplateBundle.Proofs.Yaml.BlockScalars
import TemplateBundle.Proofs.Yaml.Lookahead
import TemplateBundle.Proofs.Yaml.QuotedScalars

/-!
# Scanning blocks

What a scanner does between the parts of a block, outside brackets: it passes over spaces and line
ends, opens a block at a key that stands further to the right, closes blocks at a token that stands
further to the left, and reads items, keys and scalars.
-/

namespace TemplateBundle.Yaml.Scanner

open Printer

/-- A scanner outside brackets that has taken no token. A key may have started before its place. -/
def blockScanner (key : Option PossibleKey) (indent : Int) (outer : List Int) (allowed : Bool)
    (tokens : List Token) (place : Place) : Scanner where
  place := place
  depth := 0
  indent := indent
  outer := outer
  keyAllowed := allowed
  keys := [key]
  tokens := tokens
  taken := 0
  ended := false

variable {key : Option PossibleKey} {indent : Int} {outer : List Int} {allowed inFlow : Bool}
  {tokens : List Token} {rest text tail : List Char} {mark : Mark} {place : Place} {c : Char}
  {all : List Token} {s : Scanner}

/-- While no token was taken, every key is late enough. -/
theorem block_scanner_sound : (blockScanner key indent outer allowed tokens place).Sound :=
  fun _ _ => Nat.zero_le _

/-! ## Gaps -/

theorem skip_gap_space :
    skipGap inFlow false (' ' :: rest) mark allowed = skipGap inFlow false rest mark.next allowed := by
  rw [skipGap]
  · simp [isBreak]
  · exact fun _ heq => absurd heq (by decide)

theorem skip_gap_line_end :
    skipGap false false ('\n' :: rest) mark allowed =
      skipGap false false rest (mark.nextLine 1) true := by
  rw [skipGap]
  · simp [isBreak]
  · exact fun _ heq => absurd heq (by decide)

theorem skip_gap_token (h : StartsToken rest) :
    skipGap inFlow false rest mark allowed = (⟨rest, mark⟩, allowed) := by
  cases rest with
  | nil => rfl
  | cons c rest =>
      obtain ⟨hblank, hbreak, hcomment, horder⟩ := h c rfl
      have hspaces : c ≠ ' ' ∧ c ≠ '\t' := by simpa [isBlank] using hblank
      rw [skipGap]
      · simp [hbreak, hspaces, hcomment, horder]
      · exact fun _ heq _ => ne_return_of_not_break hbreak heq

theorem skip_gap_indentation (count : Nat) (mark : Mark) :
    skipGap inFlow false (indentation count ++ rest) mark allowed =
      skipGap inFlow false rest (mark.forward count) allowed := by
  induction count generalizing mark with
  | zero => rfl
  | succ count ih =>
      rw [indentation, List.replicate_succ, List.cons_append, ← indentation, skip_gap_space, ih,
        Mark.next_forward]

/-- Reading on behind a gap, with what is left there of a key that may have started before it. -/
theorem fetch_behind_gap {rest' : List Char} {later : Mark} {flag : Bool}
    {left : Option PossibleKey}
    (hgap : skipGap false false place.rest place.mark allowed = (⟨rest', later⟩, flag))
    (hkey : freshKey? later key = some left) :
    (blockScanner key indent outer allowed tokens place).fetch =
      ((blockScanner left indent outer flag tokens ⟨rest', later⟩).closeTo
        later.column).fetchToken := by
  have hpassed : (blockScanner key indent outer allowed tokens place).passGap =
      blockScanner key indent outer flag tokens ⟨rest', later⟩ := by
    show ({ blockScanner key indent outer allowed tokens place with
      place := (skipGap false false place.rest place.mark allowed).1 } : Scanner).allowKey
        (skipGap false false place.rest place.mark allowed).2 = _
    rw [hgap]
    rfl
  have hleft : [key].mapM (freshKey? later) = some [left] :=
    fresh_keys_cons_iff.mpr ⟨left, hkey, [], rfl, rfl⟩
  have hdropped : (blockScanner key indent outer flag tokens ⟨rest', later⟩).dropStale =
      some (blockScanner left indent outer flag tokens ⟨rest', later⟩) := by
    rw [drop_stale_eq]
    exact congrArg (Option.map _) hleft
  rw [fetch_eq, hpassed, hdropped]
  rfl

/-- Reading on at a token. -/
theorem fetch_at_token (h : StartsToken rest) :
    (blockScanner none indent outer allowed tokens ⟨rest, mark⟩).fetch =
      ((blockScanner none indent outer allowed tokens ⟨rest, mark⟩).closeTo
        mark.column).fetchToken :=
  fetch_behind_gap (skip_gap_token h) rfl

/-- A gap in front of a place changes nothing. -/
theorem feeds_of_gap (gap : List Char) {later : Mark} {flag : Bool}
    (hgap : skipGap false false (gap ++ rest) mark allowed = skipGap false false rest later flag)
    (h : Feeds (blockScanner none indent outer flag tokens ⟨rest, later⟩) all) :
    Feeds (blockScanner none indent outer allowed tokens ⟨gap ++ rest, mark⟩) all := by
  refine h.congr ?_ rfl rfl block_scanner_sound ?_
  · rw [fetch_behind_gap hgap rfl, fetch_behind_gap rfl rfl]
  · show rest.length ≤ (gap ++ rest).length
    rw [List.length_append]
    exact Nat.le_add_left _ _

theorem feeds_of_space
    (h : Feeds (blockScanner none indent outer allowed tokens ⟨rest, mark.next⟩) all) :
    Feeds (blockScanner none indent outer allowed tokens ⟨' ' :: rest, mark⟩) all :=
  feeds_of_gap [' '] skip_gap_space h

/-- On a new line a key may start again. -/
theorem feeds_of_line (count : Nat)
    (h : Feeds (blockScanner none indent outer true tokens
      ⟨rest, (mark.nextLine 1).forward count⟩) all) :
    Feeds (blockScanner none indent outer allowed tokens
      ⟨'\n' :: (indentation count ++ rest), mark⟩) all := by
  refine feeds_of_gap ('\n' :: indentation count) ?_ h
  rw [List.cons_append, skip_gap_line_end, skip_gap_indentation]

/-! ## Closing blocks -/

variable {column : Int}

theorem close_to_of_le (h : indent ≤ column) :
    (blockScanner key indent outer allowed tokens place).closeTo column =
      blockScanner key indent outer allowed tokens place := by
  change closeBlocks column outer _ = _
  cases outer with
  | nil => rfl
  | cons first others =>
      rw [closeBlocks, if_neg]
      exact not_lt.mpr h

theorem close_to_of_lt {around : Int} (h : column < indent) :
    (blockScanner key indent (around :: outer) allowed tokens place).closeTo column =
      (blockScanner key around outer allowed (tokens ++ [.blockEnd]) place).closeTo column := by
  change closeBlocks column (around :: outer) _ = _
  rw [closeBlocks, if_pos]
  · rfl
  · exact h

/-- A block ends at a token that stands further to the left. -/
theorem feeds_of_close {around : Int} (hcolumn : (mark.column : Int) < indent)
    (hrest : StartsToken rest)
    (h : Feeds (blockScanner none around outer allowed (tokens ++ [.blockEnd]) ⟨rest, mark⟩) all) :
    Feeds (blockScanner none indent (around :: outer) allowed tokens ⟨rest, mark⟩) all := by
  refine h.congr ?_ rfl rfl block_scanner_sound (Nat.le_refl _)
  rw [fetch_at_token hrest, fetch_at_token hrest, close_to_of_lt hcolumn]

/-! ## Plain scalars -/

/-- A character that has no other meaning may start a plain scalar. -/
theorem starts_plain (hodd : startsOddly (c :: rest) = false)
    (hcolon : (c == ':' && endsWord rest) = false) (hblank : isBlank c = false) :
    startsPlain false c rest = true := by
  by_cases hsign : c = '-' ∨ c = '?' ∨ c = ':'
  · have hword : endsWord rest = false := by
      apply Bool.eq_false_iff.mpr
      intro hends
      rcases hsign with rfl | rfl | rfl <;> simp [startsOddly, hends] at hodd hcolon
    have hnext : rest.head?.any isBlank = false := by
      cases rest with
      | nil => rfl
      | cons next rest => exact (Bool.or_eq_false_iff.mp hword).1
    rcases hsign with rfl | rfl | rfl <;> simp [startsPlain, hword, hnext]
  · have hindicator : isIndicator c = false := by
      simp only [startsOddly, Bool.or_eq_false_iff, List.contains_eq_mem, List.mem_cons,
        decide_eq_false_iff_not, not_or] at hodd
      simp only [not_or] at hsign
      simp [isIndicator, hodd, hsign]
    simp [startsPlain, hindicator, hblank]

/-- A character that has no other meaning starts a plain scalar. -/
theorem fetch_token_plain (hdepth : s.depth = 0) (hplace : s.place = ⟨c :: rest, mark⟩)
    (hbound : atDocumentBound ⟨c :: rest, mark⟩ = false) (hodd : startsOddly (c :: rest) = false)
    (hcolon : (c == ':' && endsWord rest) = false) (hblank : isBlank c = false) :
    s.fetchToken = s.fetchPlain := by
  have hplain := starts_plain hodd hcolon hblank
  have hitem : ¬ (c = '-' ∧ endsWord rest = true) := by
    rintro ⟨rfl, hends⟩
    simp [startsOddly, hends] at hodd
  have hkey : ¬ (c = '?' ∧ endsWord rest = true) := by
    rintro ⟨rfl, hends⟩
    simp [startsOddly, hends] at hodd
  have hvalue : ¬ (c = ':' ∧ endsWord rest = true) := by
    rintro ⟨rfl, hends⟩
    simp [hends] at hcolon
  simp only [startsOddly, Bool.or_eq_false_iff, List.contains_eq_mem, List.mem_cons,
    decide_eq_false_iff_not, not_or] at hodd
  simp [fetchToken, hplace, hdepth, hbound, hodd, hitem, hkey, hvalue, hplain]

/-- The key that may have started at a mark. -/
def startedKey (indent : Int) (tokens : List Token) (mark : Mark) : PossibleKey where
  required := indent == mark.column
  number := 0 + tokens.length
  mark := mark

/-- The key that may have started at a mark, where that is allowed. -/
def startedKey? (indent : Int) (allowed : Bool) (tokens : List Token) (mark : Mark) :
    Option PossibleKey :=
  if allowed then some (startedKey indent tokens mark) else none

theorem save_key_block :
    (blockScanner none indent outer allowed tokens place).saveKey =
      some (blockScanner (startedKey? indent allowed tokens place.mark) indent outer allowed tokens
        place) := by
  cases allowed <;> rfl

theorem fetch_plain_block {read : ScalarText}
    (h : plainScalar false (indent + 1).toNat place = some read) :
    (blockScanner none indent outer allowed tokens place).fetchPlain =
      some (blockScanner (startedKey? indent allowed tokens place.mark) indent outer read.brokenOff
        (tokens ++ [.scalar (String.ofList read.text) .plain]) read.after) := by
  unfold fetchPlain
  rw [save_key_block]
  show (plainScalar false (indent + 1).toNat place).bind _ = _
  rw [h]
  rfl

theorem fetch_quoted_block {read : ScalarText} (h : quotedScalar place = some read) :
    (blockScanner none indent outer allowed tokens place).fetchQuoted =
      some (blockScanner (startedKey? indent allowed tokens place.mark) indent outer false
        (tokens ++ [.scalar (String.ofList read.text) .quoted]) read.after) := by
  unfold fetchQuoted
  rw [save_key_block]
  show (quotedScalar place).bind _ = _
  rw [h]
  rfl

theorem fetch_literal_block {read : ScalarText} (h : blockScalar true indent place = some read) :
    (blockScanner none indent outer allowed tokens place).fetchBlock true =
      some (blockScanner none indent outer true
        (tokens ++ [.scalar (String.ofList read.text) .literal]) read.after) := by
  unfold fetchBlock
  show (blockScalar true indent place).bind _ = _
  rw [h]
  rfl

/-! ## Keys -/

theorem insert_at_block {others : List Token} (added : Token) :
    (blockScanner key indent outer allowed (tokens ++ others) place).insertAt (0 + tokens.length)
        added =
      blockScanner key indent outer allowed (tokens ++ added :: others) place := by
  simp [insertAt, blockScanner]

theorem fetch_token_value (hdepth : s.depth = 0) (hplace : s.place = ⟨':' :: rest, mark⟩)
    (hrest : endsWord rest = true) : s.fetchToken = s.fetchValue := by
  simp [fetchToken, hplace, hdepth, atDocumentBound, hrest]

/-- The sign for a block that starts at a column, if it lies deeper. -/
def opened (indent : Int) (column : Nat) : List Token :=
  if indent < column then [.blockMappingStart] else []

/-- The indentations around a block that starts at a column, or around the one that goes on there. -/
def outerAt (indent : Int) (outer : List Int) (column : Nat) : List Int :=
  if indent < column then indent :: outer else outer

theorem opened_self (column : Nat) : opened column column = [] :=
  if_neg (Int.lt_irrefl _)

theorem outer_at_self (column : Nat) : outerAt column outer column = outer :=
  if_neg (Int.lt_irrefl _)

/-- A block that starts at a key opens in front of it. -/
theorem open_block_at {others : List Token} (column : Nat) (hcolumn : indent ≤ column) :
    (blockScanner none indent outer allowed (tokens ++ others) place).openBlock column
        (0 + tokens.length) .blockMappingStart =
      blockScanner none column (outerAt indent outer column) allowed
        (tokens ++ (opened indent column ++ others)) place := by
  unfold openBlock outerAt opened
  by_cases hlt : indent < column
  · rw [if_pos hlt, if_pos hlt, if_pos ⟨rfl, hlt⟩, insert_at_block]
    rfl
  · have heq : indent = column := Int.le_antisymm hcolumn (Int.not_lt.mp hlt)
    rw [if_neg hlt, if_neg hlt, if_neg (fun h => hlt h.2), List.nil_append, heq]

/-- A colon makes a key of the scalar before it. -/
theorem fetch_value_block {scalar : Token} {colon : Mark} (hcolumn : indent ≤ mark.column) :
    (blockScanner (some (startedKey indent tokens mark)) indent outer false (tokens ++ [scalar])
        ⟨':' :: rest, colon⟩).fetchValue =
      some (blockScanner none mark.column (outerAt indent outer mark.column) false
        (tokens ++ (opened indent mark.column ++ [.key, scalar, .value])) ⟨rest, colon.next⟩) := by
  have hinsert : ({ (blockScanner (some (startedKey indent tokens mark)) indent outer false
      (tokens ++ [scalar]) ⟨':' :: rest, colon⟩).insertAt (0 + tokens.length) .key with
        keys := [none] } : Scanner) =
      blockScanner none indent outer false (tokens ++ [.key, scalar]) ⟨':' :: rest, colon⟩ := by
    rw [insert_at_block]
    rfl
  unfold fetchValue
  show some (((({ (blockScanner (some (startedKey indent tokens mark)) indent outer false
      (tokens ++ [scalar]) ⟨':' :: rest, colon⟩).insertAt (0 + tokens.length) .key with
        keys := [none] } : Scanner).openBlock mark.column (0 + tokens.length)
          .blockMappingStart).push .value |>.allowKey false).forward 1) = _
  rw [hinsert, open_block_at _ hcolumn]
  simp [blockScanner, push, allowKey, forward, Place.forward, Mark.forward_one]

/-- A character of a word has no other meaning. -/
theorem not_odd_of_word (h : isWordChar c = true) : startsOddly (c :: rest) = false := by
  have hne : ∀ other, isWordChar other = false → c ≠ other := fun other => ne_of_word_char h
  simp only [startsOddly, Bool.or_eq_false_iff, List.contains_eq_mem, List.mem_cons,
    List.not_mem_nil, or_false, decide_eq_false_iff_not, not_or, Bool.and_eq_false_iff,
    beq_eq_false_iff_ne]
  refine ⟨?_, .inl ⟨hne _ rfl, hne _ rfl⟩⟩
  and_intros <;> exact hne _ rfl

theorem starts_token_of_word (h : isWordChar c = true) : StartsToken (c :: rest) :=
  starts_token_cons ⟨not_blank_of_word_char h, not_break_of_word_char h,
    ne_of_word_char h (by decide), ne_of_word_char h (by decide)⟩

theorem not_bound_of_word (h : isWordChar c = true) : atDocumentBound ⟨c :: rest, mark⟩ = false := by
  have hhyphen : '-' ≠ c := (ne_of_word_char h (by decide)).symm
  have hdot : '.' ≠ c := (ne_of_word_char h (by decide)).symm
  simp [atDocumentBound, hhyphen, hdot]

/-- A word and the colon behind it are read as a key. A block opens in front of it if it stands
further to the right. -/
theorem feeds_of_key (htext : IsWord text) (hrest : endsWord rest = true)
    (hcolumn : indent ≤ mark.column)
    (h : Feeds (blockScanner none mark.column (outerAt indent outer mark.column) false
      (tokens ++ (opened indent mark.column ++ [.key, .scalar (String.ofList text) .plain, .value]))
      ⟨rest, (mark.forward text.length).next⟩) all) :
    Feeds (blockScanner none indent outer true tokens ⟨text ++ ':' :: rest, mark⟩) all := by
  have hread : plainScalar false (indent + 1).toNat ⟨text ++ ':' :: rest, mark⟩ = _ :=
    plain_scalar_word htext hrest
  obtain ⟨hne, hlength, hword⟩ := htext
  have hpositive : 0 < text.length := List.length_pos_iff.mpr hne
  have hfirst : (blockScanner none indent outer true tokens ⟨text ++ ':' :: rest, mark⟩).fetch =
      some (blockScanner (some (startedKey indent tokens mark)) indent outer false
        (tokens ++ [.scalar (String.ofList text) .plain])
        ⟨':' :: rest, mark.forward text.length⟩) := by
    cases text with
    | nil => exact absurd rfl hne
    | cons c text =>
        rw [List.all_cons, Bool.and_eq_true] at hword
        have hcolon : c ≠ ':' := ne_of_word_char hword.1 (by decide)
        rw [List.cons_append, fetch_at_token (starts_token_of_word hword.1),
          close_to_of_le hcolumn, fetch_token_plain rfl rfl (not_bound_of_word hword.1)
            (not_odd_of_word hword.1) (by simp [hcolon]) (not_blank_of_word_char hword.1),
          ← List.cons_append, fetch_plain_block hread]
        rfl
  -- a word is short enough for the key that it may be to stay possible up to the colon
  have hfresh : freshKey? (mark.forward text.length) (some (startedKey indent tokens mark)) =
      some (some (startedKey indent tokens mark)) := by
    have hstale : PossibleKey.isStale (startedKey indent tokens mark) (mark.forward text.length) =
        false := by
      have hnear : ¬ mark.index + 1024 < mark.index + text.length := by omega
      simp [PossibleKey.isStale, startedKey, hnear]
    rw [freshKey?, if_neg (by simp [hstale])]
  have hcolon : StartsToken (':' :: rest) := starts_token_cons (by decide)
  have hinside : indent ≤ (mark.forward text.length).column := by
    rw [Mark.column_forward]
    omega
  have hsecond : (blockScanner (some (startedKey indent tokens mark)) indent outer false
      (tokens ++ [.scalar (String.ofList text) .plain])
      ⟨':' :: rest, mark.forward text.length⟩).fetch = _ :=
    fetch_behind_gap (skip_gap_token hcolon) hfresh
  rw [close_to_of_le hinside, fetch_token_value rfl rfl hrest, fetch_value_block hcolumn] at hsecond
  refine .step rfl block_scanner_sound hfirst (.inr ?_)
    (.step rfl block_scanner_sound hsecond (.inr (Nat.lt_succ_self _)) h)
  show (':' :: rest).length < (text ++ ':' :: rest).length
  rw [List.length_append]
  omega

/-! ## Items, empty lists and the end -/

/-- A hyphen at the indentation of the block is read as the sign of an item. -/
theorem feeds_of_item (hcolumn : indent = mark.column) (hrest : endsWord rest = true)
    (h : Feeds (blockScanner none indent outer true (tokens ++ [.blockItem]) ⟨rest, mark.next⟩)
      all) :
    Feeds (blockScanner none indent outer true tokens ⟨'-' :: rest, mark⟩) all := by
  have hhyphen : StartsToken ('-' :: rest) := starts_token_cons (by decide)
  have hbound : atDocumentBound ⟨'-' :: rest, mark⟩ = false := by
    cases rest with
    | nil => simp [atDocumentBound]
    | cons c rest =>
        have hne : '-' ≠ c := by
          rintro rfl
          cases hrest
        simp [atDocumentBound, hne]
  have htoken : ∀ s : Scanner, s.place = ⟨'-' :: rest, mark⟩ →
      s.fetchToken = s.fetchBlockItem := by
    intro s hplace
    simp [fetchToken, hplace, hbound, hrest]
  have hopen : (blockScanner none indent outer true tokens ⟨'-' :: rest, mark⟩).openBlockHere
      .blockSequenceStart = blockScanner none indent outer true tokens ⟨'-' :: rest, mark⟩ := by
    unfold openBlockHere openBlock
    exact if_neg (fun hlt => Int.lt_irrefl _ (hcolumn ▸ hlt.2))
  have hfetch : (blockScanner none indent outer true tokens ⟨'-' :: rest, mark⟩).fetch =
      some (blockScanner none indent outer true (tokens ++ [.blockItem]) ⟨rest, mark.next⟩) := by
    rw [fetch_at_token hhyphen, close_to_of_le (Int.le_of_eq hcolumn), htoken _ rfl]
    unfold fetchBlockItem
    rw [hopen]
    rfl
  exact .step rfl block_scanner_sound hfetch (.inr (Nat.lt_succ_self _)) h

/-- A scanner behind an opening bracket. -/
def bracketScanner (indent : Int) (outer : List Int) (tokens : List Token) (place : Place) :
    Scanner :=
  { blockScanner none indent outer true tokens place with keys := [none, none], depth := 1 }

theorem fetch_in_brackets (h : StartsToken rest) :
    (bracketScanner indent outer tokens ⟨rest, mark⟩).fetch =
      (bracketScanner indent outer tokens ⟨rest, mark⟩).fetchToken := by
  have hpassed : (bracketScanner indent outer tokens ⟨rest, mark⟩).passGap =
      bracketScanner indent outer tokens ⟨rest, mark⟩ := by
    show ({ bracketScanner indent outer tokens ⟨rest, mark⟩ with
      place := (skipGap true false rest mark true).1 } : Scanner).allowKey
        (skipGap true false rest mark true).2 = _
    rw [skip_gap_token h]
    rfl
  have hdropped : (bracketScanner indent outer tokens ⟨rest, mark⟩).dropStale =
      some (bracketScanner indent outer tokens ⟨rest, mark⟩) := rfl
  rw [fetch_eq, hpassed, hdropped]
  rfl

/-- An empty pair of brackets behind a key is read as its two signs. -/
theorem feeds_of_empty_list (hcolumn : indent ≤ mark.column)
    (h : Feeds (blockScanner none indent outer false
      (tokens ++ [.flowSequenceStart, .flowSequenceEnd]) ⟨rest, mark.next.next⟩) all) :
    Feeds (blockScanner none indent outer false tokens ⟨'[' :: ']' :: rest, mark⟩) all := by
  have hstart : StartsToken ('[' :: ']' :: rest) := starts_token_cons (by decide)
  have hend : StartsToken (']' :: rest) := starts_token_cons (by decide)
  have hopening : ∀ s : Scanner, s.place = ⟨'[' :: ']' :: rest, mark⟩ →
      s.fetchToken = s.fetchOpening .flowSequenceStart := by
    intro s hplace
    simp [fetchToken, hplace, atDocumentBound]
  have hclosing : ∀ s : Scanner, s.place = ⟨']' :: rest, mark.next⟩ →
      s.fetchToken = s.fetchClosing .flowSequenceEnd := by
    intro s hplace
    simp [fetchToken, hplace, atDocumentBound]
  have hfirst : (blockScanner none indent outer false tokens ⟨'[' :: ']' :: rest, mark⟩).fetch =
      some (bracketScanner indent outer (tokens ++ [.flowSequenceStart]) ⟨']' :: rest, mark.next⟩) := by
    rw [fetch_at_token hstart, close_to_of_le hcolumn, hopening _ rfl]
    rfl
  have hsecond : (bracketScanner indent outer (tokens ++ [.flowSequenceStart])
        ⟨']' :: rest, mark.next⟩).fetch =
      some (blockScanner none indent outer false
        (tokens ++ [.flowSequenceStart] ++ [.flowSequenceEnd]) ⟨rest, mark.next.next⟩) := by
    rw [fetch_in_brackets hend, hclosing _ rfl]
    rfl
  rw [List.append_assoc] at hsecond
  exact .step rfl block_scanner_sound hfirst (.inr (Nat.lt_succ_self _))
    (.step rfl (fun _ _ => Nat.zero_le _) hsecond (.inr (Nat.lt_succ_self _)) h)

/-- At the end of the text the outermost block ends. -/
theorem feeds_at_end (column : Nat) (hcolumn : column ≤ mark.column) :
    Feeds (blockScanner none column [-1] allowed tokens ⟨[], mark⟩)
      (tokens ++ [.blockEnd, .streamEnd]) := by
  have hfetch : (blockScanner none column [-1] allowed tokens ⟨[], mark⟩).fetch =
      some { blockScanner none (-1) [] false (tokens ++ [.blockEnd] ++ [.streamEnd])
        ⟨[], mark⟩ with ended := true } := by
    have hinside : ((column : Nat) : Int) ≤ mark.column := Int.ofNat_le.mpr hcolumn
    have hclose : (blockScanner none column [-1] allowed tokens ⟨[], mark⟩).closeTo (-1) =
        blockScanner none (-1) [] allowed (tokens ++ [.blockEnd]) ⟨[], mark⟩ := by
      rw [close_to_of_lt (by omega), close_to_of_le (Int.le_refl _)]
    rw [fetch_at_token starts_token_nil, close_to_of_le hinside]
    show (blockScanner none column [-1] allowed tokens ⟨[], mark⟩).fetchEnd = _
    unfold fetchEnd
    rw [hclose]
    rfl
  refine .step rfl block_scanner_sound hfetch (.inl rfl) ⟨_, .ended rfl ?_, ?_⟩
  · exact fun key hkey => List.mem_singleton.mp hkey
  · show tokens ++ [.blockEnd] ++ [.streamEnd] = _
    rw [List.append_assoc]
    rfl

/-! ## Scalars -/

/-- A scalar that is no key does not become one on a later line. -/
theorem fresh_key_on_later_line {later : Mark} (hcolumn : indent ≠ mark.column)
    (hline : mark.line < later.line) :
    freshKey? later (startedKey? indent allowed tokens mark) = some none := by
  cases allowed with
  | false => rfl
  | true =>
      have hstale : PossibleKey.isStale (startedKey indent tokens mark) later = true := by
        simp [PossibleKey.isStale, startedKey, hline]
      have hrequired : (startedKey indent tokens mark).required = false := by
        simp [startedKey, hcolumn]
      show freshKey? later (some (startedKey indent tokens mark)) = _
      rw [freshKey?, if_pos hstale, hrequired, if_neg Bool.false_ne_true]

/-- Behind a scalar the scanner goes on at the next token, on a later line. -/
theorem feeds_behind_scalar {gap : List Char} {before : List Token} {first later : Mark}
    {flag : Bool} (hgap : skipGap false false (gap ++ tail) mark flag = (⟨tail, later⟩, true))
    (htail : StartsToken tail) (hcolumn : indent ≠ first.column) (hline : first.line < later.line)
    (h : Feeds (blockScanner none indent outer true tokens ⟨tail, later⟩) all) :
    Feeds (blockScanner (startedKey? indent allowed before first) indent outer flag tokens
      ⟨gap ++ tail, mark⟩) all := by
  refine h.congr ?_ rfl rfl block_scanner_sound ?_
  · rw [fetch_behind_gap hgap (fresh_key_on_later_line hcolumn hline), fetch_at_token htail]
  · show tail.length ≤ (gap ++ tail).length
    rw [List.length_append]
    exact Nat.le_add_left _ _

theorem skip_gap_next_line {flag : Bool} (column : Nat) (htail : StartsToken tail) :
    skipGap false false ('\n' :: indentation column ++ tail) mark flag =
      (⟨tail, (mark.nextLine 1).forward column⟩, true) := by
  rw [List.cons_append, skip_gap_line_end, skip_gap_indentation, skip_gap_token htail]

/-- A character that may start a plain scalar starts a token. -/
theorem starts_token_of_plain (htext : canBePlain (c :: text) = true) :
    StartsToken (c :: rest) := by
  have hplain := is_plain_of_can_be_plain htext
  have hprintable := hplain.printable c List.mem_cons_self
  simp only [canBePlain, bordersOn, List.head?_cons, Option.any_some, Bool.and_eq_true,
    Bool.not_eq_true', Bool.or_eq_false_iff, startsOddly, List.contains_eq_mem, List.mem_cons,
    decide_eq_false_iff_not, not_or, beq_eq_false_iff_ne] at htext
  have hblank : isBlank c = false := by
    apply Bool.eq_false_iff.mpr
    exact fun hblank => htext.1.1.1.2.1 (space_of_printable hprintable hblank)
  exact starts_token_cons ⟨hblank, hplain.inLine c List.mem_cons_self, htext.1.1.2.1.1,
    ne_of_printable hprintable (by decide)⟩

variable {block column : Nat}

/-- A plain scalar is read, up to the next token. -/
theorem feeds_of_plain (htext : canBePlain text = true) (hne : text ≠ [])
    (hmark : block < mark.column) (hcolumn : column ≤ block) (htail : StartsToken tail)
    (h : ∀ stop : Mark, stop.column = column →
      Feeds (blockScanner none block outer true
        (tokens ++ [.scalar (String.ofList text) .plain]) ⟨tail, stop⟩) all) :
    Feeds (blockScanner none block outer allowed tokens
      ⟨text ++ '\n' :: (indentation column ++ tail), mark⟩) all := by
  have hread : plainScalar false ((block : Int) + 1).toNat
      ⟨text ++ '\n' :: (indentation column ++ tail), mark⟩ = _ :=
    plain_scalar_written htext (by omega) (by omega) htail
  have hinside : (block : Int) ≤ mark.column := by omega
  have hfetch : (blockScanner none block outer allowed tokens
        ⟨text ++ '\n' :: (indentation column ++ tail), mark⟩).fetch =
      some (blockScanner (startedKey? block allowed tokens mark) block outer true
        (tokens ++ [.scalar (String.ofList text) .plain])
        ⟨tail, ((mark.forward text.length).nextLine 1).forward column⟩) := by
    cases text with
    | nil => exact absurd rfl hne
    | cons c text =>
        have hplain := is_plain_of_can_be_plain htext
        -- the text stands inside of its block and starts with no sign of its own, so nothing but a
        -- plain scalar is fetched
        have hbound : atDocumentBound
            ⟨c :: (text ++ '\n' :: (indentation column ++ tail)), mark⟩ = false := by
          have hpositive : mark.column ≠ 0 := by omega
          simp [atDocumentBound, hpositive]
        have hends : endsWord (text ++ '\n' :: (indentation column ++ tail)) = endsWord text := by
          cases text <;> rfl
        have hodd : startsOddly (c :: (text ++ '\n' :: (indentation column ++ tail))) = false := by
          rw [startsOddly, hends]
          simp only [canBePlain, Bool.and_eq_true, Bool.not_eq_true'] at htext
          exact htext.1.1.2
        have hstart : StartsToken (c :: (text ++ '\n' :: (indentation column ++ tail))) :=
          starts_token_of_plain htext
        rw [List.cons_append, fetch_at_token hstart, close_to_of_le hinside,
          fetch_token_plain rfl rfl hbound hodd (hplain.not_value _) (hstart c rfl).1,
          ← List.cons_append, fetch_plain_block hread]
  have hrest : Feeds (blockScanner (startedKey? block allowed tokens mark) block outer true
      (tokens ++ [.scalar (String.ofList text) .plain])
      ⟨[] ++ tail, ((mark.forward text.length).nextLine 1).forward column⟩) all := by
    refine feeds_behind_scalar (skip_gap_token htail) htail (by omega) ?_ (h _ ?_)
    · simp
    · simp
  refine .step rfl block_scanner_sound hfetch (.inr ?_) hrest
  show tail.length < (text ++ '\n' :: (indentation column ++ tail)).length
  simp only [List.length_append, List.length_cons]
  omega

/-- A quoted scalar is read, up to the next token. -/
theorem feeds_of_quoted {written : List Char} (hquote : c = '\'' ∨ c = '"')
    (hread : ∃ stop, quotedScalar
          ⟨c :: written ++ '\n' :: (indentation column ++ tail), mark⟩ =
        some { text := text, after := ⟨'\n' :: (indentation column ++ tail), stop⟩ } ∧
      mark.line ≤ stop.line)
    (hmark : block < mark.column) (htail : StartsToken tail)
    (h : ∀ stop : Mark, stop.column = column →
      Feeds (blockScanner none block outer true
        (tokens ++ [.scalar (String.ofList text) .quoted]) ⟨tail, stop⟩) all) :
    Feeds (blockScanner none block outer allowed tokens
      ⟨c :: written ++ '\n' :: (indentation column ++ tail), mark⟩) all := by
  obtain ⟨stop, hread, hline⟩ := hread
  have hinside : (block : Int) ≤ mark.column := by omega
  have hstart : StartsToken (c :: written ++ '\n' :: (indentation column ++ tail)) := by
    apply starts_token_cons
    rcases hquote with rfl | rfl <;> decide
  have htoken : ∀ s : Scanner,
      s.place = ⟨c :: written ++ '\n' :: (indentation column ++ tail), mark⟩ →
        s.fetchToken = s.fetchQuoted := by
    intro s hplace
    rcases hquote with rfl | rfl <;> simp [fetchToken, hplace, atDocumentBound]
  have hfetch : (blockScanner none block outer allowed tokens
        ⟨c :: written ++ '\n' :: (indentation column ++ tail), mark⟩).fetch =
      some (blockScanner (startedKey? block allowed tokens mark) block outer false
        (tokens ++ [.scalar (String.ofList text) .quoted])
        ⟨'\n' :: indentation column ++ tail, stop⟩) := by
    rw [fetch_at_token hstart, close_to_of_le hinside, htoken _ rfl, fetch_quoted_block hread]
    rfl
  have hrest : Feeds (blockScanner (startedKey? block allowed tokens mark) block outer false
      (tokens ++ [.scalar (String.ofList text) .quoted])
      ⟨'\n' :: indentation column ++ tail, stop⟩) all :=
    feeds_behind_scalar (skip_gap_next_line column htail) htail (by omega)
      (Nat.lt_succ_of_le hline) (h _ (Nat.zero_add _))
  refine .step rfl block_scanner_sound hfetch (.inr ?_) hrest
  show ('\n' :: indentation column ++ tail).length <
    (c :: written ++ '\n' :: (indentation column ++ tail)).length
  simp only [List.length_append, List.length_cons]
  omega

/-- A block of lines is read, up to the next token. -/
theorem feeds_of_literal (htext : canBeLiteral text = true) (hne : text ≠ [])
    (hmark : block < mark.column) (hcolumn : column ≤ block) (htail : StartsToken tail)
    (h : ∀ stop : Mark, stop.column = column →
      Feeds (blockScanner none block outer true
        (tokens ++ [.scalar (String.ofList text) .literal]) ⟨tail, stop⟩) all) :
    Feeds (blockScanner none block outer allowed tokens
      ⟨blockSigns text ++ '\n' :: (indentLines (block + 2) true (wholeLines text) ++
        (indentation column ++ tail)), mark⟩) all := by
  obtain ⟨stop, hread, hstop⟩ := block_scalar_written htext hne (by omega : column < block + 2) htail
    mark
  have hinside : (block : Int) ≤ mark.column := by omega
  rw [block_signs_eq, List.cons_append] at hread ⊢
  have htoken : ∀ s : Scanner, ∀ rest, s.depth = 0 → s.place = ⟨'|' :: rest, mark⟩ →
      s.fetchToken = s.fetchBlock true := by
    intro s rest hdepth hplace
    simp [fetchToken, hplace, hdepth, atDocumentBound]
  have hstart : ∀ rest, StartsToken ('|' :: rest) := fun _ => starts_token_cons (by decide)
  refine .step rfl block_scanner_sound ?_ (.inr ?_) (h stop hstop)
  · rw [fetch_at_token (hstart _), close_to_of_le hinside, htoken _ _ rfl rfl,
      fetch_literal_block hread]
  · show tail.length < _
    simp only [blockScanner, List.length_append, List.length_cons]
    omega

/-- How a scalar that is written in a style is read. -/
def readStyle : WrittenStyle → ScalarStyle
  | .plain => .plain
  | .single | .double => .quoted
  | .literal => .literal

/-- What the style of a text says about the text. -/
theorem style_of_cases (value : String) :
    (styleOf value = .plain ∧ canBePlain value.toList = true ∧
        Value.needsQuotes value = false) ∨
      (styleOf value = .single ∧ canBeSingle value.toList = true ∧ '\n' ∉ value.toList) ∨
      styleOf value = .double ∨
      (styleOf value = .literal ∧ canBeLiteral value.toList = true ∧ '\n' ∈ value.toList) := by
  unfold styleOf
  simp only [List.contains_eq_mem, decide_eq_true_eq, Bool.and_eq_true, Bool.not_eq_true']
  split_ifs with hline hliteral hplain hsingle
  · exact .inr (.inr (.inr ⟨rfl, hliteral, hline⟩))
  · exact .inr (.inr (.inl rfl))
  · exact .inl ⟨rfl, hplain.2, hplain.1⟩
  · exact .inr (.inl ⟨rfl, hsingle, hline⟩)
  · exact .inr (.inr (.inl rfl))

/-- A plain text is not empty. -/
theorem ne_nil_of_plain {value : String} (h : Value.needsQuotes value = false) :
    value.toList ≠ [] := by
  intro hempty
  rw [String.toList_eq_nil_iff] at hempty
  rw [hempty] at h
  revert h
  decide

/-- A text is read in the style in which it is written, up to the next token. -/
theorem feeds_of_text (value : String) (hmark : block < mark.column) (hcolumn : column ≤ block)
    (htail : StartsToken tail)
    (h : ∀ stop : Mark, stop.column = column →
      Feeds (blockScanner none block outer true
        (tokens ++ [.scalar value (readStyle (styleOf value))]) ⟨tail, stop⟩) all) :
    Feeds (blockScanner none block outer allowed tokens
      ⟨(scalar block value).toList ++ (indentation column ++ tail), mark⟩) all := by
  have hvalue : value = String.ofList value.toList := String.ofList_toList.symm
  unfold scalar
  rw [String.toList_ofList]
  -- how the text is written decides which scalar is read
  rcases style_of_cases value with ⟨hstyle, hplain, hquotes⟩ | ⟨hstyle, hsingle, hline⟩ | hstyle |
    ⟨hstyle, hliteral, hline⟩
  · simp only [hstyle] at h ⊢
    rw [hvalue] at h
    simp only [List.append_assoc, List.singleton_append]
    exact feeds_of_plain hplain (ne_nil_of_plain hquotes) hmark hcolumn htail h
  · simp only [hstyle] at h ⊢
    rw [hvalue] at h
    have hread := single_scalar_written hsingle hline (Nat.succ_pos (block + 1))
      (show ('\n' :: (indentation column ++ tail)).head? ≠ some '\'' by simp) mark
    rw [single_eq_lines] at hread
    simp only [single_eq_lines, List.append_assoc, List.singleton_append]
    exact feeds_of_quoted (.inl rfl) hread hmark htail h
  · simp only [hstyle] at h ⊢
    rw [hvalue] at h
    have hread := double_scalar_written value.toList ('\n' :: (indentation column ++ tail)) mark
    have hwritten : '"' :: value.toList.flatMap escaped ++ ['"', '\n'] ++
        (indentation column ++ tail) =
          '"' :: (value.toList.flatMap escaped ++ ['"']) ++ '\n' :: (indentation column ++ tail) := by
      simp
    rw [hwritten]
    refine feeds_of_quoted (.inr rfl) ?_ hmark htail h
    simpa using hread
  · simp only [hstyle] at h ⊢
    rw [hvalue] at h
    have hne : value.toList ≠ [] := List.ne_nil_of_mem hline
    have hwritten : blockSigns value.toList ++ '\n' :: indentLines (block + 2) true value.toList ++
        (if value.toList.getLast?.any isBreak then [] else ['\n']) ++ (indentation column ++ tail) =
          blockSigns value.toList ++ '\n' :: (indentLines (block + 2) true (wholeLines value.toList) ++
            (indentation column ++ tail)) := by
      rw [indent_lines_whole]
      simp only [List.append_assoc, List.cons_append]
    rw [hwritten]
    exact feeds_of_literal hliteral hne hmark hcolumn htail h

end TemplateBundle.Yaml.Scanner

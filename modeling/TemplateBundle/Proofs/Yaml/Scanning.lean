import TemplateBundle.Proofs.Yaml.Blocks

/-!
# Scanning written data

The tokens of data that were written as blocks. A scanner hands them out one after the other, and
then comes to the end of the text: `feeds_written`.
-/

namespace TemplateBundle

namespace Data

mutual

/-- The data can be read back from blocks: texts, truth values, lists of texts and records, and
records that are not empty and whose names are words. -/
def IsBlock : Data → Prop
  | .text _ => True
  | .truth _ => True
  | .number _ => False
  | .list items => AreItems items
  | .record fields => fields ≠ [] ∧ AreFields fields

/-- The data are items of a block: none of them is itself a list. -/
def AreItems : List Data → Prop
  | [] => True
  | item :: others => (∀ items, item ≠ .list items) ∧ item.IsBlock ∧ AreItems others

/-- The data are fields of a block. -/
def AreFields : List (String × Data) → Prop
  | [] => True
  | (name, value) :: others => Yaml.IsWord name.toList ∧ value.IsBlock ∧ AreFields others

end

end Data

namespace Yaml

open Printer Scanner

mutual

/-- The tokens of a value. -/
def valueTokens : Data → List Token
  | .text value => [.scalar value (readStyle (styleOf value))]
  | .truth value => [.scalar (if value then "true" else "false") .plain]
  | .number value => [.scalar (toString value) .plain]
  | .list [] => [.flowSequenceStart, .flowSequenceEnd]
  | .list (item :: others) => itemTokens (item :: others)
  | .record fields => .blockMappingStart :: (fieldTokens fields ++ [.blockEnd])

/-- The tokens of the items of a list. It has no sign of its own where it is indented like its
key. -/
def itemTokens : List Data → List Token
  | [] => []
  | item :: others => .blockItem :: (valueTokens item ++ itemTokens others)

/-- The tokens of the fields of a record. -/
def fieldTokens : List (String × Data) → List Token
  | [] => []
  | (name, value) :: others =>
      .key :: .scalar name .plain :: .value :: (valueTokens value ++ fieldTokens others)

end

/-! ## Written text -/

attribute [local simp] behind itemEntries fieldEntries

/-- Entries go on behind an indentation. -/
theorem hanging_cons (indent : Nat) (first second : String) (others : List String) :
    (hanging indent (first :: second :: others)).toList =
      first.toList ++ (indentation indent ++ (hanging indent (second :: others)).toList) := by
  simp [hanging, String.toList_append, String.toList_ofList]

theorem hanging_singleton (indent : Nat) (first : String) :
    (hanging indent [first]).toList = first.toList := by
  simp [hanging]

variable {indent block column : Nat} {item : Data} {items : List Data} {field : String × Data}
  {fields : List (String × Data)} {rest tail : List Char}

theorem behind_text (afterHyphen : Bool) (value : String) :
    (behind indent afterHyphen (.text value)).toList = ' ' :: (scalar indent value).toList := by
  simp

theorem behind_truth (afterHyphen value : Bool) :
    (behind indent afterHyphen (.truth value)).toList =
      ' ' :: ((if value then "true" else "false").toList ++ ['\n']) := by
  cases value <;> simp

theorem behind_empty_list (afterHyphen : Bool) :
    (behind indent afterHyphen (.list [])).toList = [' ', '[', ']', '\n'] := by
  simp

theorem behind_list :
    (behind indent false (.list (item :: items))).toList =
      '\n' :: (indentation indent ++ (hanging indent (itemEntries indent (item :: items))).toList) := by
  simp

theorem behind_record :
    (behind indent false (.record (field :: fields))).toList =
      '\n' :: (indentation (indent + 2) ++
        (hanging (indent + 2) (fieldEntries (indent + 2) (field :: fields))).toList) := by
  simp

theorem behind_record_in_item :
    (behind indent true (.record (field :: fields))).toList =
      ' ' :: (hanging (indent + 2) (fieldEntries (indent + 2) (field :: fields))).toList := by
  simp

/-- A value is set apart from the key or the hyphen before it. -/
theorem ends_word_behind (afterHyphen : Bool) (data : Data) :
    endsWord ((behind indent afterHyphen data).toList ++ rest) = true := by
  cases data with
  | text value => rw [behind_text]; rfl
  | truth value => rw [behind_truth]; rfl
  | number value => simp [endsWord, isBlank]
  | list items =>
      cases items with
      | nil => rw [behind_empty_list]; rfl
      | cons item items => cases afterHyphen <;> simp [endsWord, isBlank, isBreak]
  | record fields =>
      cases fields with
      | nil => simp [endsWord, isBlank]
      | cons field fields => cases afterHyphen <;> simp [endsWord, isBlank, isBreak]

/-- The lines of a list: its first item, and the others behind an indentation. -/
def itemLines (indent : Nat) (items : List Data) : List Char :=
  (hanging indent (itemEntries indent items)).toList

/-- The lines of a record: its first field, and the others behind an indentation. -/
def fieldLines (indent : Nat) (fields : List (String × Data)) : List Char :=
  (hanging indent (fieldEntries indent fields)).toList

theorem item_lines_singleton :
    itemLines indent [item] = '-' :: (behind indent true item).toList := by
  simp [itemLines, hanging_singleton]

theorem item_lines_cons (next : Data) :
    itemLines indent (item :: next :: items) =
      '-' :: ((behind indent true item).toList ++
        (indentation indent ++ itemLines indent (next :: items))) := by
  simp [itemLines, hanging_cons]

theorem field_lines_singleton (name : String) (value : Data) :
    fieldLines indent [(name, value)] =
      name.toList ++ ':' :: (behind indent false value).toList := by
  simp [fieldLines, hanging_singleton]

theorem field_lines_cons (name : String) (value : Data) :
    fieldLines indent ((name, value) :: field :: fields) =
      name.toList ++ ':' :: ((behind indent false value).toList ++
        (indentation indent ++ fieldLines indent (field :: fields))) := by
  simp [fieldLines, hanging_cons]

theorem starts_token_of_items :
    StartsToken (itemLines indent (item :: items) ++ rest) := by
  cases items with
  | nil =>
      rw [item_lines_singleton]
      exact starts_token_cons (by decide)
  | cons next items =>
      rw [item_lines_cons]
      exact starts_token_cons (by decide)

theorem starts_token_of_fields (h : Data.AreFields (field :: fields)) :
    StartsToken (fieldLines indent (field :: fields) ++ rest) := by
  obtain ⟨name, value⟩ := field
  obtain ⟨⟨hne, -, hword⟩, -⟩ := h
  have hlines : ∃ behind, fieldLines indent ((name, value) :: fields) = name.toList ++ behind := by
    cases fields with
    | nil => exact ⟨_, field_lines_singleton name value⟩
    | cons field fields => exact ⟨_, field_lines_cons name value⟩
  obtain ⟨behind, hlines⟩ := hlines
  rw [hlines]
  cases hname : name.toList with
  | nil => exact absurd hname hne
  | cons c others =>
      rw [hname, List.all_cons, Bool.and_eq_true] at hword
      exact starts_token_of_word hword.1

/-! ## Reading the tokens -/

section

variable {all tokens : List Token} {outer : List Int} {mark : Mark}

/-- A truth value is read as the plain scalar that it is written as. -/
theorem feeds_of_truth (value afterHyphen : Bool) (hmark : block < mark.column)
    (hcolumn : column ≤ block) (htail : StartsToken tail)
    (hend : ∀ stop : Mark, stop.column = column →
      Feeds (blockScanner none block outer true (tokens ++ valueTokens (.truth value)) ⟨tail, stop⟩)
        all) :
    Feeds (blockScanner none block outer afterHyphen tokens
      ⟨(if value then "true" else "false").toList ++ '\n' :: (indentation column ++ tail), mark⟩)
      all := by
  rw [valueTokens] at hend
  cases value with
  | true => exact feeds_of_plain (by decide) (by decide) hmark hcolumn htail hend
  | false => exact feeds_of_plain (by decide) (by decide) hmark hcolumn htail hend

/-- The block of the fields ends in front of the next token, which stands further to the left. -/
theorem feeds_behind_fields (hcolumn : column ≤ block) (htail : StartsToken tail)
    (hend : ∀ stop : Mark, stop.column = column →
      Feeds (blockScanner none block outer true (tokens ++ valueTokens (.record fields))
        ⟨tail, stop⟩) all) (stop : Mark) (hstop : stop.column = column) :
    Feeds (blockScanner none ((block + 2 : Nat) : Int) (outerAt block outer (block + 2)) true
      (tokens ++ (opened block (block + 2) ++ fieldTokens fields)) ⟨tail, stop⟩) all := by
  have hlt : (block : Int) < ((block + 2 : Nat) : Int) := by omega
  rw [outerAt, if_pos hlt, opened, if_pos hlt]
  refine feeds_of_close (by omega) htail ?_
  have htokens := hend stop hstop
  rw [valueTokens] at htokens
  simpa using htokens

end

variable {all : List Token}

mutual

/-- A value is read behind its key or its hyphen, up to the next token. -/
theorem feeds_of_value (data : Data) (h : data.IsBlock) (afterHyphen : Bool)
    {block column : Nat} {outer : List Int} {tokens : List Token} {mark : Mark} {tail : List Char}
    (hitem : afterHyphen = true → mark.column = block + 1 ∧ ∀ items, data ≠ .list items)
    (hmark : block < mark.column) (hcolumn : column ≤ block) (htail : StartsToken tail)
    (hend : ∀ stop : Mark, stop.column = column →
      Feeds (blockScanner none block outer true (tokens ++ valueTokens data) ⟨tail, stop⟩) all) :
    Feeds (blockScanner none block outer afterHyphen tokens
      ⟨(behind block afterHyphen data).toList ++ (indentation column ++ tail), mark⟩) all := by
  have hnext : block < mark.next.column := Nat.lt_succ_of_lt hmark
  match data with
  | .text value =>
      rw [behind_text]
      rw [valueTokens] at hend
      exact feeds_of_space (feeds_of_text value hnext hcolumn htail hend)
  | .truth value =>
      rw [behind_truth, List.cons_append, List.append_assoc, List.singleton_append]
      exact feeds_of_space (feeds_of_truth value _ hnext hcolumn htail hend)
  | .number value => exact h.elim
  | .list items =>
      cases afterHyphen with
      -- a list is no item of another list
      | true => exact absurd rfl ((hitem rfl).2 items)
      | false =>
          match items with
          | [] =>
              rw [behind_empty_list]
              refine feeds_of_space (feeds_of_empty_list (by omega) ?_)
              exact feeds_of_line column (hend _ (Nat.zero_add _))
          | item :: items =>
              rw [behind_list, List.cons_append, List.append_assoc]
              refine feeds_of_line block ?_
              exact feeds_of_items (item :: items) h (List.cons_ne_nil _ _) (Nat.zero_add _)
                hcolumn htail hend
  | .record [] => exact absurd rfl h.1
  | .record (field :: fields) =>
      have hbehind := feeds_behind_fields hcolumn htail hend
      cases afterHyphen with
      | true =>
          rw [behind_record_in_item]
          refine feeds_of_space ?_
          exact feeds_of_fields (field :: fields) h.2 (List.cons_ne_nil _ _) (by omega)
            (by rw [Mark.column_next, (hitem rfl).1]) (by omega) htail hbehind
      | false =>
          rw [behind_record, List.cons_append, List.append_assoc]
          refine feeds_of_line (block + 2) ?_
          exact feeds_of_fields (field :: fields) h.2 (List.cons_ne_nil _ _) (by omega)
            (Nat.zero_add _) (by omega) htail hbehind

/-- Items are read one after the other, up to the next token behind them. -/
theorem feeds_of_items (items : List Data) (h : Data.AreItems items) (hne : items ≠ [])
    {block column : Nat} {outer : List Int} {tokens : List Token} {mark : Mark} {tail : List Char}
    (hmark : mark.column = block) (hcolumn : column ≤ block) (htail : StartsToken tail)
    (hend : ∀ stop : Mark, stop.column = column →
      Feeds (blockScanner none block outer true (tokens ++ itemTokens items) ⟨tail, stop⟩) all) :
    Feeds (blockScanner none block outer true tokens
      ⟨itemLines block items ++ (indentation column ++ tail), mark⟩) all := by
  have hindent : (block : Int) = mark.column := by omega
  match items with
  | [] => exact absurd rfl hne
  | [item] =>
      obtain ⟨hlist, hitem, -⟩ := h
      rw [item_lines_singleton]
      refine feeds_of_item hindent (ends_word_behind true item) ?_
      refine feeds_of_value item hitem true (fun _ => ⟨by rw [Mark.column_next, hmark], hlist⟩)
        (by rw [Mark.column_next, hmark]; exact Nat.lt_succ_self _) hcolumn htail
        fun stop hstop => ?_
      have htokens := hend stop hstop
      rw [itemTokens, itemTokens, List.append_nil] at htokens
      simpa using htokens
  | item :: next :: others =>
      obtain ⟨hlist, hitem, hothers⟩ := h
      rw [item_lines_cons, List.cons_append, List.append_assoc, List.append_assoc]
      refine feeds_of_item hindent (ends_word_behind true item) ?_
      refine feeds_of_value item hitem true (fun _ => ⟨by rw [Mark.column_next, hmark], hlist⟩)
        (by rw [Mark.column_next, hmark]; exact Nat.lt_succ_self _) (Nat.le_refl _)
        starts_token_of_items fun stop hstop => ?_
      -- the next hyphen stands in the column of the first one
      refine feeds_of_items (next :: others) hothers (List.cons_ne_nil _ _) hstop hcolumn htail
        fun stop hstop => ?_
      have htokens := hend stop hstop
      rw [itemTokens] at htokens
      simpa using htokens

/-- Fields are read one after the other, up to the next token behind them. A block opens in front of
the first one if it stands further to the right. -/
theorem feeds_of_fields (fields : List (String × Data)) (h : Data.AreFields fields)
    (hne : fields ≠ []) {indent : Int} {block column : Nat} {outer : List Int} {tokens : List Token}
    {mark : Mark} {tail : List Char} (hindent : indent ≤ block) (hmark : mark.column = block)
    (hcolumn : column ≤ block) (htail : StartsToken tail)
    (hend : ∀ stop : Mark, stop.column = column →
      Feeds (blockScanner none block (outerAt indent outer block) true
        (tokens ++ (opened indent block ++ fieldTokens fields)) ⟨tail, stop⟩) all) :
    Feeds (blockScanner none indent outer true tokens
      ⟨fieldLines block fields ++ (indentation column ++ tail), mark⟩) all := by
  match fields with
  | [] => exact absurd rfl hne
  | [(name, value)] =>
      obtain ⟨hname, hvalue, -⟩ := h
      have hbehind : block < (mark.forward name.toList.length).next.column := by
        rw [Mark.column_next, Mark.column_forward, hmark]
        omega
      rw [field_lines_singleton, List.append_assoc, List.cons_append]
      refine feeds_of_key hname (ends_word_behind false value) (hmark ▸ hindent) ?_
      rw [hmark]
      refine feeds_of_value value hvalue false nofun hbehind hcolumn htail fun stop hstop => ?_
      have htokens := hend stop hstop
      rw [fieldTokens, fieldTokens, List.append_nil] at htokens
      simpa using htokens
  | (name, value) :: next :: others =>
      obtain ⟨hname, hvalue, hothers⟩ := h
      have hbehind : block < (mark.forward name.toList.length).next.column := by
        rw [Mark.column_next, Mark.column_forward, hmark]
        omega
      rw [field_lines_cons, List.append_assoc, List.cons_append, List.append_assoc,
        List.append_assoc]
      refine feeds_of_key hname (ends_word_behind false value) (hmark ▸ hindent) ?_
      rw [hmark]
      refine feeds_of_value value hvalue false nofun hbehind (Nat.le_refl _)
        (starts_token_of_fields hothers) fun stop hstop => ?_
      refine feeds_of_fields (next :: others) hothers (List.cons_ne_nil _ _) (Int.le_refl _)
        hstop hcolumn htail fun stop hstop => ?_
      have htokens := hend stop hstop
      rw [fieldTokens] at htokens
      rw [outer_at_self, opened_self]
      simpa using htokens

end

/-- A text that starts with a token is scanned from its first character on. -/
theorem start_at_token {text : List Char} (h : StartsToken text) :
    Scanner.start text = blockScanner none (-1) [] true [] ⟨text, ⟨0, 0, 0⟩⟩ := by
  unfold Scanner.start
  split
  · exact absurd rfl (h _ rfl).2.2.2
  · rfl

/-- The tokens of a record that was written are handed out one after the other, and then the text
ends. -/
theorem feeds_written (field : String × Data) (fields : List (String × Data))
    (h : Data.AreFields (field :: fields)) :
    Feeds (Scanner.start (print (.record (field :: fields))).toList)
      (valueTokens (.record (field :: fields)) ++ [.streamEnd]) := by
  have htext : (print (.record (field :: fields))).toList =
      fieldLines 0 (field :: fields) ++ (indentation 0 ++ []) :=
    (List.append_nil _).symm
  rw [htext, start_at_token (starts_token_of_fields h)]
  refine feeds_of_fields (field :: fields) h (List.cons_ne_nil _ _) (by decide) rfl (Nat.le_refl _)
    starts_token_nil fun stop hstop => ?_
  have hdeeper : (-1 : Int) < ((0 : Nat) : Int) := by decide
  have hend : Feeds (blockScanner none ((0 : Nat) : Int) [-1] true
      (.blockMappingStart :: fieldTokens (field :: fields)) ⟨[], stop⟩) _ :=
    feeds_at_end 0 (Nat.zero_le _)
  rw [outerAt, if_pos hdeeper, opened, if_pos hdeeper, valueTokens]
  simpa using hend

end Yaml

end TemplateBundle

import TemplateBundle.Proofs.Yaml.Nodes

/-!
# Written documents

A record that is written as a document describes itself: `document_written`. All characters of the
text may stand in it, and it is long enough for the bound on the steps of reading it.
-/

namespace TemplateBundle.Yaml

open Printer Scanner NodeReader

/-! ## Allowed characters -/

/-- All characters of the text may stand in it. -/
def IsAllowedText (text : List Char) : Prop :=
  ∀ c ∈ text, isAllowed c = true

/-- Text that is given can be looked through. -/
theorem allowed_of_all {text : List Char} (h : text.all isAllowed = true) : IsAllowedText text :=
  List.all_eq_true.mp h

theorem allowed_append_iff {text other : List Char} :
    IsAllowedText (text ++ other) ↔ IsAllowedText text ∧ IsAllowedText other :=
  List.forall_mem_append

theorem allowed_cons_iff {c : Char} {text : List Char} :
    IsAllowedText (c :: text) ↔ isAllowed c = true ∧ IsAllowedText text :=
  List.forall_mem_cons

theorem allowed_nil : IsAllowedText [] :=
  fun _ h => absurd h List.not_mem_nil

theorem allowed_of_all_printable {text : List Char} (h : text.all isPrintable = true) :
    IsAllowedText text :=
  fun c hc => allowed_of_printable (List.all_eq_true.mp h c hc)

theorem allowed_indentation (indent : Nat) : IsAllowedText (indentation indent) := by
  intro c hc
  rw [List.eq_of_mem_replicate hc]
  rfl

theorem allowed_indent_lines (indent : Nat) (atStart : Bool) {text : List Char}
    (h : IsAllowedText text) : IsAllowedText (indentLines indent atStart text) := by
  induction text generalizing atStart with
  | nil => exact h
  | cons c text ih =>
      obtain ⟨hc, htext⟩ := allowed_cons_iff.mp h
      unfold indentLines
      split_ifs
      · exact allowed_cons_iff.mpr ⟨hc, ih true htext⟩
      · exact allowed_append_iff.mpr
          ⟨allowed_indentation indent, allowed_cons_iff.mpr ⟨hc, ih false htext⟩⟩
      · exact allowed_cons_iff.mpr ⟨hc, ih false htext⟩

/-- Characters between a space and a tilde may stand in a text. -/
theorem allowed_of_range {c low high : Char} (hlow : ' ' ≤ low) (hhigh : high ≤ '~')
    (h : low ≤ c ∧ c ≤ high) : isAllowed c = true := by
  have hrange : ' ' ≤ c ∧ c ≤ '~' := ⟨Char.le_trans hlow h.1, Char.le_trans h.2 hhigh⟩
  simp [isAllowed, hrange]

theorem allowed_of_hex_value {c : Char} (h : (Text.hexValue? c).isSome = true) :
    isAllowed c = true := by
  unfold Text.hexValue? at h
  split_ifs at h with hdigit hlower hupper
  · exact allowed_of_range (by decide) (by decide) hdigit
  · exact allowed_of_range (by decide) (by decide) hlower
  · exact allowed_of_range (by decide) (by decide) hupper
  · cases h

theorem allowed_of_word {text : List Char} (h : IsWord text) : IsAllowedText text := by
  intro c hc
  have hword := List.all_eq_true.mp h.2.2 c hc
  rw [isWordChar, Bool.or_eq_true, beq_iff_eq] at hword
  rcases hword with hlower | rfl
  · obtain ⟨hleast, hmost⟩ := Bool.and_eq_true_iff.mp hlower
    exact allowed_of_range (show ' ' ≤ 'a' by decide) (show 'z' ≤ '~' by decide)
      ⟨of_decide_eq_true hleast, of_decide_eq_true hmost⟩
  · rfl

theorem allowed_escaped (c : Char) : IsAllowedText (escaped c) := by
  have hdigits : ∀ width, IsAllowedText (hexDigits width c.toNat) := fun width d hd =>
    allowed_of_hex_value ((hex_number_hex_digits width c.toNat).1 d hd)
  have hcode : ∀ letter width, isAllowed letter = true →
      IsAllowedText ('\\' :: letter :: hexDigits width c.toNat) := fun letter width hletter =>
    allowed_cons_iff.mpr ⟨rfl, allowed_cons_iff.mpr ⟨hletter, hdigits width⟩⟩
  by_cases hraw : (isPrintable c && !isBreak c && c != '"' && c != '\\') = true
  · rw [escaped, if_pos hraw]
    simp only [Bool.and_eq_true] at hraw
    exact allowed_cons_iff.mpr ⟨allowed_of_printable hraw.1.1.1, allowed_nil⟩
  · rw [escaped, if_neg hraw]
    cases hletter : escapeLetter? c with
    | some letter =>
        exact allowed_cons_iff.mpr
          ⟨rfl, allowed_cons_iff.mpr ⟨(letter_escape_of_letter hletter).2.2, allowed_nil⟩⟩
    | none =>
        dsimp only
        split_ifs
        · exact hcode 'x' 2 rfl
        · exact hcode 'u' 4 rfl
        · exact hcode 'U' 8 rfl

theorem allowed_single (indent : Nat) {text : List Char} (h : text.all isPrintable = true) :
    IsAllowedText (single indent text) := by
  have hdoubled : IsAllowedText (text.flatMap doubledQuote) := by
    intro c hc
    obtain ⟨d, hd, hcd⟩ := List.mem_flatMap.mp hc
    unfold doubledQuote at hcd
    split_ifs at hcd with hquote
    · have heq : c = '\'' := by simpa using hcd
      rw [heq]
      rfl
    · rw [List.mem_singleton.mp hcd]
      exact allowed_of_all_printable h d hd
  rw [single_eq_lines]
  exact allowed_cons_iff.mpr ⟨rfl, allowed_indent_lines indent false
    (allowed_append_iff.mpr ⟨hdoubled, allowed_cons_iff.mpr ⟨rfl, allowed_nil⟩⟩)⟩

theorem allowed_block_signs (text : List Char) : IsAllowedText (blockSigns text) := by
  rw [block_signs_eq]
  apply allowed_of_all
  cases showsIndent text <;> cases writtenChomping text <;> rfl

/-- Whatever is in a text, its scalar has allowed characters only. -/
theorem allowed_scalar (indent : Nat) (value : String) :
    IsAllowedText (scalar indent value).toList := by
  have hend : IsAllowedText ['\n'] := allowed_cons_iff.mpr ⟨rfl, allowed_nil⟩
  unfold scalar
  rw [String.toList_ofList]
  rcases style_of_cases value with ⟨hstyle, hplain, -⟩ | ⟨hstyle, hsingle, -⟩ | hstyle |
    ⟨hstyle, hliteral, -⟩
  · simp only [canBePlain, Bool.and_eq_true] at hplain
    simp only [hstyle]
    exact allowed_append_iff.mpr ⟨allowed_of_all_printable hplain.1.1.1.1.1, hend⟩
  · simp only [canBeSingle, Bool.and_eq_true] at hsingle
    simp only [hstyle]
    exact allowed_append_iff.mpr ⟨allowed_single _ hsingle.1.1, hend⟩
  · have hescaped : IsAllowedText (value.toList.flatMap escaped) := by
      intro c hc
      obtain ⟨d, -, hcd⟩ := List.mem_flatMap.mp hc
      exact allowed_escaped d c hcd
    simp only [hstyle]
    exact allowed_append_iff.mpr ⟨allowed_cons_iff.mpr ⟨rfl, hescaped⟩,
      allowed_cons_iff.mpr ⟨rfl, hend⟩⟩
  · simp only [canBeLiteral, Bool.and_eq_true] at hliteral
    have hlines := allowed_indent_lines (indent + 2) true (allowed_of_all_printable hliteral.1.1)
    simp only [hstyle]
    refine allowed_append_iff.mpr ⟨allowed_append_iff.mpr
      ⟨allowed_block_signs _, allowed_cons_iff.mpr ⟨rfl, hlines⟩⟩, ?_⟩
    split_ifs
    · exact allowed_nil
    · exact hend

mutual

/-- The text of a value has allowed characters only. -/
theorem allowed_value (data : Data) (h : data.IsBlock) (indent : Nat) (afterHyphen : Bool)
    (hlist : afterHyphen = true → ∀ items, data ≠ .list items) :
    IsAllowedText (behind indent afterHyphen data).toList := by
  match data with
  | .text value =>
      rw [behind_text]
      exact allowed_cons_iff.mpr ⟨rfl, allowed_scalar indent value⟩
  | .truth value =>
      rw [behind_truth]
      apply allowed_of_all
      cases value <;> rfl
  | .number value => exact h.elim
  | .list items =>
      cases afterHyphen with
      | true => exact absurd rfl (hlist rfl items)
      | false =>
          match items with
          | [] =>
              rw [behind_empty_list]
              exact allowed_of_all rfl
          | item :: items =>
              rw [behind_list]
              exact allowed_cons_iff.mpr ⟨rfl, allowed_append_iff.mpr
                ⟨allowed_indentation _, allowed_items (item :: items) h indent⟩⟩
  | .record [] => exact absurd rfl h.1
  | .record (field :: fields) =>
      cases afterHyphen with
      | true =>
          rw [behind_record_in_item]
          exact allowed_cons_iff.mpr ⟨rfl, allowed_fields (field :: fields) h.2 _⟩
      | false =>
          rw [behind_record]
          exact allowed_cons_iff.mpr ⟨rfl, allowed_append_iff.mpr
            ⟨allowed_indentation _, allowed_fields (field :: fields) h.2 _⟩⟩

theorem allowed_items (items : List Data) (h : Data.AreItems items) (indent : Nat) :
    IsAllowedText (itemLines indent items) := by
  match items with
  | [] => exact allowed_nil
  | [item] =>
      rw [item_lines_singleton]
      exact allowed_cons_iff.mpr ⟨rfl, allowed_value item h.2.1 _ _ fun _ => h.1⟩
  | item :: next :: others =>
      rw [item_lines_cons]
      refine allowed_cons_iff.mpr ⟨rfl, allowed_append_iff.mpr
        ⟨allowed_value item h.2.1 _ _ fun _ => h.1, allowed_append_iff.mpr
          ⟨allowed_indentation _, allowed_items (next :: others) h.2.2 indent⟩⟩⟩

theorem allowed_fields (fields : List (String × Data)) (h : Data.AreFields fields) (indent : Nat) :
    IsAllowedText (fieldLines indent fields) := by
  match fields with
  | [] => exact allowed_nil
  | [(name, value)] =>
      rw [field_lines_singleton]
      exact allowed_append_iff.mpr ⟨allowed_of_word h.1, allowed_cons_iff.mpr
        ⟨rfl, allowed_value value h.2.1 _ _ nofun⟩⟩
  | (name, value) :: next :: others =>
      rw [field_lines_cons]
      exact allowed_append_iff.mpr ⟨allowed_of_word h.1, allowed_cons_iff.mpr
        ⟨rfl, allowed_append_iff.mpr ⟨allowed_value value h.2.1 _ _ nofun, allowed_append_iff.mpr
          ⟨allowed_indentation _, allowed_fields (next :: others) h.2.2 indent⟩⟩⟩⟩

end

/-! ## Steps of reading -/

mutual

/-- Reading a value takes at most eight steps for each character of its text. -/
theorem weight_le (data : Data) (h : data.IsBlock) (indent : Nat) (afterHyphen : Bool)
    (hlist : afterHyphen = true → ∀ items, data ≠ .list items) :
    weight data ≤ 8 * (behind indent afterHyphen data).toList.length := by
  match data with
  | .text value =>
      rw [behind_text, weight, List.length_cons]
      omega
  | .truth value =>
      rw [behind_truth, weight, List.length_cons]
      omega
  | .number value => exact h.elim
  | .list items =>
      cases afterHyphen with
      | true => exact absurd rfl (hlist rfl items)
      | false =>
          match items with
          | [] =>
              rw [behind_empty_list]
              decide
          | item :: items =>
              -- the line end in front pays for the node and its content
              have hitems := items_weight_le (item :: items) h indent
              rw [behind_list, weight, List.length_cons, List.length_append]
              rw [itemLines] at hitems
              omega
  | .record [] => exact absurd rfl h.1
  | .record (field :: fields) =>
      have hfields := fields_weight_le (field :: fields) h.2 (indent + 2)
      rw [fieldLines] at hfields
      cases afterHyphen with
      | true =>
          rw [behind_record_in_item, weight, List.length_cons]
          omega
      | false =>
          rw [behind_record, weight, List.length_cons, List.length_append]
          omega

theorem items_weight_le (items : List Data) (h : Data.AreItems items) (indent : Nat) :
    itemsWeight items ≤ 1 + 8 * (itemLines indent items).length := by
  match items with
  | [] => exact Nat.le_add_right _ _
  | [item] =>
      have hitem := weight_le item h.2.1 indent true fun _ => h.1
      rw [item_lines_singleton, itemsWeight, itemsWeight, List.length_cons]
      omega
  | item :: next :: others =>
      have hitem := weight_le item h.2.1 indent true fun _ => h.1
      have hothers := items_weight_le (next :: others) h.2.2 indent
      rw [item_lines_cons, itemsWeight, List.length_cons, List.length_append, List.length_append]
      omega

theorem fields_weight_le (fields : List (String × Data)) (h : Data.AreFields fields)
    (indent : Nat) : fieldsWeight fields ≤ 1 + 8 * (fieldLines indent fields).length := by
  match fields with
  | [] => exact Nat.le_add_right _ _
  | [(name, value)] =>
      have hvalue := weight_le value h.2.1 indent false nofun
      rw [field_lines_singleton, fieldsWeight, fieldsWeight, List.length_append, List.length_cons]
      omega
  | (name, value) :: next :: others =>
      have hvalue := weight_le value h.2.1 indent false nofun
      have hothers := fields_weight_le (next :: others) h.2.2 indent
      rw [field_lines_cons, fieldsWeight, List.length_append, List.length_cons, List.length_append,
        List.length_append]
      omega

end

/-! ## Documents -/

variable {field : String × Data} {fields : List (String × Data)} {bound : Nat}
  {rest : List Token}

theorem reads_handles (tokens : List Token) (handles : List (String × String)) :
    Reads (Seen tokens) (modify fun reader => { reader with handles := handles }) ⟨⟩
      (Seen tokens) :=
  fun reader hreader => ⟨{ reader with handles := handles }, rfl, hreader⟩

/-- A document that starts with a block is the node of the block. -/
theorem reads_document (h : Data.AreFields (field :: fields))
    (hbound : weight (.record (field :: fields)) ≤ bound) :
    Reads (Ahead (valueTokens (.record (field :: fields)) ++ rest)) (document bound)
      (some (nodeOf (.record (field :: fields)))) (Ahead rest) := by
  have hnode := reads_value (.record (field :: fields)) ⟨List.cons_ne_nil _ _, h⟩ false rest hbound
    nofun
  rw [valueTokens, List.cons_append] at hnode ⊢
  unfold document
  refine reads_bind reads_peek (reads_bind (reads_handles _ usualHandles) ?_)
  exact reads_bind (reads_of_seen hnode) (reads_pure _)

/-- At the end of the text nothing follows. -/
theorem reads_nothing_follows :
    Reads (Ahead (.streamEnd :: rest)) (nothingFollows (bound + 1)) true
      (Seen (.streamEnd :: rest)) := by
  unfold nothingFollows
  exact reads_bind reads_peek (reads_pure _)

/-- A record that is written is read back as its node, and nothing follows it. -/
theorem document_written (h : Data.AreFields (field :: fields)) :
    Document.ofText (print (.record (field :: fields))) =
      { root := some (nodeOf (.record (field :: fields))), endsThere := true } := by
  have hallowed : (print (.record (field :: fields))).toList.all isAllowed = true :=
    List.all_eq_true.mpr (allowed_fields (field :: fields) h 0)
  have hbound : weight (.record (field :: fields)) ≤
      16 * ((print (.record (field :: fields))).toList.length + 16) := by
    have hfields := fields_weight_le (field :: fields) h 0
    change _ ≤ 1 + 8 * (print (.record (field :: fields))).toList.length at hfields
    rw [weight]
    omega
  have hrun : Reads (Ahead (valueTokens (.record (field :: fields)) ++ [.streamEnd]))
      (do
        let root ← document (16 * ((print (.record (field :: fields))).toList.length + 16))
        let endsThere ← nothingFollows
          (16 * ((print (.record (field :: fields))).toList.length + 16))
        return (root, endsThere))
      (some (nodeOf (.record (field :: fields))), true) (Seen [.streamEnd]) :=
    reads_bind (reads_document h hbound) (reads_bind reads_nothing_follows (reads_pure _))
  obtain ⟨reader, hresult, -⟩ := hrun
    { scanner := some (Scanner.start (print (.record (field :: fields))).toList), handles := [],
      named := [] } ⟨_, rfl, feeds_written field fields h⟩
  unfold Document.ofText
  simp only [hallowed, if_true, hresult]

end TemplateBundle.Yaml

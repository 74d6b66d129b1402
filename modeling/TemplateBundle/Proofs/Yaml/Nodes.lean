import TemplateBundle.Proofs.Yaml.Scanning
import TemplateBundle.Yaml.Node

/-!
# Reading written data back

The nodes of data that were written as blocks. Reading the text gives them, and finds that nothing
follows: `document_written`.
-/

namespace TemplateBundle.Yaml

open Printer Scanner

/-! ## Nodes of data -/

mutual

/-- The node of data, with each scalar in the style in which it is written. -/
def nodeOf : Data → Node
  | .text value => .scalar value (readStyle (styleOf value)) none
  | .truth value => .scalar (if value then "true" else "false") .plain none
  | .number value => .scalar (toString value) .plain none
  | .list items => .list (nodesOf items)
  | .record fields => .mapping (pairsOf fields)

/-- The nodes of the items of a list. -/
def nodesOf : List Data → List Node
  | [] => []
  | item :: others => nodeOf item :: nodesOf others

/-- The nodes of the fields of a record. -/
def pairsOf : List (String × Data) → List (Node × Node)
  | [] => []
  | (name, value) :: others => (.scalar name .plain none, nodeOf value) :: pairsOf others

end

namespace NodeReader

/-! ## Runs of a reader -/

/-- These tokens come next. -/
def Ahead (tokens : List Token) (reader : NodeReader) : Prop :=
  ∃ scanner, reader.scanner = some scanner ∧ Feeds scanner tokens

/-- These tokens come next, and the first one was looked at. -/
def Seen (tokens : List Token) (reader : NodeReader) : Prop :=
  ∃ scanner, reader.scanner = some scanner ∧ Feeds scanner tokens ∧ scanner.Settled

/-- From states as described before, the reading has a result and ends in a state as described
behind it. -/
def Reads {α : Type} (before : NodeReader → Prop) (reading : Reading α) (result : α)
    (after : NodeReader → Prop) : Prop :=
  ∀ reader, before reader → ∃ reader', reading.run reader = (result, reader') ∧ after reader'

variable {α β : Type} {before middle after : NodeReader → Prop} {reading : Reading α}
  {next : α → Reading β} {first : α} {second : β} {token : Token} {tokens rest : List Token}

theorem reads_bind (h : Reads before reading first middle)
    (hnext : Reads middle (next first) second after) :
    Reads before (reading >>= next) second after := by
  intro reader hreader
  obtain ⟨reader', hrun, hmiddle⟩ := h reader hreader
  obtain ⟨reader'', hrun', hafter⟩ := hnext reader' hmiddle
  refine ⟨reader'', ?_, hafter⟩
  rw [StateT.run_bind, hrun]
  exact hrun'

theorem reads_pure (result : α) : Reads before (pure result) result before :=
  fun reader hreader => ⟨reader, rfl, hreader⟩

theorem reads_of_seen (h : Reads (Ahead tokens) reading first after) :
    Reads (Seen tokens) reading first after :=
  fun reader ⟨scanner, hscanner, hfeeds, _⟩ => h reader ⟨scanner, hscanner, hfeeds⟩

theorem reads_peek : Reads (Ahead (token :: tokens)) peek (some token) (Seen (token :: tokens)) := by
  rintro reader ⟨scanner, hscanner, hfeeds⟩
  obtain ⟨scanner', hhead, hfeeds', hsettled⟩ := hfeeds.head
  refine ⟨{ reader with scanner := some scanner' }, ?_, scanner', rfl, hfeeds', hsettled⟩
  have hbind : reader.scanner.bind Scanner.head? = some (token, scanner') := by
    rw [hscanner]
    exact hhead
  unfold peek
  simp only [StateT.run_bind, StateT.run_get, pure_bind, hbind]
  rfl

theorem reads_skip : Reads (Seen (token :: tokens)) skip () (Ahead tokens) := by
  rintro reader ⟨scanner, hscanner, hfeeds, hsettled⟩
  refine ⟨{ reader with scanner := some scanner.take }, ?_, scanner.take, rfl,
    hfeeds.take hsettled⟩
  show ((), ({ reader with scanner := reader.scanner.map Scanner.take } : NodeReader)) = _
  rw [hscanner]
  rfl

/-! ## Parts of a node -/

/-- Data start with such a token. -/
def startsContent : Token → Bool
  | .scalar .. | .flowSequenceStart | .blockItem | .blockMappingStart => true
  | _ => false

/-- A node without a name and a tag is its content. -/
theorem reads_node {result : Node} {bound : Nat} {inBlock flatItems : Bool}
    (htoken : startsContent token = true)
    (h : Reads (Ahead (token :: tokens)) (content bound inBlock flatItems false none) result after) :
    Reads (Ahead (token :: tokens)) (node (bound + 1) inBlock flatItems) result after := by
  have hproperties : Reads (Seen (token :: tokens)) properties (none, none)
      (Seen (token :: tokens)) := by
    refine reads_bind (reads_of_seen reads_peek) ?_
    cases token with
    | scalar | flowSequenceStart | blockItem | blockMappingStart => exact reads_pure _
    | _ => exact nomatch htoken
  rw [node]
  refine reads_bind reads_peek ?_
  cases token with
  | scalar | flowSequenceStart | blockItem | blockMappingStart =>
      exact reads_bind hproperties (reads_of_seen h)
  | _ => exact nomatch htoken

theorem reads_scalar {text : String} {style : ScalarStyle} {bound : Nat} {inBlock flatItems : Bool} :
    Reads (Ahead (.scalar text style :: rest)) (node (bound + 2) inBlock flatItems)
      (.scalar text style none) (Ahead rest) := by
  refine reads_node rfl ?_
  rw [content]
  refine reads_bind reads_peek ?_
  exact reads_bind reads_skip (reads_pure _)

theorem reads_empty_list {bound : Nat} {inBlock flatItems : Bool} :
    Reads (Ahead (.flowSequenceStart :: .flowSequenceEnd :: rest)) (node (bound + 3) inBlock flatItems)
      (.list []) (Ahead rest) := by
  refine reads_node rfl ?_
  rw [content]
  refine reads_bind reads_peek (reads_bind reads_skip (reads_bind ?_ (reads_pure _)))
  have hseparated : Reads (Ahead (.flowSequenceEnd :: rest)) (separated true .flowSequenceEnd) true
      (Seen (.flowSequenceEnd :: rest)) :=
    reads_bind reads_peek (reads_pure _)
  rw [flowItems]
  refine reads_bind hseparated (reads_bind (reads_of_seen reads_peek) ?_)
  exact reads_bind reads_skip (reads_pure _)

/-- A key or a value that is not left out. -/
theorem reads_block_part {result : Node} {bound : Nat} (htoken : startsContent token = true)
    (h : Reads (Ahead (token :: tokens)) (node bound true true) result after) :
    Reads (Ahead (token :: tokens)) (blockPart (bound + 1)) result after := by
  rw [blockPart]
  refine reads_bind reads_peek ?_
  cases token with
  | scalar | flowSequenceStart | blockItem | blockMappingStart => exact reads_of_seen h
  | _ => exact nomatch htoken

/-- Behind its last item a list ends at any other token. -/
theorem reads_flat_list_end {bound : Nat} (htoken : token ≠ .blockItem) :
    Reads (Ahead (token :: tokens)) (flatList (bound + 1)) [] (Ahead (token :: tokens)) := by
  rw [flatList]
  refine reads_bind reads_peek (reads_of_seen ?_)
  cases token with
  | blockItem => exact absurd rfl htoken
  | _ => exact reads_pure _

/-- A further item of a list, which is not itself a list. -/
theorem reads_flat_list_item {item : Node} {others : List Node} {bound : Nat}
    (htoken : startsContent token = true) (hlist : token ≠ .blockItem)
    (hitem : Reads (Ahead (token :: tokens)) (node bound true false) item (Ahead rest))
    (hothers : Reads (Ahead rest) (flatList bound) others after) :
    Reads (Ahead (.blockItem :: token :: tokens)) (flatList (bound + 1)) (item :: others) after := by
  rw [flatList]
  refine reads_bind reads_peek (reads_bind reads_skip (reads_bind reads_peek ?_))
  cases token with
  | blockItem => exact absurd rfl hlist
  | scalar | flowSequenceStart | blockMappingStart =>
      exact reads_bind (reads_of_seen hitem) (reads_bind hothers (reads_pure _))
  | _ => exact nomatch htoken

/-- Behind its last field a record ends. -/
theorem reads_block_pairs_end {bound : Nat} :
    Reads (Ahead (.blockEnd :: rest)) (blockPairs (bound + 1)) [] (Ahead rest) := by
  rw [blockPairs]
  exact reads_bind reads_peek (reads_bind reads_skip (reads_pure _))

/-- A further field of a record. -/
theorem reads_block_pairs_field {name : String} {value : Node} {others : List (Node × Node)}
    {bound : Nat} (htoken : startsContent token = true)
    (hvalue : Reads (Ahead (token :: tokens)) (node (bound + 1) true true) value (Ahead rest))
    (hothers : Reads (Ahead rest) (blockPairs (bound + 3)) others after) :
    Reads (Ahead (.key :: .scalar name .plain :: .value :: token :: tokens))
      (blockPairs (bound + 4)) ((.scalar name .plain none, value) :: others) after := by
  have hkey : Reads (Ahead (.scalar name .plain :: .value :: token :: tokens))
      (blockPart (bound + 3)) (.scalar name .plain none) (Ahead (.value :: token :: tokens)) :=
    reads_block_part rfl reads_scalar
  have hbehind : Reads (Ahead (.value :: token :: tokens)) (blockValue (bound + 3)) value
      (Ahead rest) := by
    rw [blockValue]
    exact reads_bind reads_peek (reads_bind reads_skip (reads_block_part htoken hvalue))
  rw [blockPairs]
  refine reads_bind reads_peek (reads_bind reads_skip (reads_bind hkey (reads_bind hbehind ?_)))
  exact reads_bind hothers (reads_pure _)

/-! ## Nodes of written data -/

mutual

/-- How many steps it takes at most to read the data. -/
def weight : Data → Nat
  | .text _ | .truth _ | .number _ => 2
  | .list items => 2 + itemsWeight items
  | .record fields => 2 + fieldsWeight fields

/-- How many steps it takes at most to read the items of a list. -/
def itemsWeight : List Data → Nat
  | [] => 1
  | item :: others => 1 + weight item + itemsWeight others

/-- How many steps it takes at most to read the fields of a record. -/
def fieldsWeight : List (String × Data) → Nat
  | [] => 1
  | (_, value) :: others => 4 + weight value + fieldsWeight others

end

/-- Data start with a token that starts a node. It is the sign of an item only before a list. -/
theorem value_tokens_cons (data : Data) (h : data.IsBlock) :
    ∃ token others, valueTokens data = token :: others ∧ startsContent token = true ∧
      ((∀ items, data ≠ .list items) → token ≠ .blockItem) := by
  cases data with
  | text value => exact ⟨_, _, rfl, rfl, fun _ => Token.noConfusion⟩
  | truth value => exact ⟨_, _, rfl, rfl, fun _ => Token.noConfusion⟩
  | number value => exact h.elim
  | list items =>
      cases items with
      | nil => exact ⟨_, _, rfl, rfl, fun _ => Token.noConfusion⟩
      | cons item items => exact ⟨_, _, rfl, rfl, fun hlist => absurd rfl (hlist _)⟩
  | record fields => exact ⟨_, _, rfl, rfl, fun _ => Token.noConfusion⟩


/-- The tokens behind a field start with a key or with the end of the record. -/
theorem field_tokens_cons (fields : List (String × Data)) (rest : List Token) :
    ∃ token others, fieldTokens fields ++ .blockEnd :: rest = token :: others ∧
      token ≠ .blockItem := by
  cases fields with
  | nil => exact ⟨_, _, rfl, Token.noConfusion⟩
  | cons field fields => exact ⟨_, _, rfl, Token.noConfusion⟩

mutual

/-- The tokens of data are read as its node. A list of items ends only at another token. -/
theorem reads_value (data : Data) (h : data.IsBlock) (flatItems : Bool) (rest : List Token)
    {bound : Nat} (hbound : weight data ≤ bound)
    (hlist : ∀ items, data = .list items →
      flatItems = true ∧ ∃ token others, rest = token :: others ∧ token ≠ .blockItem) :
    Reads (Ahead (valueTokens data ++ rest)) (node bound true flatItems) (nodeOf data)
      (Ahead rest) := by
  match data with
  | .text value =>
      obtain ⟨bound, rfl⟩ := Nat.exists_eq_add_of_le' hbound
      exact reads_scalar
  | .truth value =>
      obtain ⟨bound, rfl⟩ := Nat.exists_eq_add_of_le' hbound
      exact reads_scalar
  | .number value => exact h.elim
  | .list [] =>
      obtain ⟨bound, rfl⟩ := Nat.exists_eq_add_of_le' hbound
      exact reads_empty_list
  | .list (item :: others) =>
      obtain ⟨rfl, htoken⟩ := hlist _ rfl
      -- the node and its content take a step each
      have hpositive : 2 ≤ bound := Nat.le_trans (Nat.le_add_right _ _) hbound
      obtain ⟨bound, rfl⟩ := Nat.exists_eq_add_of_le' hpositive
      rw [weight] at hbound
      have hitems := reads_items (item :: others) h rest (Nat.le_of_add_le_add_right
        (Nat.add_comm 2 _ ▸ hbound)) htoken
      refine reads_node rfl ?_
      rw [content]
      exact reads_bind reads_peek (reads_bind (reads_of_seen hitems) (reads_pure _))
  | .record fields =>
      have hpositive : 2 ≤ bound := Nat.le_trans (Nat.le_add_right _ _) hbound
      obtain ⟨bound, rfl⟩ := Nat.exists_eq_add_of_le' hpositive
      rw [weight] at hbound
      have hfields := reads_fields fields h.2 rest (Nat.le_of_add_le_add_right
        (Nat.add_comm 2 _ ▸ hbound))
      rw [valueTokens, List.cons_append, List.append_assoc, List.singleton_append]
      refine reads_node rfl ?_
      rw [content]
      refine reads_bind reads_peek (reads_bind reads_skip ?_)
      exact reads_bind hfields (reads_pure _)

/-- The tokens of items are read as their nodes, up to another token. -/
theorem reads_items (items : List Data) (h : Data.AreItems items) (rest : List Token) {bound : Nat}
    (hbound : itemsWeight items ≤ bound)
    (hrest : ∃ token others, rest = token :: others ∧ token ≠ .blockItem) :
    Reads (Ahead (itemTokens items ++ rest)) (flatList bound) (nodesOf items) (Ahead rest) := by
  match items with
  | [] =>
      obtain ⟨token, others, rfl, htoken⟩ := hrest
      obtain ⟨bound, rfl⟩ := Nat.exists_eq_add_of_le' hbound
      exact reads_flat_list_end htoken
  | item :: others =>
      obtain ⟨hlist, hitem, hothers⟩ := h
      have hpositive : 1 ≤ bound := by
        rw [itemsWeight] at hbound
        omega
      obtain ⟨bound, rfl⟩ := Nat.exists_eq_add_of_le' hpositive
      rw [itemsWeight] at hbound
      have hfirst := reads_value item hitem false (itemTokens others ++ rest)
        (by omega : weight item ≤ bound) fun items heq => absurd heq (hlist items)
      have hrun := reads_items others hothers rest (by omega : itemsWeight others ≤ bound) hrest
      obtain ⟨token, behind, htokens, hstarts, hne⟩ := value_tokens_cons item hitem
      rw [htokens, List.cons_append] at hfirst
      rw [itemTokens, htokens, List.cons_append, List.cons_append, List.cons_append,
        List.append_assoc]
      exact reads_flat_list_item hstarts (hne hlist) hfirst hrun

/-- The tokens of fields are read as pairs of nodes, up to the end of the record. -/
theorem reads_fields (fields : List (String × Data)) (h : Data.AreFields fields) (rest : List Token)
    {bound : Nat} (hbound : fieldsWeight fields ≤ bound) :
    Reads (Ahead (fieldTokens fields ++ .blockEnd :: rest)) (blockPairs bound) (pairsOf fields)
      (Ahead rest) := by
  match fields with
  | [] =>
      obtain ⟨bound, rfl⟩ := Nat.exists_eq_add_of_le' hbound
      exact reads_block_pairs_end
  | (name, value) :: others =>
      obtain ⟨-, hvalue, hothers⟩ := h
      have hpositive : 4 ≤ bound := by
        rw [fieldsWeight] at hbound
        omega
      obtain ⟨bound, rfl⟩ := Nat.exists_eq_add_of_le' hpositive
      rw [fieldsWeight] at hbound
      have hfirst := reads_value value hvalue true (fieldTokens others ++ .blockEnd :: rest)
        (by omega : weight value ≤ bound + 1) fun items heq => ⟨rfl, field_tokens_cons others rest⟩
      have hrun := reads_fields others hothers rest (by omega : fieldsWeight others ≤ bound + 3)
      obtain ⟨token, behind, htokens, hstarts, -⟩ := value_tokens_cons value hvalue
      rw [htokens, List.cons_append] at hfirst
      rw [fieldTokens, htokens]
      simp only [List.cons_append, List.append_assoc]
      exact reads_block_pairs_field hstarts hfirst hrun

end

end NodeReader

end TemplateBundle.Yaml

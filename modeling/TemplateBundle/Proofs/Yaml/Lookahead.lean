import Mathlib.Tactic.SplitIfs
import TemplateBundle.Yaml.Scanner

/-!
# Looking ahead

The order in which tokens are read and taken does not matter: a scanner reads on in the same way
whether its first token was taken or not (`Held.fetch`). So a scanner that comes to an end hands out
the tokens that it has in the end, one after the other (`Feeds.head`, `Feeds.take`).
-/

namespace TemplateBundle.Yaml.Scanner

variable {token : Token} {s r m f : Scanner}

/-! ## A token that was not taken -/

/-- Keys that are still possible belong to tokens that were not taken. -/
def Sound (scanner : Scanner) : Prop :=
  ∀ key, some key ∈ scanner.keys → scanner.taken ≤ key.number

/-- The scanner as it was before the token in front was taken. -/
def hold (token : Token) (scanner : Scanner) : Scanner :=
  { scanner with tokens := token :: scanner.tokens, taken := scanner.taken - 1 }

/-- The first scanner holds a token that was taken from the second one. -/
structure Held (token : Token) (s r : Scanner) : Prop where
  eq : s = r.hold token
  taken : 0 < r.taken
  sound : r.Sound

/-- Both have no result, or the results of both are related. -/
abbrev BothHeld (token : Token) : Option Scanner → Option Scanner → Prop :=
  Option.Rel (Held token)

/-- Steps behind related results are related if they are so from related scanners. -/
theorem both_held_bind {x y : Option Scanner} {next : Scanner → Option Scanner}
    (h : BothHeld token x y)
    (hnext : ∀ s r, Held token s r → BothHeld token (next s) (next r)) :
    BothHeld token (x.bind next) (y.bind next) := by
  cases h with
  | none => exact .none
  | some h => exact hnext _ _ h

/-- Both go on with what is read from the text. -/
theorem both_held_read {α : Type} (read : Option α) {next next' : α → Option Scanner}
    (hnext : ∀ a, BothHeld token (next a) (next' a)) :
    BothHeld token (read.bind next) (read.bind next') := by
  cases read with
  | none => exact .none
  | some a => exact hnext a

theorem both_held_ite {p : Prop} [Decidable p] {x y x' y' : Option Scanner}
    (h : BothHeld token x y) (h' : BothHeld token x' y') :
    BothHeld token (if p then x else x') (if p then y else y') := by
  split_ifs
  · exact h
  · exact h'

/-- A place without a key leaves the keys as late as they are. -/
theorem late_of_none_cons {number : Nat} {keys : List (Option PossibleKey)}
    (h : ∀ key, some key ∈ keys → number ≤ key.number) :
    ∀ key, some key ∈ none :: keys → number ≤ key.number := by
  intro key hkey
  rcases List.mem_cons.mp hkey with hkey | hkey
  · cases hkey
  · exact h key hkey

/-- Dropping a key takes no token. -/
theorem taken_of_drop_key (h : s.dropKey = some r) : r.taken = s.taken := by
  unfold dropKey at h
  split at h
  · split_ifs at h
    obtain rfl := Option.some.inj h
    rfl
  · obtain rfl := Option.some.inj h
    rfl

namespace Held

variable (h : Held token s r)

include h

theorem place_eq : s.place = r.place := by rw [h.eq]; rfl

theorem depth_eq : s.depth = r.depth := by rw [h.eq]; rfl

theorem indent_eq : s.indent = r.indent := by rw [h.eq]; rfl

theorem outer_eq : s.outer = r.outer := by rw [h.eq]; rfl

theorem key_allowed_eq : s.keyAllowed = r.keyAllowed := by rw [h.eq]; rfl

theorem keys_eq : s.keys = r.keys := by rw [h.eq]; rfl

theorem ended_eq : s.ended = r.ended := by rw [h.eq]; rfl

theorem tokens_eq : s.tokens = token :: r.tokens := by rw [h.eq]; rfl

/-- The number of the next token is the same. -/
theorem next_number_eq : s.taken + s.tokens.length = r.taken + r.tokens.length := by
  have htaken := h.taken
  rw [h.eq]
  simp only [hold, List.length_cons]
  omega

/-! ## Parts of a step -/

theorem push (added : Token) : Held token (s.push added) (r.push added) where
  eq := by rw [h.eq]; rfl
  taken := h.taken
  sound := h.sound

theorem forward (count : Nat) : Held token (s.forward count) (r.forward count) where
  eq := by rw [h.eq]; rfl
  taken := h.taken
  sound := h.sound

theorem moveTo (place : Place) :
    Held token { s with place := place } { r with place := place } where
  eq := by rw [h.eq]; rfl
  taken := h.taken
  sound := h.sound

theorem allowKey (allowed : Bool) : Held token (s.allowKey allowed) (r.allowKey allowed) where
  eq := by rw [h.eq]; rfl
  taken := h.taken
  sound := h.sound

/-- Keys may be replaced by ones that are as late. -/
theorem withKeys {keys : List (Option PossibleKey)}
    (hkeys : ∀ key, some key ∈ keys → r.taken ≤ key.number) :
    Held token { s with keys := keys } { r with keys := keys } where
  eq := by rw [h.eq]; rfl
  taken := h.taken
  sound := hkeys

theorem withBrackets (depth : Nat) {keys : List (Option PossibleKey)}
    (hkeys : ∀ key, some key ∈ keys → r.taken ≤ key.number) :
    Held token { s with keys := keys, depth := depth } { r with keys := keys, depth := depth } where
  eq := by rw [h.eq]; rfl
  taken := h.taken
  sound := hkeys

theorem withBlocks (indent : Int) (outer : List Int) :
    Held token { s with indent := indent, outer := outer }
      { r with indent := indent, outer := outer } where
  eq := by rw [h.eq]; rfl
  taken := h.taken
  sound := h.sound

theorem withEnd (ended : Bool) :
    Held token { s with ended := ended } { r with ended := ended } where
  eq := by rw [h.eq]; rfl
  taken := h.taken
  sound := h.sound

/-- A token that stands before one that was not taken has the same place in both. -/
theorem insertAt {number : Nat} (hnumber : r.taken ≤ number) (added : Token) :
    Held token (s.insertAt number added) (r.insertAt number added) where
  eq := by
    have hbefore : number - (r.taken - 1) = number - r.taken + 1 := by
      have htaken := h.taken
      omega
    rw [h.eq]
    simp only [Scanner.insertAt, hold, hbefore, List.take_succ_cons, List.drop_succ_cons,
      List.cons_append]
  taken := h.taken
  sound := h.sound

theorem dropKey : BothHeld token s.dropKey r.dropKey := by
  unfold Scanner.dropKey
  rw [h.keys_eq]
  split
  · rename_i key others heq
    have hothers : ∀ other, some other ∈ others → r.taken ≤ other.number := fun other hother =>
      h.sound other (by rw [heq]; exact List.mem_cons_of_mem _ hother)
    exact both_held_ite .none (.some (h.withKeys (late_of_none_cons hothers)))
  · exact .some h

theorem saveKey : BothHeld token s.saveKey r.saveKey := by
  have hdrop := h.dropKey
  unfold Scanner.saveKey
  rw [h.key_allowed_eq, h.depth_eq, h.indent_eq, h.place_eq, h.next_number_eq]
  refine both_held_ite ?_ (.some h)
  generalize s.dropKey = x at hdrop ⊢
  generalize hr : r.dropKey = y at hdrop ⊢
  cases hdrop with
  | none => exact .none
  | some h' =>
      refine .some (h'.keys_eq ▸ h'.withKeys fun key hkey => ?_)
      rcases List.mem_cons.mp hkey with hkey | hkey
      · rw [Option.some.inj hkey, taken_of_drop_key hr]
        exact Nat.le_add_right _ _
      · exact h'.sound key (h'.keys_eq ▸ List.mem_of_mem_tail hkey)

theorem openBlock (column : Nat) {number : Nat} (hnumber : r.taken ≤ number) (opened : Token) :
    Held token (s.openBlock column number opened) (r.openBlock column number opened) := by
  unfold Scanner.openBlock
  rw [h.depth_eq, h.indent_eq, h.outer_eq]
  split_ifs
  · exact (h.insertAt hnumber opened).withBlocks column (r.indent :: r.outer)
  · exact h

theorem openBlockHere (opened : Token) :
    Held token (s.openBlockHere opened) (r.openBlockHere opened) := by
  unfold Scanner.openBlockHere
  rw [h.place_eq, h.next_number_eq]
  exact h.openBlock _ (Nat.le_add_right _ _) opened

omit h in
theorem closeBlocks (column : Int) (outer : List Int) (h : Held token s r) :
    Held token (Scanner.closeBlocks column outer s) (Scanner.closeBlocks column outer r) := by
  induction outer generalizing s r with
  | nil => exact h
  | cons indent others ih =>
      unfold Scanner.closeBlocks
      rw [h.indent_eq]
      split_ifs
      · exact ih ((h.push .blockEnd).withBlocks indent others)
      · exact h

theorem closeTo (column : Int) : Held token (s.closeTo column) (r.closeTo column) := by
  unfold Scanner.closeTo
  rw [h.depth_eq, h.outer_eq]
  split_ifs
  · exact closeBlocks column r.outer h
  · exact h

/-! ## Steps -/

theorem fetchEnd : BothHeld token s.fetchEnd r.fetchEnd :=
  both_held_bind (h.closeTo (-1)).dropKey fun _ _ h =>
    .some (((h.push .streamEnd).allowKey false).withEnd true)

theorem fetchBound (added : Token) : BothHeld token (s.fetchBound added) (r.fetchBound added) :=
  both_held_bind (h.closeTo (-1)).dropKey fun _ _ h =>
    .some (((h.push added).allowKey false).forward 3)

theorem fetchOpening (added : Token) :
    BothHeld token (s.fetchOpening added) (r.fetchOpening added) := by
  refine both_held_bind h.saveKey fun s r h => ?_
  rw [h.keys_eq, h.depth_eq]
  have hopened := h.withBrackets (r.depth + 1) (late_of_none_cons h.sound)
  exact .some (((hopened.push added).allowKey true).forward 1)

theorem fetchClosing (added : Token) :
    BothHeld token (s.fetchClosing added) (r.fetchClosing added) := by
  refine both_held_bind h.dropKey fun s r h => ?_
  rw [h.keys_eq, h.depth_eq]
  split_ifs
  · exact .some (((h.push added).allowKey false).forward 1)
  · have hkeys : ∀ key, some key ∈ r.keys.tail → r.taken ≤ key.number :=
      fun key hkey => h.sound key (List.mem_of_mem_tail hkey)
    exact .some ((((h.withBrackets (r.depth - 1) hkeys).push added).allowKey false).forward 1)

theorem fetchFlowItem : BothHeld token s.fetchFlowItem r.fetchFlowItem :=
  both_held_bind h.dropKey fun _ _ h => .some (((h.push .flowItem).allowKey true).forward 1)

theorem fetchBlockItem : BothHeld token s.fetchBlockItem r.fetchBlockItem := by
  unfold Scanner.fetchBlockItem
  rw [h.depth_eq, h.key_allowed_eq]
  refine both_held_ite .none ?_
  exact both_held_bind (h.openBlockHere _).dropKey fun _ _ h =>
    .some (((h.push .blockItem).allowKey true).forward 1)

theorem fetchKey : BothHeld token s.fetchKey r.fetchKey := by
  unfold Scanner.fetchKey
  rw [h.depth_eq, h.key_allowed_eq]
  refine both_held_ite .none ?_
  refine both_held_bind (h.openBlockHere _).dropKey fun s r h => ?_
  rw [h.depth_eq]
  exact .some (((h.push .key).allowKey (r.depth == 0)).forward 1)

theorem fetchValue : BothHeld token s.fetchValue r.fetchValue := by
  unfold Scanner.fetchValue
  rw [h.keys_eq]
  split
  · rename_i key others heq
    have hnumber : r.taken ≤ key.number := h.sound key (by rw [heq]; exact List.mem_cons_self)
    have hothers : ∀ other, some other ∈ others → r.taken ≤ other.number := fun other hother =>
      h.sound other (by rw [heq]; exact List.mem_cons_of_mem _ hother)
    have hinsert := (h.insertAt hnumber .key).withKeys (late_of_none_cons hothers)
    have hopen := hinsert.openBlock key.mark.column hnumber .blockMappingStart
    exact .some (((hopen.push .value).allowKey false).forward 1)
  · rw [h.depth_eq, h.key_allowed_eq]
    refine both_held_ite .none ?_
    have hopen := h.openBlockHere .blockMappingStart
    simp only [hopen.depth_eq]
    exact .some (((hopen.push .value).allowKey _).forward 1)

theorem fetchAnchor (made : String → Token) :
    BothHeld token (s.fetchAnchor made) (r.fetchAnchor made) := by
  refine both_held_bind h.saveKey fun s r h => ?_
  rw [h.place_eq]
  exact both_held_read _ fun name => .some (((h.push _).allowKey false).forward _)

theorem fetchTag : BothHeld token s.fetchTag r.fetchTag := by
  refine both_held_bind h.saveKey fun s r h => ?_
  rw [h.place_eq, h.depth_eq]
  refine both_held_read _ fun read => both_held_ite .none ?_
  exact .some (((h.push _).allowKey false).forward _)

theorem fetchBlock (isLiteral : Bool) :
    BothHeld token (s.fetchBlock isLiteral) (r.fetchBlock isLiteral) := by
  refine both_held_bind h.dropKey fun s r h => ?_
  rw [h.indent_eq, h.place_eq]
  exact both_held_read _ fun read => .some (((h.push _).allowKey true).moveTo read.after)

theorem fetchQuoted : BothHeld token s.fetchQuoted r.fetchQuoted := by
  refine both_held_bind h.saveKey fun s r h => ?_
  rw [h.place_eq]
  exact both_held_read _ fun read => .some (((h.push _).allowKey false).moveTo read.after)

theorem fetchPlain : BothHeld token s.fetchPlain r.fetchPlain := by
  refine both_held_bind h.saveKey fun s r h => ?_
  rw [h.place_eq, h.depth_eq, h.indent_eq]
  exact both_held_read _ fun read => .some (((h.push _).allowKey _).moveTo read.after)

theorem fetchDirective : BothHeld token s.fetchDirective r.fetchDirective := by
  refine both_held_bind (h.closeTo (-1)).dropKey fun s r h => ?_
  rw [h.place_eq]
  exact both_held_read _ fun read => .some (((h.push read).allowKey false).forward _)

theorem fetchToken : BothHeld token s.fetchToken r.fetchToken := by
  unfold Scanner.fetchToken
  rw [h.place_eq, h.depth_eq]
  split
  · exact h.fetchEnd
  · refine both_held_ite h.fetchDirective (both_held_ite (h.fetchBound _) ?_)
    refine both_held_ite (h.fetchOpening _) (both_held_ite (h.fetchOpening _) ?_)
    refine both_held_ite (h.fetchClosing _) (both_held_ite (h.fetchClosing _) ?_)
    refine both_held_ite h.fetchFlowItem (both_held_ite h.fetchBlockItem ?_)
    refine both_held_ite h.fetchKey (both_held_ite h.fetchValue ?_)
    refine both_held_ite (h.fetchAnchor _) (both_held_ite (h.fetchAnchor _) ?_)
    refine both_held_ite h.fetchTag (both_held_ite (h.fetchBlock _) ?_)
    refine both_held_ite (h.fetchBlock _) (both_held_ite h.fetchQuoted ?_)
    exact both_held_ite h.fetchPlain .none

end Held

/-! ## Keys that are ruled out -/

/-- The key, unless the text up to a mark rules it out. -/
def freshKey? (mark : Mark) : Option PossibleKey → Option (Option PossibleKey)
  | none => some none
  | some key =>
      if PossibleKey.isStale key mark then if key.required then none else some none
      else some (some key)

theorem drop_stale_eq (scanner : Scanner) :
    scanner.dropStale = (scanner.keys.mapM (freshKey? scanner.place.mark)).map fun keys =>
      { scanner with keys := keys } := by
  rw [Option.map_eq_bind]
  rfl

end Scanner

/-- The second mark does not stand before the first one. -/
def Mark.UpTo (first second : Mark) : Prop :=
  first.line ≤ second.line ∧ first.index ≤ second.index

theorem Mark.UpTo.trans {first second third : Mark} (h : first.UpTo second)
    (h' : second.UpTo third) : first.UpTo third :=
  ⟨Nat.le_trans h.1 h'.1, Nat.le_trans h.2 h'.2⟩

theorem Mark.up_to_next (mark : Mark) : mark.UpTo mark.next :=
  ⟨Nat.le_refl _, Nat.le_succ _⟩

theorem Mark.up_to_next_line (mark : Mark) (count : Nat) : mark.UpTo (mark.nextLine count) :=
  ⟨Nat.le_succ _, Nat.le_add_right _ _⟩

namespace Scanner

/-- The gap between two tokens does not lead back. -/
theorem up_to_skip_gap (inFlow inComment : Bool) (rest : List Char) (mark : Mark) (allowed : Bool) :
    mark.UpTo (skipGap inFlow inComment rest mark allowed).1.mark := by
  fun_induction skipGap inFlow inComment rest mark allowed with
  | case1 inFlow inComment mark allowed => exact ⟨Nat.le_refl _, Nat.le_refl _⟩
  | case2 inFlow inComment rest mark allowed ih => exact (mark.up_to_next_line 2).trans ih
  | case3 inFlow inComment c rest mark allowed hreturn hbreak ih =>
      exact (mark.up_to_next_line 1).trans ih
  | case4 inFlow inComment c rest mark allowed hreturn hbreak hgap ih =>
      exact mark.up_to_next.trans ih
  | case5 inFlow inComment c rest mark allowed hreturn hbreak hgap hcomment ih =>
      exact mark.up_to_next.trans ih
  | case6 inFlow inComment c rest mark allowed hreturn hbreak hgap hcomment =>
      exact ⟨Nat.le_refl _, Nat.le_refl _⟩

/-- A key that is ruled out stays so. -/
theorem is_stale_of_up_to {key : PossibleKey} {mark later : Mark} (h : mark.UpTo later)
    (hstale : PossibleKey.isStale key mark = true) : PossibleKey.isStale key later = true := by
  unfold PossibleKey.isStale at hstale ⊢
  obtain ⟨hline, hindex⟩ := h
  simp only [Bool.or_eq_true, decide_eq_true_eq] at hstale ⊢
  omega

/-- What is left of a key later on is what is left of it if it is looked at in between, too. -/
theorem fresh_key_of_up_to {mark later : Mark} (h : mark.UpTo later)
    {key left : Option PossibleKey} (hleft : freshKey? later key = some left) :
    ∃ middle, freshKey? mark key = some middle ∧ freshKey? later middle = some left := by
  cases key with
  | none => exact ⟨none, rfl, hleft⟩
  | some key =>
      by_cases hstale : PossibleKey.isStale key mark = true
      · rw [freshKey?, if_pos (is_stale_of_up_to h hstale)] at hleft
        rw [freshKey?, if_pos hstale]
        split_ifs at hleft ⊢
        exact ⟨none, rfl, hleft⟩
      · exact ⟨some key, by rw [freshKey?, if_neg hstale], hleft⟩

theorem fresh_keys_cons_iff {mark : Mark} {key : Option PossibleKey}
    {keys left : List (Option PossibleKey)} :
    (key :: keys).mapM (freshKey? mark) = some left ↔
      ∃ first, freshKey? mark key = some first ∧
        ∃ others, keys.mapM (freshKey? mark) = some others ∧ first :: others = left := by
  simp [List.mapM_cons, Option.bind_eq_some_iff]

theorem fresh_keys_of_up_to {mark later : Mark} (h : mark.UpTo later)
    {keys left : List (Option PossibleKey)} (hleft : keys.mapM (freshKey? later) = some left) :
    ∃ middle, keys.mapM (freshKey? mark) = some middle ∧
      middle.mapM (freshKey? later) = some left := by
  induction keys generalizing left with
  | nil => exact ⟨[], rfl, hleft⟩
  | cons key keys ih =>
      obtain ⟨first, hfirst, others, hothers, rfl⟩ := fresh_keys_cons_iff.mp hleft
      obtain ⟨key', hkey, hlater⟩ := fresh_key_of_up_to h hfirst
      obtain ⟨keys', hkeys, hrest⟩ := ih hothers
      exact ⟨key' :: keys', fresh_keys_cons_iff.mpr ⟨key', hkey, keys', hkeys, rfl⟩,
        fresh_keys_cons_iff.mpr ⟨first, hlater, others, hrest, rfl⟩⟩

/-- No key is made up. -/
theorem mem_of_fresh_keys {mark : Mark} {keys left : List (Option PossibleKey)} {key : PossibleKey}
    (h : keys.mapM (freshKey? mark) = some left) (hkey : some key ∈ left) : some key ∈ keys := by
  induction keys generalizing left with
  | nil =>
      obtain rfl := Option.some.inj h
      cases hkey
  | cons first keys ih =>
      obtain ⟨first', hfirst, others, hothers, rfl⟩ := fresh_keys_cons_iff.mp h
      rcases List.mem_cons.mp hkey with rfl | hkey
      · have hsame : first = some key := by
          unfold freshKey? at hfirst
          split at hfirst
          · cases hfirst
          · split_ifs at hfirst
            · cases hfirst
            · exact Option.some.inj hfirst
        rw [hsame]
        exact List.mem_cons_self
      · exact List.mem_cons_of_mem _ (ih hothers hkey)

/-! ## Reading on -/

variable {token : Token} {s r m f : Scanner}

/-- The scanner behind the gap in front of it. -/
def passGap (scanner : Scanner) : Scanner :=
  let passed :=
    skipGap (scanner.depth != 0) false scanner.place.rest scanner.place.mark scanner.keyAllowed
  { scanner with place := passed.1, keyAllowed := passed.2 }

/-- Reading on in steps: the gap, the keys that it rules out, the blocks that it ends, the token. -/
theorem fetch_eq (scanner : Scanner) :
    scanner.fetch = scanner.passGap.dropStale.bind fun scanner =>
      (scanner.closeTo scanner.place.mark.column).fetchToken := rfl

theorem Held.passGap (h : Held token s r) : Held token s.passGap r.passGap := by
  have hsame : skipGap (s.depth != 0) false s.place.rest s.place.mark s.keyAllowed =
      skipGap (r.depth != 0) false r.place.rest r.place.mark r.keyAllowed := by
    rw [h.depth_eq, h.place_eq, h.key_allowed_eq]
  unfold Scanner.passGap
  rw [hsame]
  exact (h.moveTo _).allowKey _

theorem Held.dropStale (h : Held token s r) : BothHeld token s.dropStale r.dropStale := by
  have heq : s.dropStale = (r.keys.mapM (freshKey? r.place.mark)).map fun keys =>
      { s with keys := keys } := by
    rw [← h.keys_eq, ← h.place_eq]
    exact drop_stale_eq s
  rw [heq, drop_stale_eq]
  cases hkeys : r.keys.mapM (freshKey? r.place.mark) with
  | none => exact .none
  | some keys => exact .some (h.withKeys fun key hkey => h.sound key (mem_of_fresh_keys hkeys hkey))

/-- A scanner reads on in the same way whether its first token was taken or not. -/
theorem Held.fetch (h : Held token s r) : BothHeld token s.fetch r.fetch := by
  rw [fetch_eq, fetch_eq]
  refine both_held_bind h.passGap.dropStale fun s r h => ?_
  rw [h.place_eq]
  exact (h.closeTo _).fetchToken

/-- If reading on succeeds, it does so too once keys are dropped that are ruled out before. -/
theorem fetch_of_drop_stale (h : s.fetch = some m) :
    ∃ keys, s.dropStale = some { s with keys := keys } ∧
      ({ s with keys := keys } : Scanner).dropStale = some { s with keys := keys } ∧
      ({ s with keys := keys } : Scanner).fetch = some m ∧
      ∀ key, some key ∈ keys → some key ∈ s.keys := by
  rw [fetch_eq, Option.bind_eq_some_iff] at h
  obtain ⟨passed, hpassed, hm⟩ := h
  rw [drop_stale_eq, Option.map_eq_some_iff] at hpassed
  obtain ⟨left, hleft, rfl⟩ := hpassed
  change s.keys.mapM (freshKey? s.passGap.place.mark) = some left at hleft
  have hlater : s.place.mark.UpTo s.passGap.place.mark := up_to_skip_gap _ _ _ _ _
  obtain ⟨keys, hkeys, hrest⟩ := fresh_keys_of_up_to hlater hleft
  obtain ⟨keys', hkeys', hagain⟩ := fresh_keys_of_up_to
    (⟨Nat.le_refl _, Nat.le_refl _⟩ : s.place.mark.UpTo s.place.mark) hkeys
  obtain rfl := Option.some.inj (hkeys.symm.trans hkeys')
  refine ⟨keys, ?_, ?_, ?_, fun key hkey => mem_of_fresh_keys hkeys hkey⟩
  · rw [drop_stale_eq, hkeys]
    rfl
  · rw [drop_stale_eq]
    exact congrArg (Option.map _) hagain
  · rw [fetch_eq, drop_stale_eq]
    refine Eq.trans ?_ hm
    exact congrArg (fun keys => (Option.map _ keys).bind _) hrest

/-! ## Scanners that come to an end -/

/-- Reading on leads from the first scanner to the second one, which has read the whole text. -/
inductive Finishes : Scanner → Scanner → Prop where
  | ended {s : Scanner} (hended : s.ended = true) (hkeys : ∀ key ∈ s.keys, key = none) :
      Finishes s s
  | step {s m f : Scanner} (hended : s.ended = false) (hsound : s.Sound) (hfetch : s.fetch = some m)
      (hshorter : m.ended = true ∨ m.place.rest.length < s.place.rest.length) (h : Finishes m f) :
      Finishes s f

theorem Finishes.sound (h : Finishes s f) : s.Sound := by
  cases h with
  | ended hended hkeys => exact fun key hkey => nomatch hkeys _ hkey
  | step hended hsound hfetch hshorter h => exact hsound

/-- A token that was taken is the first one that was read. -/
theorem Finishes.take (h : Finishes s f) (hheld : Held token s r) :
    ∃ f', Finishes r f' ∧ f.tokens = token :: f'.tokens := by
  induction h generalizing r with
  | ended hended hkeys =>
      refine ⟨r, .ended ?_ ?_, hheld.tokens_eq⟩
      · rw [← hheld.ended_eq]
        exact hended
      · rw [← hheld.keys_eq]
        exact hkeys
  | @step s m f hended hsound hfetch hshorter h ih =>
      have hboth := hheld.fetch
      rw [hfetch] at hboth
      generalize hnext : r.fetch = next at hboth
      cases hboth with
      | @some _ r' hheld' =>
          obtain ⟨f', hf', htokens⟩ := ih hheld'
          rw [hheld.ended_eq] at hended
          rw [hheld.place_eq, hheld'.place_eq, hheld'.ended_eq] at hshorter
          exact ⟨f', .step hended hheld.sound hnext hshorter hf', htokens⟩

/-- The first token is certain, and looking at it once more changes nothing. -/
structure Settled (scanner : Scanner) : Prop where
  filled : scanner.tokens ≠ []
  fresh : scanner.dropStale = some scanner
  certain : scanner.headIsOpen = false

/-- How often it may be necessary to read on. -/
def steps (scanner : Scanner) : Nat :=
  if scanner.ended then 1 else scanner.place.rest.length + 2

theorem steps_lt (hended : s.ended = false)
    (h : m.ended = true ∨ m.place.rest.length < s.place.rest.length) : m.steps < s.steps := by
  rw [steps, steps, hended, if_neg Bool.false_ne_true]
  split_ifs with hm
  · omega
  · rcases h with h | h
    · exact absurd h hm
    · exact Nat.add_lt_add_right h 2

theorem fresh_keys_of_none {mark : Mark} {keys : List (Option PossibleKey)}
    (h : ∀ key ∈ keys, key = none) : keys.mapM (freshKey? mark) = some keys := by
  induction keys with
  | nil => rfl
  | cons key keys ih =>
      obtain rfl := h key List.mem_cons_self
      exact fresh_keys_cons_iff.mpr
        ⟨none, rfl, keys, ih fun other hother => h other (List.mem_cons_of_mem _ hother), rfl⟩

/-- A scanner that comes to an end with some tokens can settle its first one. -/
theorem Finishes.settle (h : Finishes s f) (hne : f.tokens ≠ []) {bound : Nat}
    (hbound : s.steps ≤ bound) :
    ∃ s', Scanner.settle bound s = some s' ∧ s'.Settled ∧ Finishes s' f := by
  induction h generalizing bound with
  | @ended s hended hkeys =>
      have hfresh : s.dropStale = some s := by
        rw [drop_stale_eq, fresh_keys_of_none hkeys]
        rfl
      -- at the end no key is open
      have hcertain : s.headIsOpen = false := by
        unfold headIsOpen
        rw [List.any_eq_false]
        intro key hkey
        rw [hkeys key hkey]
        exact Bool.false_ne_true
      rw [steps, if_pos hended] at hbound
      obtain ⟨bound, rfl⟩ := Nat.exists_eq_succ_of_ne_zero (Nat.ne_zero_of_lt hbound)
      refine ⟨s, ?_, ⟨hne, hfresh, hcertain⟩, .ended hended hkeys⟩
      simp [Scanner.settle, hne, hfresh, hcertain]
  | @step s m f hended hsound hfetch hshorter h ih =>
      have hlt := Nat.lt_of_lt_of_le (steps_lt hended hshorter) hbound
      obtain ⟨bound, rfl⟩ := Nat.exists_eq_succ_of_ne_zero (Nat.ne_zero_of_lt hlt)
      have hread := ih hne (Nat.le_of_lt_succ hlt)
      obtain ⟨keys, hdrop, hagain, hfetch', hkeys⟩ := fetch_of_drop_stale hfetch
      by_cases hempty : s.tokens = []
      · simpa [Scanner.settle, hempty, hended, hfetch] using hread
      · -- as long as the first token may become a key, more of the text has to be looked at
        cases hopen : ({ s with keys := keys } : Scanner).headIsOpen with
        | true => simpa [Scanner.settle, hempty, hdrop, hopen, hfetch'] using hread
        | false =>
            refine ⟨{ s with keys := keys }, ?_, ⟨hempty, hagain, hopen⟩, ?_⟩
            · simp [Scanner.settle, hempty, hdrop, hopen]
            · exact .step hended (fun key hkey => hsound key (hkeys key hkey)) hfetch' hshorter h

/-- Taking a token that is certain. -/
theorem Settled.held (h : s.Settled) (hsound : s.Sound) {others : List Token}
    (htokens : s.tokens = token :: others) : Held token s s.take where
  eq := by
    unfold hold Scanner.take
    simp only [htokens, List.tail_cons, Nat.add_sub_cancel]
    rw [← htokens]
  taken := Nat.succ_pos _
  sound key hkey := by
    have hne : key.number ≠ s.taken := by
      intro heq
      have hopen : s.headIsOpen = true := by
        unfold headIsOpen
        rw [List.any_eq_true]
        exact ⟨some key, hkey, by simpa using heq⟩
      rw [h.certain] at hopen
      cases hopen
    have hle := hsound key hkey
    change s.taken + 1 ≤ key.number
    omega

/-- The tokens that a scanner hands out, one after the other. -/
def Feeds (scanner : Scanner) (tokens : List Token) : Prop :=
  ∃ f, Finishes scanner f ∧ f.tokens = tokens

/-- A step that leads on in the text hands out nothing by itself. -/
theorem Feeds.step {tokens : List Token} (hended : s.ended = false) (hsound : s.Sound)
    (hfetch : s.fetch = some m)
    (hshorter : m.ended = true ∨ m.place.rest.length < s.place.rest.length) (h : Feeds m tokens) :
    Feeds s tokens := by
  obtain ⟨f, hf, htokens⟩ := h
  exact ⟨f, .step hended hsound hfetch hshorter hf, htokens⟩

/-- Two scanners that read on in the same way hand out the same tokens. -/
theorem Feeds.congr {tokens : List Token} (h : Feeds r tokens) (hfetch : s.fetch = r.fetch)
    (hs : s.ended = false) (hr : r.ended = false) (hsound : s.Sound)
    (hle : r.place.rest.length ≤ s.place.rest.length) : Feeds s tokens := by
  obtain ⟨f, hf, htokens⟩ := h
  cases hf with
  | ended hended hkeys =>
      rw [hr] at hended
      cases hended
  | step hended hsound' hstep hshorter h =>
      exact ⟨f, .step hs hsound (hfetch.trans hstep)
        (hshorter.imp_right fun hlt => Nat.lt_of_lt_of_le hlt hle) h, htokens⟩

/-- The first token is the one that comes next. -/
theorem Feeds.head {others : List Token} (h : Feeds s (token :: others)) :
    ∃ s', s.head? = some (token, s') ∧ Feeds s' (token :: others) ∧ s'.Settled := by
  obtain ⟨f, hf, htokens⟩ := h
  have hsteps : s.steps ≤ s.place.rest.length + 3 := by
    unfold steps
    split_ifs <;> omega
  obtain ⟨s', hsettle, hsettled, hf'⟩ := hf.settle (by rw [htokens]; exact List.cons_ne_nil _ _) hsteps
  refine ⟨s', ?_, ⟨f, hf', htokens⟩, hsettled⟩
  cases hs' : s'.tokens with
  | nil => exact absurd hs' hsettled.filled
  | cons first rest =>
      obtain ⟨f', -, hsame⟩ := hf'.take (hsettled.held hf'.sound hs')
      have hfirst : first = token := (List.cons.inj (hsame.symm.trans htokens)).1
      unfold head?
      rw [hsettle]
      simp [hs', hfirst]

/-- Behind a token that was taken the others follow. -/
theorem Feeds.take {others : List Token} (h : Feeds s (token :: others)) (hsettled : s.Settled) :
    Feeds s.take others := by
  obtain ⟨f, hf, htokens⟩ := h
  cases hs : s.tokens with
  | nil => exact absurd hs hsettled.filled
  | cons first rest =>
      obtain ⟨f', hf', hsame⟩ := hf.take (hsettled.held hf.sound hs)
      exact ⟨f', hf', (List.cons.inj (hsame.symm.trans htokens)).2⟩

end Scanner

end TemplateBundle.Yaml

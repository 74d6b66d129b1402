import TemplateBundle.Regex.Match

/-!
# Numbers of groups

The numbers of capture groups only say where captures are kept. A pattern whose groups have other
numbers runs in the same way (`run_renumber`): it goes on at the same places, with captures that
correspond.
-/

namespace TemplateBundle.Regex

/-! ## Numbers in a pattern -/

namespace Node

/-- The numbers of the capture groups. -/
def groupNumbers : Node → List Nat
  | .capture group body => group :: body.groupNumbers
  | .sequence first second => first.groupNumbers ++ second.groupNumbers
  | .choice first second => first.groupNumbers ++ second.groupNumbers
  | .repeated _ _ _ body => body.groupNumbers
  | .empty | .char _ | .look _ => []

/-- The pattern with other numbers for its groups. -/
def renumber (number : Nat → Nat) : Node → Node
  | .capture group body => .capture (number group) (body.renumber number)
  | .sequence first second => .sequence (first.renumber number) (second.renumber number)
  | .choice first second => .choice (first.renumber number) (second.renumber number)
  | .repeated least most greedy body => .repeated least most greedy (body.renumber number)
  | .empty => .empty
  | .char members => .char members
  | .look assertion => .look assertion

theorem groupNumbers_renumber (number : Nat → Nat) (node : Node) :
    (node.renumber number).groupNumbers = node.groupNumbers.map number := by
  induction node with
  | empty | char | look => rfl
  | capture group _ ih => exact congrArg (number group :: ·) ih
  | sequence _ _ ih ih' | choice _ _ ih ih' =>
      show _ ++ _ = _
      rw [ih, ih', groupNumbers, List.map_append]
  | repeated _ _ _ _ ih => exact ih

theorem group_le_last {node : Node} {group : Nat} (h : group ∈ node.groupNumbers) :
    group ≤ node.lastGroup := by
  induction node with
  | empty | char | look => cases h
  | capture number body ih =>
      rcases List.mem_cons.mp h with rfl | h
      · exact Nat.le_max_left _ _
      · exact Nat.le_trans (ih h) (Nat.le_max_right _ _)
  | sequence first second ih ih' | choice first second ih ih' =>
      rcases List.mem_append.mp h with h | h
      · exact Nat.le_trans (ih h) (Nat.le_max_left _ _)
      · exact Nat.le_trans (ih' h) (Nat.le_max_right _ _)
  | repeated _ _ _ _ ih => exact ih h

end Node

/-! ## Steps that correspond -/

theorem rel_mono {α β : Type} {result weaker : α → β → Prop} {a : Option α} {b : Option β}
    (h : Option.Rel result a b) (hweaker : ∀ found other, result found other → weaker found other) :
    Option.Rel weaker a b := by
  cases h with
  | none => exact .none
  | some h => exact .some (hweaker _ _ h)

namespace Step

variable {α β : Type} {size : Nat} {captured : Captures → Captures → Prop}
  {result : α → β → Prop} {first : Step α} {second : Step β}

/-- The two ways of going on have corresponding results at each place from `place` on. -/
def GoesOn (size : Nat) (captured : Captures → Captures → Prop) (result : α → β → Prop)
    (place : Nat) (next : Continue α) (next' : Continue β) : Prop :=
  ∀ stop captures captures', place ≤ stop → stop ≤ size → captured captures captures' →
    Option.Rel result (next stop captures) (next' stop captures')

/-- The two steps have corresponding results if what follows them has. They go on at the same
places, none of which lies behind the text or before the one where they start. -/
def Corresponds (size : Nat) (captured : Captures → Captures → Prop) (result : α → β → Prop)
    (first : Step α) (second : Step β) : Prop :=
  ∀ place captures captures' next next', place ≤ size → captured captures captures' →
    GoesOn size captured result place next next' →
      Option.Rel result (first place captures next) (second place captures' next')

theorem GoesOn.later {place after : Nat} {next : Continue α} {next' : Continue β}
    (h : GoesOn size captured result place next next') (hafter : place ≤ after) :
    GoesOn size captured result after next next' :=
  fun stop captures captures' hstop => h stop captures captures' (Nat.le_trans hafter hstop)

theorem rel_orElse {a b : Option α} {a' b' : Option β} (h : Option.Rel result a a')
    (hother : Option.Rel result b b') : Option.Rel result (a <|> b) (a' <|> b') := by
  cases h with
  | none => exact hother
  | some h => exact .some h

/-- One try before another one, in the order that a repetition prefers. -/
theorem rel_preferred {more less : Option α} {more' less' : Option β} {greedy : Bool}
    (hmore : Option.Rel result more more') (hless : Option.Rel result less less') :
    Option.Rel result (if greedy then more <|> less else less <|> more)
      (if greedy then more' <|> less' else less' <|> more') := by
  cases greedy with
  | true => exact rel_orElse hmore hless
  | false => exact rel_orElse hless hmore

variable (h : Corresponds size captured result first second)
include h

theorem corresponds_times (count : Nat) :
    Corresponds size captured result (first.times count) (second.times count) := by
  induction count with
  | zero =>
      intro place captures captures' next next' hplace hcaptured hnext
      exact hnext place captures captures' (Nat.le_refl _) hplace hcaptured
  | succ count ih =>
      intro place captures captures' next next' hplace hcaptured hnext
      refine h _ _ _ _ _ hplace hcaptured fun after captures captures' hafter hsize hcaptured => ?_
      exact ih _ _ _ _ _ hsize hcaptured (hnext.later hafter)

theorem corresponds_upTo (greedy : Bool) (count : Nat) :
    Corresponds size captured result (first.upTo greedy count) (second.upTo greedy count) := by
  induction count with
  | zero =>
      intro place captures captures' next next' hplace hcaptured hnext
      exact hnext place captures captures' (Nat.le_refl _) hplace hcaptured
  | succ count ih =>
      intro place captures captures' next next' hplace hcaptured hnext
      refine rel_preferred ?_ (hnext place captures captures' (Nat.le_refl _) hplace hcaptured)
      refine h _ _ _ _ _ hplace hcaptured fun after captures captures' hafter hsize hcaptured => ?_
      exact ih _ _ _ _ _ hsize hcaptured (hnext.later hafter)

theorem corresponds_further (greedy : Bool) (bound : Nat) :
    Corresponds size captured result (first.further greedy bound)
      (second.further greedy bound) := by
  induction bound with
  | zero =>
      intro place captures captures' next next' hplace hcaptured hnext
      exact hnext place captures captures' (Nat.le_refl _) hplace hcaptured
  | succ bound ih =>
      intro place captures captures' next next' hplace hcaptured hnext
      refine rel_preferred ?_ (hnext place captures captures' (Nat.le_refl _) hplace hcaptured)
      refine h _ _ _ _ _ hplace hcaptured fun after captures captures' hafter hsize hcaptured => ?_
      by_cases hstays : after = place
      · rw [if_pos hstays, if_pos hstays]
        exact .none
      · rw [if_neg hstays, if_neg hstays]
        exact ih _ _ _ _ _ hsize hcaptured (hnext.later hafter)

theorem corresponds_onceOrMore (greedy : Bool) (bound : Nat) :
    Corresponds size captured result (first.onceOrMore greedy bound)
      (second.onceOrMore greedy bound) := by
  intro place captures captures' next next' hplace hcaptured hnext
  refine h _ _ _ _ _ hplace hcaptured fun after captures captures' hafter hsize hcaptured => ?_
  by_cases hstays : after = place
  · rw [if_pos hstays, if_pos hstays]
    exact hnext after captures captures' hafter hsize hcaptured
  · rw [if_neg hstays, if_neg hstays]
    exact corresponds_further h greedy _ _ _ _ _ _ hsize hcaptured (hnext.later hafter)

theorem corresponds_any (greedy : Bool) (bound : Nat) :
    Corresponds size captured result (first.any greedy bound) (second.any greedy bound) := by
  intro place captures captures' next next' hplace hcaptured hnext
  exact rel_preferred (corresponds_onceOrMore h greedy bound _ _ _ _ _ hplace hcaptured hnext)
    (hnext place captures captures' (Nat.le_refl _) hplace hcaptured)

theorem corresponds_repeated (least : Nat) (most : Option Nat) (greedy : Bool) (bound : Nat) :
    Corresponds size captured result (first.repeated least most greedy bound)
      (second.repeated least most greedy bound) := by
  cases most with
  | some most =>
      intro place captures captures' next next' hplace hcaptured hnext
      refine corresponds_times h least _ _ _ _ _ hplace hcaptured
        fun after captures captures' hafter hsize hcaptured => ?_
      exact corresponds_upTo h greedy _ _ _ _ _ _ hsize hcaptured (hnext.later hafter)
  | none =>
      cases least with
      | zero => exact corresponds_any h greedy bound
      | succ least =>
          intro place captures captures' next next' hplace hcaptured hnext
          refine corresponds_times h least _ _ _ _ _ hplace hcaptured
            fun after captures captures' hafter hsize hcaptured => ?_
          exact corresponds_onceOrMore h greedy bound _ _ _ _ _ hsize hcaptured
            (hnext.later hafter)

end Step

/-! ## Runs -/

/-- A pattern runs as before when its groups get other numbers, as long as the captures still
correspond whenever one of its groups is set. -/
theorem run_renumber {α β : Type} {text : Array Char} {captured : Captures → Captures → Prop}
    {result : α → β → Prop} {number : Nat → Nat} {node : Node}
    (hset : ∀ group ∈ node.groupNumbers, ∀ captures captures' span, captured captures captures' →
      captured (captures.setIfInBounds group span)
        (captures'.setIfInBounds (number group) span)) :
    Step.Corresponds text.size captured result (node.run text)
      ((node.renumber number).run text) := by
  induction node with
  | empty =>
      intro place captures captures' next next' hplace hcaptured hnext
      exact hnext place captures captures' (Nat.le_refl _) hplace hcaptured
  | char members =>
      intro place captures captures' next next' hplace hcaptured hnext
      simp only [Node.renumber, Node.run]
      cases hc : text[place]? with
      | none => exact .none
      | some c =>
          obtain ⟨hsize, -⟩ := Array.getElem?_eq_some_iff.mp hc
          by_cases hmember : members.contains c = true
          · simp only [hmember, if_true]
            exact hnext (place + 1) captures captures' (Nat.le_succ _) hsize hcaptured
          · simp only [if_neg hmember]
            exact .none
  | look assertion =>
      intro place captures captures' next next' hplace hcaptured hnext
      show Option.Rel result (if assertion.holds text place then next place captures else none)
        (if assertion.holds text place then next' place captures' else none)
      by_cases hholds : assertion.holds text place = true
      · rw [if_pos hholds, if_pos hholds]
        exact hnext place captures captures' (Nat.le_refl _) hplace hcaptured
      · rw [if_neg hholds, if_neg hholds]
        exact .none
  | capture group body ih =>
      intro place captures captures' next next' hplace hcaptured hnext
      -- only here captures change: the group is set under its old number in the one run and under its
      -- new one in the other
      refine ih (fun inner hinner => hset inner (List.mem_cons_of_mem group hinner)) _ _ _ _ _
        hplace hcaptured fun stop captures captures' hstop hsize hcaptured => ?_
      exact hnext stop _ _ hstop hsize (hset group List.mem_cons_self _ _ _ hcaptured)
  | sequence first second ih ih' =>
      intro place captures captures' next next' hplace hcaptured hnext
      refine ih (fun group hgroup => hset group (List.mem_append_left _ hgroup)) _ _ _ _ _
        hplace hcaptured fun after captures captures' hafter hsize hcaptured => ?_
      exact ih' (fun group hgroup => hset group (List.mem_append_right _ hgroup)) _ _ _ _ _
        hsize hcaptured (hnext.later hafter)
  | choice first second ih ih' =>
      intro place captures captures' next next' hplace hcaptured hnext
      exact Step.rel_orElse
        (ih (fun group hgroup => hset group (List.mem_append_left _ hgroup)) _ _ _ _ _
          hplace hcaptured hnext)
        (ih' (fun group hgroup => hset group (List.mem_append_right _ hgroup)) _ _ _ _ _
          hplace hcaptured hnext)
  | repeated least most greedy body ih =>
      intro place captures captures' next next' hplace hcaptured hnext
      exact Step.corresponds_repeated (ih hset) least most greedy text.size _ _ _ _ _
        hplace hcaptured hnext

/-- The way to go on at the end of a pattern. -/
def finish (place : Nat) : Continue Match := fun stop captures =>
  some { span := { start := place, stop := stop }, captures := captures }

/-- A match lies within the text and starts where it was looked for. -/
theorem matchAt_span {pattern : Pattern} {text : Array Char} {place : Nat} {found : Match}
    (hplace : place ≤ text.size) (h : pattern.matchAt? text place = some found) :
    found.span.start = place ∧ place ≤ found.span.stop ∧ found.span.stop ≤ text.size := by
  let within (found _other : Match) : Prop :=
    found.span.start = place ∧ place ≤ found.span.stop ∧ found.span.stop ≤ text.size
  have hsame : Step.Corresponds text.size (fun _ _ => True) within (pattern.node.run text)
      ((pattern.node.renumber id).run text) :=
    run_renumber fun _ _ _ _ _ _ => trivial
  let start : Captures := Array.replicate (pattern.node.lastGroup + 1) none
  have hrel := hsame place start start (finish place) (finish place) hplace trivial
    fun stop _ _ hstop hsize _ => .some ⟨rfl, hstop, hsize⟩
  rw [show pattern.node.run text place start (finish place) = some found from h] at hrel
  generalize (pattern.node.renumber id).run text place start (finish place) = other at hrel
  cases hrel with
  | some hwithin => exact hwithin

/-! ## Choices of patterns -/

/-- The number of a pattern's only group. -/
def onlyGroup (number group : Nat) : Nat :=
  if group = 1 then number else 0

theorem renumber_onlyGroup (node : Node) (number : Nat) :
    (node.renumber (onlyGroup 1)).renumber (onlyGroup number) =
      node.renumber (onlyGroup number) := by
  induction node with
  | empty | char | look => rfl
  | capture group body ih =>
      have hgroup : onlyGroup number (onlyGroup 1 group) = onlyGroup number group := by
        by_cases hone : group = 1
        · rw [hone]
          rfl
        · simp only [onlyGroup, if_neg hone]
          rfl
      simp only [Node.renumber, hgroup, ih]
  | sequence _ _ ih ih' | choice _ _ ih ih' => simp only [Node.renumber, ih, ih']
  | repeated _ _ _ _ ih => simp only [Node.renumber, ih]

/-- The choice of the patterns, each with one group, and these numbered from `group` on. -/
def Node.oneOf (group : Nat) : Node → List Node → Node
  | first, [] => first.renumber (onlyGroup group)
  | first, second :: others =>
      .choice (first.renumber (onlyGroup group)) (oneOf (group + 1) second others)

/-- The captures of a pattern alone and as an alternative: the number of its group differs, and no
other group is set. -/
structure CapturedAs (group ownSize joinedSize : Nat) (own joined : Captures) : Prop where
  own_size : own.size = ownSize
  joined_size : joined.size = joinedSize
  code : joined[group]?.join = own[1]?.join
  others : ∀ other, 1 ≤ other → other ≠ group → joined[other]?.join = none

/-- The match of a choice is that of one of its patterns, whose group has the number `group`. -/
structure Match.IsOf (joined : Match) (group : Nat) (own : Match) : Prop where
  span : joined.span = own.span
  code : joined.group? group = own.group? 1
  others : ∀ other, 1 ≤ other → other ≠ group → joined.group? other = none

theorem capturedAs_set {group ownSize joinedSize : Nat} (hgroup : 1 ≤ group)
    {number : Nat} (hsizes : number = 1 → 1 < ownSize ∧ group < joinedSize)
    {own joined : Captures} (span : Option Span)
    (h : CapturedAs group ownSize joinedSize own joined) :
    CapturedAs group ownSize joinedSize (own.setIfInBounds number span)
      (joined.setIfInBounds (onlyGroup group number) span) := by
  have hkeeps : ∀ (captures : Captures) (number other : Nat), number ≠ other →
      (captures.setIfInBounds number span)[other]?.join = captures[other]?.join :=
    fun captures number other hne => by rw [Array.getElem?_setIfInBounds_ne hne]
  refine ⟨by rw [Array.size_setIfInBounds, h.own_size],
    by rw [Array.size_setIfInBounds, h.joined_size], ?_, fun other hother hne => ?_⟩
  · by_cases hnumber : number = 1
    · subst hnumber
      obtain ⟨hown, hjoined⟩ := hsizes rfl
      show (joined.setIfInBounds group span)[group]?.join = _
      rw [Array.getElem?_setIfInBounds_self_of_lt (h.joined_size ▸ hjoined),
        Array.getElem?_setIfInBounds_self_of_lt (h.own_size ▸ hown)]
    · rw [onlyGroup, if_neg hnumber, hkeeps joined 0 group (Nat.ne_of_lt hgroup),
        hkeeps own number 1 hnumber, h.code]
  · by_cases hnumber : number = 1
    · rw [onlyGroup, if_pos hnumber, hkeeps joined group other hne.symm, h.others other hother hne]
    · rw [onlyGroup, if_neg hnumber, hkeeps joined 0 other (Nat.ne_of_lt hother),
        h.others other hother hne]

/-- A match of a pattern, alone and as an alternative. -/
theorem rel_alternative {text : Array Char} {place group size : Nat} {own : Pattern}
    (hplace : place ≤ text.size) (hgroup : 1 ≤ group)
    (hsize : 1 ∈ own.node.groupNumbers → group < size) :
    Option.Rel (fun (mine joined : Match) => joined.IsOf group mine) (own.matchAt? text place)
      ((own.node.renumber (onlyGroup group)).run text place (Array.replicate size none)
        (finish place)) := by
  have hstart : CapturedAs group (own.node.lastGroup + 1) size
      (Array.replicate (own.node.lastGroup + 1) none) (Array.replicate size none) := by
    have hunset : ∀ count other : Nat,
        (Array.replicate count (none : Option Span))[other]?.join = none := by
      intro count other
      rw [Array.getElem?_replicate]
      split <;> rfl
    exact ⟨Array.size_replicate, Array.size_replicate, by rw [hunset, hunset],
      fun other _ _ => hunset size other⟩
  have hset : ∀ number ∈ own.node.groupNumbers, ∀ captures captures' span,
      CapturedAs group (own.node.lastGroup + 1) size captures captures' →
        CapturedAs group (own.node.lastGroup + 1) size (captures.setIfInBounds number span)
          (captures'.setIfInBounds (onlyGroup group number) span) := by
    intro number hnumber captures captures' span hcaptured
    refine capturedAs_set hgroup (fun hone => ?_) span hcaptured
    subst hone
    exact ⟨Nat.lt_succ_of_le (Node.group_le_last hnumber), hsize hnumber⟩
  refine run_renumber hset place _ _ _ _ hplace hstart
    fun stop captures captures' _ _ hcaptured => ?_
  exact .some ⟨rfl, hcaptured.code, hcaptured.others⟩

end TemplateBundle.Regex

import Mathlib.Data.List.Forall2
import TemplateBundle.Proofs.Regex.Parts
import TemplateBundle.Proofs.Regex.Renumbering

/-!
# Patterns within patterns

A pattern that ends at a closing parenthesis put behind it may be put in a group of a longer
pattern: there it is read as it is alone, and its groups are numbered on.
-/

namespace TemplateBundle.Regex

open Read

variable {around : Surroundings}

/-- The second node is the first one with the numbers that its groups get in the surroundings. -/
abbrev Node.Within (around : Surroundings) (node node' : Node) : Prop :=
  node.renumber around.number = node'

theorem agrees_readRepeated (sign : Char) {body body' : Node}
    (hbody : Node.Within around body body') :
    Agrees around (Node.Within around) (readRepeated sign body) (readRepeated sign body') := by
  refine agrees_bind_eq (contained_readRepetition sign) fun rounds => ?_
  refine agrees_bind_eq (contained_accept (by decide)) fun reversed => ?_
  refine agrees_bind_eq contained_flags fun flags => agrees_ite (agrees_pure rfl) (agrees_pure ?_)
  rw [← hbody]
  rfl

theorem renumber_ofChar (number : Nat → Nat) (flags : Flags) (c : Char) :
    (Node.ofChar flags c).renumber number = Node.ofChar flags c := by
  unfold Node.ofChar
  split <;> rfl

theorem renumber_dot (number : Nat → Nat) (flags : Flags) :
    (Node.dot flags).renumber number = Node.dot flags := by
  unfold Node.dot
  split
  · rfl
  · split <;> rfl

theorem agrees_readSingle (c : Char) :
    Agrees around (Node.Within around) (readSingle c) (readSingle c) := by
  refine agrees_bind_eq contained_flags fun flags => agrees_bind_eq contained_advance fun _ => ?_
  split
  case h_1 => exact agrees_ite (agrees_pure (renumber_dot _ _)) agrees_failure
  case h_2 | h_3 => exact agrees_pure rfl
  case h_4 =>
    refine agrees_bind_eq contained_readEscape fun atom => ?_
    cases atom with
    | literal c => exact agrees_pure (renumber_ofChar _ _ _)
    | set members => exact agrees_pure rfl
    | look assertion => exact agrees_pure rfl
  case h_5 => exact agrees_pure (renumber_ofChar _ _ _)

/-! ## Openings of groups -/

/-- What opens, with the number that the group gets. -/
def Opening.renumber (number : Nat → Nat) : Opening → Opening
  | .capture group => .capture (number group)
  | .plain flags => .plain flags
  | .switch flags => .switch flags

/-- The second opening is the first one with the number that its group gets in the surroundings. -/
abbrev Opening.Within (around : Surroundings) (opening opening' : Opening) : Prop :=
  opening.renumber around.number = opening'

theorem agrees_newGroup :
    Agrees around (fun group group' => around.number group = group') newGroup newGroup where
  advances := by
    intro reading found after hrun hinside
    cases hrun
    exact ⟨hinside.1, Nat.le_of_succ_le hinside.2⟩
  follows ahead := by
    intro reading other found after found' after' hbeside hrun hinside hrun'
    cases hrun
    cases hrun'
    refine ⟨?_, ahead, hbeside.rest, hbeside.rest_within, hbeside.flags, ?_⟩
    · show around.number (reading.groups + 1) = other.groups + 1
      rw [around.numbers _ hinside.2, hbeside.groups]
    · show other.groups + 1 = reading.groups + 1 + around.groupsBefore
      rw [hbeside.groups, Nat.add_right_comm]

theorem run_readGroupName {reading after : Reading} {found : String}
    (h : readGroupName.run reading = some (found, after)) :
    ∃ first others left, splitAt? ['>'] reading.rest = some (first :: others, left) ∧
      found = String.ofList (first :: others) ∧
      after = { reading with rest := left, names := found :: reading.names } := by
  obtain ⟨remaining, middle, hrest, h⟩ := run_bind_some.mp h
  cases hrest
  split at h
  · next first others left hsplit =>
      obtain ⟨same, middle, hget, h⟩ := run_bind_some.mp h
      cases hget
      split at h
      · cases h
        exact ⟨first, others, left, hsplit, rfl, rfl⟩
      · cases h
  · cases h

theorem contained_readGroupName : readGroupName.Contained around where
  advances := by
    intro reading found after hrun hinside
    obtain ⟨first, others, left, hsplit, rfl, rfl⟩ := run_readGroupName hrun
    refine ⟨fun hnil => ?_, hinside.2⟩
    rw [hnil] at hsplit
    cases hsplit
  follows ahead := by
    intro reading other found after found' after' hbeside hrun hinside hrun'
    obtain ⟨first, others, left, hsplit, rfl, rfl⟩ := run_readGroupName hrun
    obtain ⟨first', others', left', hsplit', rfl, rfl⟩ := run_readGroupName hrun'
    rw [hbeside.rest] at hsplit
    rw [hbeside.rest_within] at hsplit'
    cases hahead : splitAt? ['>'] ahead with
    | some split =>
        obtain ⟨name, behind⟩ := split
        rw [splitAt_append hahead] at hsplit hsplit'
        cases hsplit
        cases hsplit'
        exact ⟨rfl, behind, rfl, rfl, hbeside.flags, hbeside.groups⟩
    | none =>
        rw [splitAt_append_none hahead, splitAt_closing (by decide)] at hsplit
        cases hsplit

theorem contained_readFlagLetters : readFlagLetters.Contained around where
  advances := by
    intro reading found after hrun hinside
    cases hrun
    exact ⟨fun hnil => hinside.1 (congrArg (List.dropWhile (!endsFlags ·)) hnil), hinside.2⟩
  follows ahead := by
    intro reading other found after found' after' hbeside hrun hinside hrun'
    cases hrun
    cases hrun'
    have hnone : ∀ behind : List Char, Closes behind →
        behind.takeWhile (!endsFlags ·) = [] := by
      intro behind hbehind
      cases behind with
      | nil => rfl
      | cons c behind =>
          obtain rfl : c = ')' := hbehind c rfl
          rfl
    have hmoves : Moves around (List.dropWhile (!endsFlags ·)) := moves_dropWhile rfl
    obtain ⟨moved, hfirst, hsecond⟩ := hmoves.append ahead (hbeside.rest ▸ hinside.1)
    refine ⟨?_, moved, ?_, ?_, hbeside.flags, hbeside.groups⟩
    · show reading.rest.takeWhile _ = other.rest.takeWhile _
      rw [hbeside.rest, hbeside.rest_within, List.takeWhile_append, List.takeWhile_append,
        hnone _ (closes_cons []), hnone _ around.stops]
    · show reading.rest.dropWhile _ = _
      rw [hbeside.rest, hfirst]
    · show other.rest.dropWhile _ = _
      rw [hbeside.rest_within, hsecond]

theorem agrees_readFlagOpening :
    Agrees around (Opening.Within around) readFlagOpening readFlagOpening := by
  refine agrees_bind_eq contained_readFlagLetters fun letters => ?_
  refine agrees_bind_eq contained_flags fun flags => ?_
  cases flags.updateAll? true [] letters with
  | none => exact agrees_failure
  | some flags =>
      refine agrees_bind_eq contained_peek fun c => agrees_bind_eq contained_advance fun _ => ?_
      exact agrees_ite (agrees_pure rfl) (agrees_ite agrees_failure (agrees_pure rfl))

theorem contained_acceptNameMark : acceptNameMark.Contained around := by
  refine contained_bind (contained_accept (by decide)) fun accepted => ?_
  exact contained_ite (contained_pure true) (contained_accept (by decide))

theorem asksForLookAround_append {text behind : List Char}
    (hbehind : Closes behind) :
    asksForLookAround (text ++ behind) = asksForLookAround text := by
  simp only [asksForLookAround, List.any_cons, List.any_nil]
  rw [isPrefixOf_append (by decide) hbehind, isPrefixOf_append (by decide) hbehind,
    isPrefixOf_append (by decide) hbehind, isPrefixOf_append (by decide) hbehind]

theorem agrees_readGroupOpening :
    Agrees around (Opening.Within around) readGroupOpening readGroupOpening := by
  have hgroup : Agrees around (Opening.Within around) (do return .capture (← newGroup))
      (do return .capture (← newGroup)) :=
    agrees_bind agrees_newGroup (fun group => ⟨_, rfl⟩) fun group group' hgroup =>
      agrees_pure (by rw [← hgroup]; rfl)
  have hnamed : Agrees around (Opening.Within around)
      (do
        let group ← newGroup
        let _ ← readGroupName
        pure (.capture group))
      (do
        let group ← newGroup
        let _ ← readGroupName
        pure (.capture group)) :=
    agrees_bind agrees_newGroup (fun group => ⟨_, rfl⟩) fun group group' hgroup =>
      agrees_bind_eq contained_readGroupName fun _ => agrees_pure (by rw [← hgroup]; rfl)
  refine agrees_bind_eq contained_step fun _ => ?_
  refine agrees_ite_rest (fun _ _ => asksForLookAround_append) agrees_failure ?_
  refine agrees_bind_eq contained_acceptNameMark fun named => agrees_ite hnamed ?_
  refine agrees_bind_eq (contained_accept (by decide)) fun marked => ?_
  exact agrees_ite agrees_readFlagOpening hgroup

/-! ## Patterns -/

theorem ofParts_renumber (number : Nat → Nat) (parts : List (Option Node)) :
    Node.ofParts (parts.map (Option.map (Node.renumber number))) =
      (Node.ofParts parts).renumber number := by
  have hfold : ∀ (others : List Node) (behind : Node),
      (others.map (Node.renumber number)).foldl (fun behind part => .sequence part behind)
          (behind.renumber number) =
        (others.foldl (fun behind part => .sequence part behind) behind).renumber number := by
    intro others
    induction others with
    | nil => exact fun _ => rfl
    | cons part others ih => exact fun behind => ih (.sequence part behind)
  have hmap : (parts.map (Option.map (Node.renumber number))).filterMap id =
      (parts.filterMap id).map (Node.renumber number) := by
    rw [List.filterMap_map, List.map_filterMap]
    rfl
  unfold Node.ofParts
  rw [hmap]
  cases parts.filterMap id with
  | nil => rfl
  | cons last others => exact hfold others last

theorem ofAlternatives_renumber (number : Nat → Nat) (last : Node) (others : List Node) :
    Node.ofAlternatives (last.renumber number) (others.map (Node.renumber number)) =
      (Node.ofAlternatives last others).renumber number := by
  unfold Node.ofAlternatives
  induction others generalizing last with
  | nil => rfl
  | cons alternative others ih => exact ih (.choice alternative last)

/-- The pattern up to a closing parenthesis or the end, where `next` reads the groups in it and what
stands behind its first part. -/
def nodeStep (next : List Node → List (Option Node) → Read Node) (alternatives : List Node)
    (parts : List (Option Node)) : Read Node := do
  skip
  match ← peek? with
  | none => pure (Node.ofAlternatives (Node.ofParts parts) alternatives)
  | some ')' => pure (Node.ofAlternatives (Node.ofParts parts) alternatives)
  | some '|' =>
      advance
      next (Node.ofParts parts :: alternatives) []
  | some '(' =>
      let outer ← Read.flags
      match ← readGroupOpening with
      | .switch flags =>
          setFlags flags
          next alternatives (none :: parts)
      | .plain flags =>
          setFlags flags
          let body ← next [] []
          if ← accept [')'] then
            setFlags outer
            next alternatives (some body :: parts)
          else failure
      | .capture group =>
          let body ← next [] []
          if ← accept [')'] then
            setFlags outer
            next alternatives (some (.capture group body) :: parts)
          else failure
  | some '[' =>
      let members ← readBracket
      next alternatives (some (.char members) :: parts)
  | some c =>
      if c = '*' ∨ c = '+' ∨ c = '?' ∨ c = '\x7b' then
        match parts with
        | some body :: before =>
            let repeated ← readRepeated c body
            next alternatives (some repeated :: before)
        | _ => failure
      else
        let single ← readSingle c
        next alternatives (some single :: parts)

theorem readNode_succ (bound : Nat) : readNode (bound + 1) = nodeStep (readNode bound) :=
  rfl

section

variable {next next' : List Node → List (Option Node) → Read Node}
  (h : ∀ alternatives parts, Agrees around (Node.Within around) (next alternatives parts)
    (next' (alternatives.map (Node.renumber around.number))
      (parts.map (Option.map (Node.renumber around.number)))))
include h

/-- The rest of a group, with what stands behind it. -/
theorem agrees_group (outer : Flags) (wrap wrap' : Node → Node)
    (hwrap : ∀ body, (wrap body).renumber around.number = wrap' (body.renumber around.number))
    (alternatives : List Node) (parts : List (Option Node)) :
    Agrees around (Node.Within around)
      (do
        let body ← next [] []
        if ← accept [')'] then
          setFlags outer
          next alternatives (some (wrap body) :: parts)
        else failure)
      (do
        let body ← next' [] []
        if ← accept [')'] then
          setFlags outer
          next' (alternatives.map (Node.renumber around.number))
            (some (wrap' body) :: parts.map (Option.map (Node.renumber around.number)))
        else failure) := by
  refine agrees_bind (h [] []) (fun body => ⟨_, rfl⟩) fun body body' hbody => ?_
  refine agrees_bind_eq contained_accept_closing fun accepted => agrees_ite ?_ agrees_failure
  refine agrees_bind_eq (contained_setFlags outer) fun _ => ?_
  rw [← hbody, ← hwrap body]
  exact h alternatives (some (wrap body) :: parts)

theorem agrees_nodeStep (alternatives : List Node) (parts : List (Option Node)) :
    Agrees around (Node.Within around) (nodeStep next alternatives parts)
      (nodeStep next' (alternatives.map (Node.renumber around.number))
        (parts.map (Option.map (Node.renumber around.number)))) := by
  have hfinish : Agrees around (Node.Within around)
      (pure (Node.ofAlternatives (Node.ofParts parts) alternatives))
      (pure (Node.ofAlternatives
        (Node.ofParts (parts.map (Option.map (Node.renumber around.number))))
        (alternatives.map (Node.renumber around.number)))) := by
    refine agrees_pure ?_
    rw [ofParts_renumber]
    exact (ofAlternatives_renumber _ _ _).symm
  refine agrees_bind_eq contained_skip fun _ => agrees_peek (fun c => ?_) hfinish hfinish.advances
  -- the cases are those of the step, by the next character
  split
  case h_1 => next hnone => cases hnone
  case h_2 => exact hfinish
  case h_3 =>
    refine agrees_bind_eq contained_advance fun _ => ?_
    rw [ofParts_renumber]
    exact h (Node.ofParts parts :: alternatives) []
  case h_4 =>
    refine agrees_bind_eq contained_flags fun outer => ?_
    refine agrees_bind agrees_readGroupOpening (fun opening => ⟨_, rfl⟩)
      fun opening _ hopening => ?_
    rw [← hopening]
    cases opening with
    | switch flags =>
        refine agrees_bind_eq (contained_setFlags flags) fun _ => ?_
        exact h alternatives (none :: parts)
    | plain flags =>
        refine agrees_bind_eq (contained_setFlags flags) fun _ => ?_
        exact agrees_group h outer id id (fun _ => rfl) alternatives parts
    | capture group =>
        exact agrees_group h outer (.capture group) (.capture (around.number group)) (fun _ => rfl)
          alternatives parts
  case h_5 =>
    refine agrees_bind_eq contained_readBracket fun members => ?_
    exact h alternatives (some (.char members) :: parts)
  case h_6 hsame =>
    cases hsame
    refine agrees_ite ?_ ?_
    · rcases parts with - | ⟨- | body, before⟩
      · exact agrees_failure
      · exact agrees_failure
      · refine agrees_bind (agrees_readRepeated c rfl) (fun node => ⟨_, rfl⟩)
          fun repeated _ hrepeated => ?_
        rw [← hrepeated]
        exact h alternatives (some repeated :: before)
    · refine agrees_bind (agrees_readSingle c) (fun node => ⟨_, rfl⟩) fun single _ hsingle => ?_
      rw [← hsingle]
      exact h alternatives (some single :: parts)

end

theorem advances_readNode (bound : Nat) (alternatives : List Node) (parts : List (Option Node)) :
    (readNode bound alternatives parts).Advances around := by
  suffices hsame : ∀ alternatives parts, Agrees around (Node.Within around)
      (readNode bound alternatives parts)
      (readNode bound (alternatives.map (Node.renumber around.number))
        (parts.map (Option.map (Node.renumber around.number)))) from
    (hsame alternatives parts).advances
  induction bound with
  | zero => exact fun _ _ => agrees_failure
  | succ bound ih =>
      rw [readNode_succ]
      exact agrees_nodeStep ih

/-- Whatever bounds a pattern is read with, it is the same in its surroundings. -/
theorem agrees_readNode (bound bound' : Nat) (alternatives : List Node)
    (parts : List (Option Node)) :
    Agrees around (Node.Within around) (readNode bound alternatives parts)
      (readNode bound' (alternatives.map (Node.renumber around.number))
        (parts.map (Option.map (Node.renumber around.number)))) := by
  induction bound generalizing bound' alternatives parts with
  | zero => exact agrees_failure
  | succ bound ih =>
      cases bound' with
      | zero =>
          exact ⟨advances_readNode (bound + 1) alternatives parts,
            fun _ _ _ _ _ _ _ _ _ _ hrun => nomatch hrun⟩
      | succ bound' =>
          rw [readNode_succ, readNode_succ]
          exact agrees_nodeStep (ih bound') alternatives parts

/-! ## Contained patterns -/

/-- The start of reading a pattern. -/
def Reading.start (text : List Char) : Reading where
  rest := text
  flags := {}
  groups := 0
  names := []

/-- In front of a closing parenthesis the pattern ends there, and just one group is opened in it. -/
def isContained (pattern : String) : Bool :=
  match (readNode (pattern.length + 2) [] []).run (.start (pattern.toList ++ [')'])) with
  | some (_, reading) => reading.rest = [')'] ∧ reading.groups = 1
  | none => false

/-- The text is read as the pattern `own`, and contained. -/
structure StandsFor (text : String) (own : Pattern) : Prop where
  read : Pattern.ofText? text = some own
  contained : isContained text = true

variable {text : String} {own : Pattern} {behind : List Char} {node node' : Node}
  {reading after final : Reading}

/-- A pattern in front of a closing parenthesis and the same pattern somewhere else. -/
theorem run_elsewhere {bound bound' : Nat}
    (halone : (readNode bound [] []).run (.start (text.toList ++ [')'])) = some (node, final))
    (hclosing : final.rest = [')']) (hgroups : final.groups = 1)
    (hbehind : Closes behind)
    (hrest : reading.rest = text.toList ++ behind) (hflags : reading.flags = {})
    (hrun : (readNode bound' [] []).run reading = some (node', after)) :
    node' = node.renumber (onlyGroup (reading.groups + 1)) ∧ after.rest = behind ∧
      after.groups = reading.groups + 1 := by
  let around : Surroundings :=
    { behind := behind
      groupsBefore := reading.groups
      limit := 1
      number := onlyGroup (reading.groups + 1)
      stops := hbehind
      numbers := by
        intro group hgroup
        obtain rfl : group = 0 := Nat.lt_one_iff.mp hgroup
        show reading.groups + 1 = 0 + reading.groups + 1
        rw [Nat.zero_add] }
  have hbeside : Reading.Beside around text.toList (.start (text.toList ++ [')'])) reading :=
    ⟨rfl, hrest, hflags, (Nat.zero_add _).symm⟩
  have hinside : final.IsInside around :=
    ⟨by rw [hclosing]; exact List.cons_ne_nil _ _, Nat.le_of_eq hgroups⟩
  obtain ⟨hnode, left, hleft⟩ :=
    (agrees_readNode bound bound' [] []).follows _ _ _ _ _ _ _ hbeside halone hinside hrun
  -- both readings stop at what follows the pattern, so nothing of it is left
  have hempty : left = [] := by
    have hsame := hleft.rest
    rw [hclosing] at hsame
    exact List.append_left_eq_self.mp hsame.symm
  refine ⟨hnode.symm, ?_, ?_⟩
  · rw [hleft.rest_within, hempty]
    rfl
  · rw [hleft.groups, hgroups, Nat.add_comm]

/-- Wherever a contained pattern stands, it is read as it is alone, with the next number for its
group. -/
theorem run_contained {bound : Nat} (htext : StandsFor text own)
    (hbehind : Closes behind)
    (hrest : reading.rest = text.toList ++ behind) (hflags : reading.flags = {})
    (hrun : (readNode bound [] []).run reading = some (node', after)) :
    node' = own.node.renumber (onlyGroup (reading.groups + 1)) ∧ after.rest = behind ∧
      after.groups = reading.groups + 1 := by
  have hcontained := htext.contained
  unfold isContained at hcontained
  split at hcontained
  case h_2 => cases hcontained
  case h_1 node final halone =>
    obtain ⟨hclosing, hgroups⟩ := of_decide_eq_true hcontained
    obtain ⟨hnode, hafter⟩ := run_elsewhere halone hclosing hgroups hbehind hrest hflags hrun
    refine ⟨?_, hafter⟩
    -- Alone the pattern stands in front of the end.
    have hread := htext.read
    unfold Pattern.ofText? at hread
    dsimp only at hread
    split at hread
    case h_2 => cases hread
    case h_1 found _ hown =>
      split at hread
      case isFalse => cases hread
      case isTrue =>
        cases hread
        obtain ⟨halone', -⟩ := run_elsewhere halone hclosing hgroups
          closes_nil (List.append_nil _).symm rfl hown
        rw [hnode, halone', renumber_onlyGroup]

/-! ## Choices of contained patterns -/

/-- A pattern in a group that is not captured. -/
def grouped (pattern : List Char) : List Char :=
  '(' :: '?' :: ':' :: pattern ++ [')']

/-- The patterns in groups, one behind the other. -/
def alternatives (first : String) (others : List String) : List Char :=
  List.intercalate ['|'] ((first :: others).map fun pattern => grouped pattern.toList)

theorem run_plainOpening (text : List Char) (groups : Nat) (names : List String) :
    readGroupOpening.run ⟨'(' :: '?' :: ':' :: text, {}, groups, names⟩ =
      some (.plain {}, ⟨text, {}, groups, names⟩) :=
  rfl

theorem run_grouped {bound : Nat} {alternatives : List Node}
    (htext : StandsFor text own) (hrest : reading.rest = grouped text.toList ++ behind)
    (hflags : reading.flags = {})
    (hrun : (readNode (bound + 1) alternatives []).run reading = some (node', after)) :
    ∃ middle, (readNode bound alternatives
          [some (own.node.renumber (onlyGroup (reading.groups + 1)))]).run middle =
        some (node', after) ∧
      middle.rest = behind ∧ middle.flags = {} ∧ middle.groups = reading.groups + 1 := by
  obtain ⟨rest, flags, groups, names⟩ := reading
  obtain rfl : flags = {} := hflags
  have hparts : rest = '(' :: '?' :: ':' :: (text.toList ++ ')' :: behind) := by
    rw [show rest = grouped text.toList ++ behind from hrest]
    simp only [grouped, List.cons_append, List.append_assoc, List.nil_append]
  subst hparts
  -- Nothing is skipped, and a group without a number opens.
  obtain ⟨_, start, hskip, hrun⟩ := run_bind_some.mp hrun
  cases hskip
  obtain ⟨_, start, hpeek, hrun⟩ := run_bind_some.mp hrun
  cases hpeek
  obtain ⟨outer, start, houter, hrun⟩ := run_bind_some.mp hrun
  cases houter
  obtain ⟨opening, start, hopening, hrun⟩ := run_bind_some.mp hrun
  rw [run_plainOpening] at hopening
  cases hopening
  obtain ⟨_, start, hset, hrun⟩ := run_bind_some.mp hrun
  cases hset
  obtain ⟨body, middle, hbody, hrun⟩ := run_bind_some.mp hrun
  obtain ⟨rfl, hmiddle, hgroups⟩ := run_contained htext (closes_cons behind) rfl rfl hbody
  obtain ⟨accepted, left, haccept, hrun⟩ := run_bind_some.mp hrun
  rw [run_accept, hmiddle] at haccept
  cases haccept
  obtain ⟨_, left, hset, hrun⟩ := run_bind_some.mp hrun
  cases hset
  exact ⟨_, hrun, rfl, rfl, hgroups⟩

/-- The end of the text ends the last alternative. -/
theorem run_readNode_end {bound : Nat} {before : List Node} {parts : List (Option Node)}
    (hend : reading.rest = []) (hflags : reading.flags = {})
    (hrun : (readNode bound before parts).run reading = some (node', after)) :
    node' = Node.ofAlternatives (Node.ofParts parts) before := by
  obtain ⟨rest, flags, groups, names⟩ := reading
  cases hend
  cases hflags
  cases bound with
  | zero => exact nomatch hrun
  | succ bound =>
      obtain ⟨_, start, hskip, hrun⟩ := run_bind_some.mp hrun
      cases hskip
      obtain ⟨_, start, hpeek, hrun⟩ := run_bind_some.mp hrun
      cases hpeek
      cases hrun
      rfl

/-- Behind a bar the next alternative is read. -/
theorem run_readNode_bar {bound : Nat} {before : List Node} {parts : List (Option Node)}
    {rest : List Char} (hbar : reading.rest = '|' :: rest) (hflags : reading.flags = {})
    (hrun : (readNode bound before parts).run reading = some (node', after)) :
    ∃ bound', (readNode bound' (Node.ofParts parts :: before) []).run { reading with rest := rest } =
      some (node', after) := by
  obtain ⟨_, flags, groups, names⟩ := reading
  cases hbar
  cases hflags
  cases bound with
  | zero => exact nomatch hrun
  | succ bound =>
      obtain ⟨_, start, hskip, hrun⟩ := run_bind_some.mp hrun
      cases hskip
      obtain ⟨_, start, hpeek, hrun⟩ := run_bind_some.mp hrun
      cases hpeek
      obtain ⟨_, start, hadvance, hrun⟩ := run_bind_some.mp hrun
      cases hadvance
      exact ⟨bound, hrun⟩

/-- The induction is on the patterns behind the first one. -/
theorem run_alternatives {bound : Nat} {first : String} {others : List String}
    {owns : List Pattern} {before : List Node} (hfirst : StandsFor first own)
    (hothers : List.Forall₂ StandsFor others owns)
    (hrest : reading.rest = alternatives first others) (hflags : reading.flags = {})
    (hrun : (readNode bound before []).run reading = some (node', after)) :
    node' = Node.ofAlternatives
      (Node.oneOf (reading.groups + 1) own.node (owns.map Pattern.node)) before := by
  induction hothers generalizing bound first own before reading with
  | nil =>
      have hrest : reading.rest = grouped first.toList ++ [] := by
        rw [hrest, alternatives, List.map_cons, List.map_nil, List.intercalate_singleton,
          List.append_nil]
      cases bound with
      | zero => exact nomatch hrun
      | succ bound =>
          obtain ⟨middle, hrun, hend, hplain, -⟩ := run_grouped hfirst hrest hflags hrun
          exact run_readNode_end hend hplain hrun
  | @cons second own' others owns hsecond hothers ih =>
      have hrest : reading.rest = grouped first.toList ++ '|' :: alternatives second others := by
        rw [hrest, alternatives, List.map_cons, List.map_cons, List.intercalate_cons_cons,
          List.append_assoc]
        rfl
      cases bound with
      | zero => exact nomatch hrun
      | succ bound =>
          obtain ⟨⟨_, _, groups, _⟩, hrun, hbar, hplain, hgroups⟩ :=
            run_grouped hfirst hrest hflags hrun
          obtain ⟨bound', hrun⟩ := run_readNode_bar hbar hplain hrun
          cases hgroups
          refine ih hsecond ?_ ?_ hrun
          · rfl
          · exact hplain

/-- The patterns in groups and with bars between them are read as the choice of what they are
alone. -/
theorem ofText_alternatives {first : String} {others : List String} {owns : List Pattern}
    {joined : Pattern} (hfirst : StandsFor first own)
    (hothers : List.Forall₂ StandsFor others owns)
    (htext : text.toList = alternatives first others) (h : Pattern.ofText? text = some joined) :
    joined.node = Node.oneOf 1 own.node (owns.map Pattern.node) := by
  unfold Pattern.ofText? at h
  dsimp only at h
  split at h
  case h_2 => cases h
  case h_1 found final hrun =>
    split at h
    · cases h
      exact run_alternatives hfirst hothers htext rfl hrun
    · cases h

end TemplateBundle.Regex

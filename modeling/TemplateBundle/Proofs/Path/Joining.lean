import Mathlib.Tactic.SplitIfs
import TemplateBundle.Path
import TemplateBundle.Proofs.Text.Pieces

/-!
# Paths put together and taken apart

The steps of a path behind a directory are those of the directory and its own (`components_join`). A
path as seen from a directory that it lies below has the steps that come behind those of the
directory (`relative_to_below`), so that behind the directory it has all its steps again.
-/

namespace TemplateBundle.Path

variable {path base directory : Path} {pieces : List (List Char)}

/-! ## Steps and pieces -/

/-- The root or the leading dot of a path, if it has one. -/
def start (path : Path) : List Component :=
  if path.isAbsolute then [.root]
  else if path.segments.head? == some ['.'] then [.current]
  else []

/-- The steps that pieces stand for. -/
def stepsOf (pieces : List (List Char)) : List Component :=
  pieces.filterMap Component.ofSegment?

theorem components_eq (path : Path) : path.components = path.start ++ stepsOf path.segments := rfl

/-- The pieces end with one that is a step. -/
def EndInStep (pieces : List (List Char)) : Prop :=
  ∃ piece, pieces.getLast? = some piece ∧ isSilent piece = false

theorem of_segment_silent {piece : List Char} (h : isSilent piece = true) :
    Component.ofSegment? piece = none := if_pos h

theorem of_segment_step {piece : List Char} (h : isSilent piece = false) :
    ∃ step, Component.ofSegment? piece = some step := by
  unfold Component.ofSegment?
  rw [if_neg (by simp [h])]
  split
  · exact ⟨_, rfl⟩
  · exact ⟨_, rfl⟩

/-- The piece of a path is a name. -/
structure IsName (piece : List Char) : Prop where
  ne_nil : piece ≠ []
  separator : '/' ∉ piece
  ne_current : piece ≠ ['.']
  ne_parent : piece ≠ ['.', '.']

theorem IsName.text_ne {piece : List Char} (h : IsName piece) :
    String.ofList piece ≠ "" ∧ String.ofList piece ≠ "." ∧ String.ofList piece ≠ ".." := by
  have hother {other : List Char} (hne : piece ≠ other) :
      String.ofList piece ≠ String.ofList other := fun h => hne (String.ofList_injective h)
  exact ⟨hother h.ne_nil, hother h.ne_current, hother h.ne_parent⟩

theorem IsName.not_silent {piece : List Char} (h : IsName piece) : isSilent piece = false := by
  simp [isSilent, h.ne_nil, h.ne_current]

theorem IsName.step {piece : List Char} (h : IsName piece) :
    Component.ofSegment? piece = some (.name (String.ofList piece)) := by
  simp [Component.ofSegment?, h.not_silent, h.ne_parent]

/-- Pieces that end with a step have one. -/
theorem EndInStep.steps_ne_nil (h : EndInStep pieces) : stepsOf pieces ≠ [] := by
  obtain ⟨piece, hlast, hpiece⟩ := h
  obtain ⟨step, hstep⟩ := of_segment_step hpiece
  have hmem : step ∈ stepsOf pieces :=
    List.mem_filterMap.mpr ⟨piece, List.mem_of_getLast? hlast, hstep⟩
  exact List.ne_nil_of_mem hmem

/-- Whether pieces end with a step is said by any end of them. -/
theorem EndInStep.suffix {ending : List (List Char)} (h : EndInStep pieces)
    (hsuffix : ending <:+ pieces) (hne : ending ≠ []) : EndInStep ending := by
  obtain ⟨piece, hlast, hpiece⟩ := h
  obtain ⟨front, rfl⟩ := hsuffix
  refine ⟨piece, ?_, hpiece⟩
  rwa [List.getLast?_append, Option.or_of_isSome (List.getLast?_isSome.mpr hne)] at hlast

theorem steps_of_drop_silent (pieces : List (List Char)) :
    stepsOf (pieces.dropWhile isSilent) = stepsOf pieces := by
  induction pieces with
  | nil => rfl
  | cons piece pieces ih =>
      cases hpiece : isSilent piece with
      | true =>
          rw [List.dropWhile_cons_of_pos hpiece, ih, stepsOf, stepsOf,
            List.filterMap_cons_none (of_segment_silent hpiece)]
      | false => rw [List.dropWhile_cons_of_neg (by simp [hpiece])]

/-- Dropping steps from pieces drops them from what the pieces stand for. -/
theorem steps_of_drop_steps (count : Nat) (pieces : List (List Char)) :
    stepsOf (dropSteps count pieces) = (stepsOf pieces).drop count := by
  induction pieces generalizing count with
  | nil => cases count <;> simp [dropSteps, stepsOf]
  | cons piece pieces ih =>
      cases count with
      | zero => rfl
      | succ count =>
          rw [dropSteps]
          cases hpiece : isSilent piece with
          | true =>
              rw [if_pos rfl, ih, stepsOf, stepsOf,
                List.filterMap_cons_none (of_segment_silent hpiece)]
          | false =>
              obtain ⟨step, hstep⟩ := of_segment_step hpiece
              rw [if_neg Bool.false_ne_true, ih, stepsOf, stepsOf,
                List.filterMap_cons_some hstep, List.drop_succ_cons]

theorem drop_steps_suffix (count : Nat) (pieces : List (List Char)) :
    dropSteps count pieces <:+ pieces := by
  induction pieces generalizing count with
  | nil => cases count <;> exact List.suffix_rfl
  | cons piece pieces ih =>
      cases count with
      | zero => exact List.suffix_rfl
      | succ count =>
          rw [dropSteps]
          split
          · exact (ih _).trans (List.suffix_cons _ _)
          · exact (ih _).trans (List.suffix_cons _ _)

theorem relative_iff : path.isAbsolute = false ↔ path.text.toList.head? ≠ some '/' := by
  simp [isAbsolute]

theorem segments_of_relative (h : path.isAbsolute = false) :
    path.segments = path.text.toList.splitOn '/' := by
  simp [segments, h]

theorem segments_ne_nil (h : path.isAbsolute = false) : path.segments ≠ [] := by
  rw [segments_of_relative h]
  exact List.splitOn_ne_nil _ _

theorem separator_of_segments (h : path.isAbsolute = false) :
    ∀ piece ∈ path.segments, '/' ∉ piece := by
  intro piece hpiece hmem
  rw [segments_of_relative h] at hpiece
  exact (Text.mem_of_mem_piece '/' _ piece hpiece '/' hmem).2 rfl

theorem join_segments_of_relative (h : path.isAbsolute = false) :
    joinSegments path.segments = path.text.toList := by
  rw [segments_of_relative h, joinSegments, List.intercalate_splitOn]

/-- The pieces of a relative path are written as the path. -/
theorem of_segments_segments (h : path.isAbsolute = false) :
    ofSegments false path.segments = path := by
  rw [ofSegments, join_segments_of_relative h]
  simp

/-- A path with an empty last piece ends with a separator. -/
theorem ends_open_of_segments (h : path.isAbsolute = false) (hne : path.text ≠ "")
    (hlast : path.segments.getLast? = some []) : path.text.toList.getLast? = some '/' := by
  rw [segments_of_relative h] at hlast
  rcases Text.exists_last_piece '/' path.text.toList with hsingle | ⟨front, last, htext, hpiece⟩
  · rw [List.splitOn_eq_singleton hsingle, List.getLast?_singleton, Option.some.injEq,
      String.toList_eq_nil_iff] at hlast
    exact absurd hlast hne
  · rw [htext, List.splitOn_append_cons_self, List.splitOn_eq_singleton hpiece,
      List.getLast?_concat, Option.some.injEq] at hlast
    rw [htext, hlast, List.getLast?_concat]

/-- A text without separators is a relative path of one piece. -/
theorem segments_of_piece {piece : List Char} (h : '/' ∉ piece) :
    (⟨String.ofList piece⟩ : Path).isAbsolute = false ∧
      (⟨String.ofList piece⟩ : Path).segments = [piece] := by
  have hrelative : (⟨String.ofList piece⟩ : Path).isAbsolute = false := by
    rw [relative_iff, String.toList_ofList]
    exact fun hhead => h (List.mem_of_head? hhead)
  refine ⟨hrelative, ?_⟩
  rw [segments_of_relative hrelative, String.toList_ofList]
  exact List.splitOn_eq_singleton h

/-- A relative path that is written at all does not start with an empty piece. -/
theorem first_piece (hpath : path.isAbsolute = false) (h : path.text ≠ "") :
    ∃ first others, path.segments = first :: others ∧ first ≠ [] := by
  rw [segments_of_relative hpath]
  rw [relative_iff] at hpath
  obtain ⟨c, text, htext⟩ :=
    List.exists_cons_of_ne_nil fun hnil => h (String.toList_eq_nil_iff.mp hnil)
  have hc : (c == '/') = false := by simpa [htext] using hpath
  obtain ⟨first, others, hpieces⟩ := List.exists_cons_of_ne_nil (List.splitOn_ne_nil '/' text)
  rw [htext, List.splitOn_cons_eq_if_modifyHead, hc, if_neg Bool.false_ne_true, hpieces]
  exact ⟨c :: first, others, rfl, List.cons_ne_nil _ _⟩

/-- A path that is written at all has steps: it starts with a separator, a dot or a name. -/
theorem components_ne_nil (h : path.text ≠ "") : path.components ≠ [] := by
  rw [components_eq, start]
  cases hpath : path.isAbsolute with
  | true => exact List.cons_ne_nil _ _
  | false =>
      obtain ⟨first, others, hsegments, hfirst⟩ := first_piece hpath h
      rw [hsegments]
      by_cases hdot : first = ['.']
      · simp [hdot]
      · have hsilent : isSilent first = false := by simpa [isSilent, hfirst] using hdot
        obtain ⟨step, hstep⟩ := of_segment_step hsilent
        simp [stepsOf, List.filterMap_cons_some hstep]

/-! ## Paths put together -/

theorem join_of_absolute (h : path.isAbsolute = true) : directory.join path = path := if_pos h

theorem join_empty (path : Path) : (⟨""⟩ : Path).join path = path := by
  unfold join
  split_ifs
  · rfl
  · rfl

/-- A path behind a directory: what stands before the separator between them is the directory, up to
a separator at its end. -/
theorem join_text (hpath : path.isAbsolute = false) (hdirectory : directory.text ≠ "") :
    ∃ front, (directory.join path).text.toList = front ++ '/' :: path.text.toList ∧
      ((directory.text.toList = front ∧ front.getLast? ≠ some '/') ∨
        directory.text.toList = front ++ ['/']) := by
  unfold join
  rw [hpath, if_neg Bool.false_ne_true]
  cases hlast : directory.text.toList.getLast? with
  | none =>
      exact absurd (String.toList_eq_nil_iff.mp (List.getLast?_eq_none_iff.mp hlast)) hdirectory
  | some last =>
      obtain ⟨front, hfront⟩ := List.getLast?_eq_some_iff.mp hlast
      by_cases hopen : last = '/'
      · refine ⟨front, ?_, .inr (hopen ▸ hfront)⟩
        simp [hopen, hfront]
      · exact ⟨directory.text.toList, by simp [hopen], .inl ⟨rfl, by simpa [hlast] using hopen⟩⟩

/-- A path behind a directory ends with the same character. -/
theorem last_join (directory : Path) (hpath : path.isAbsolute = false) (hne : path.text ≠ "") :
    (directory.join path).text.toList.getLast? = path.text.toList.getLast? := by
  by_cases hdirectory : directory.text = ""
  · obtain rfl : directory = ⟨""⟩ := congrArg Path.mk hdirectory
    rw [join_empty]
  · obtain ⟨front, hjoin, -⟩ := join_text hpath hdirectory
    have htext : path.text.toList ≠ [] := fun h => hne (String.toList_eq_nil_iff.mp h)
    rw [hjoin, List.getLast?_append, List.getLast?_cons_of_ne_nil htext,
      Option.or_of_isSome (List.getLast?_isSome.mpr htext)]

/-- A path behind a directory is absolute if the directory is. -/
theorem is_absolute_join (hpath : path.isAbsolute = false) (hdirectory : directory.text ≠ "") :
    (directory.join path).isAbsolute = directory.isAbsolute := by
  have hne : directory.text.toList ≠ [] := fun h => hdirectory (String.toList_eq_nil_iff.mp h)
  obtain ⟨front, hjoin, hfront⟩ := join_text hpath hdirectory
  unfold isAbsolute
  rw [hjoin]
  rcases hfront with ⟨hfront, -⟩ | hfront
  · rw [hfront] at hne ⊢
    rw [List.head?_append, Option.or_of_isSome (List.isSome_head?.mpr hne)]
  · rw [hfront, List.head?_append, List.head?_append]
    rfl

/-- The pieces of a path behind a directory end with its own, and the others are those of the
directory, perhaps without an empty one at the end. -/
theorem segments_join (hdirectory : directory.isAbsolute = false) (hne : directory.text ≠ "")
    (hpath : path.isAbsolute = false) :
    ∃ front, (directory.join path).segments = front ++ path.segments ∧ front ≠ [] ∧
      (directory.segments = front ∨ directory.segments = front ++ [[]]) := by
  obtain ⟨front, hjoin, hfront⟩ := join_text hpath hne
  have hjoined := (is_absolute_join hpath hne).trans hdirectory
  refine ⟨front.splitOn '/', ?_, List.splitOn_ne_nil _ _, ?_⟩
  · rw [segments_of_relative hjoined, hjoin, List.splitOn_append_cons_self,
      segments_of_relative hpath]
  · rw [segments_of_relative hdirectory]
    rcases hfront with ⟨hfront, -⟩ | hfront
    · exact .inl (congrArg (List.splitOn '/') hfront)
    · rw [hfront, List.splitOn_append_cons_self]
      exact .inr rfl

/-- Behind any directory, the pieces of a path come last. -/
theorem segments_join_suffix (directory : Path) (hpath : path.isAbsolute = false) :
    path.segments <:+ (directory.join path).segments := by
  by_cases hne : directory.text = ""
  · obtain rfl : directory = ⟨""⟩ := congrArg Path.mk hne
    exact ⟨[], congrArg segments (join_empty path).symm⟩
  · obtain ⟨front, hjoin, -⟩ := join_text hpath hne
    have hbehind (front : List Char) :
        path.segments <:+ (front ++ '/' :: path.text.toList).splitOn '/' := by
      rw [segments_of_relative hpath, List.splitOn_append_cons_self]
      exact List.suffix_append _ _
    have hsegments : (directory.join path).segments =
        (if (directory.join path).isAbsolute then (front ++ '/' :: path.text.toList).tail
          else front ++ '/' :: path.text.toList).splitOn '/' := by
      rw [← hjoin]
      rfl
    rw [hsegments]
    cases front with
    | nil =>
        have hroot : (directory.join path).isAbsolute = true := by
          rw [isAbsolute, hjoin]
          rfl
        rw [if_pos hroot, segments_of_relative hpath]
        exact List.suffix_rfl
    | cons c front =>
        split_ifs
        · exact hbehind front
        · exact hbehind (c :: front)

theorem steps_of_front {front : List (List Char)}
    (h : pieces = front ∨ pieces = front ++ [[]]) : stepsOf pieces = stepsOf front := by
  rcases h with rfl | rfl
  · rfl
  · rw [stepsOf, List.filterMap_append]
    exact List.append_nil _

/-- A path behind a directory has the steps of the directory first; a leading dot of the path is no
step any more. -/
theorem components_join (hdirectory : directory.isAbsolute = false) (hne : directory.text ≠ "")
    (hpath : path.isAbsolute = false) :
    (directory.join path).components = directory.components ++ stepsOf path.segments := by
  obtain ⟨front, hsegments, hfront, hpieces⟩ := segments_join hdirectory hne hpath
  have hhead : directory.segments.head? = front.head? := by
    rcases hpieces with hpieces | hpieces
    · rw [hpieces]
    · rw [hpieces, List.head?_append, Option.or_of_isSome (List.isSome_head?.mpr hfront)]
  have hstart : (directory.join path).start = directory.start := by
    unfold start
    rw [is_absolute_join hpath hne, hsegments, List.head?_append,
      Option.or_of_isSome (List.isSome_head?.mpr hfront), hhead]
  rw [components_eq, components_eq, hstart, hsegments, steps_of_front hpieces, stepsOf,
    List.filterMap_append, List.append_assoc]
  rfl

/-- A path behind a directory ends as the path does. -/
theorem end_in_step_join (hdirectory : directory.isAbsolute = false) (hne : directory.text ≠ "")
    (hpath : path.isAbsolute = false) :
    EndInStep (directory.join path).segments ↔ EndInStep path.segments := by
  obtain ⟨front, hsegments, -⟩ := segments_join hdirectory hne hpath
  have hpieces := List.getLast?_isSome.mpr (segments_ne_nil hpath)
  unfold EndInStep
  rw [hsegments, List.getLast?_append, Option.or_of_isSome hpieces]

/-! ## Paths seen from a directory -/

/-- Pieces that are written as a path are its pieces. -/
theorem segments_of_segments (hne : pieces ≠ []) (hfirst : pieces.head? ≠ some [])
    (hpieces : ∀ piece ∈ pieces, '/' ∉ piece) :
    (ofSegments false pieces).isAbsolute = false ∧ (ofSegments false pieces).segments = pieces := by
  have habsolute : (ofSegments false pieces).isAbsolute = false := by
    rw [relative_iff]
    obtain ⟨first, others, rfl⟩ := List.exists_cons_of_ne_nil hne
    cases first with
    | nil => exact absurd rfl hfirst
    | cons c first =>
        have hc : c ≠ '/' := fun h =>
          hpieces (c :: first) List.mem_cons_self (h ▸ List.mem_cons_self)
        cases others <;> simpa [ofSegments, joinSegments, List.intercalate] using hc
  refine ⟨habsolute, ?_⟩
  rw [segments_of_relative habsolute]
  simp only [ofSegments, String.toList_ofList, Bool.false_eq_true, if_false, List.nil_append]
  exact List.splitOn_intercalate '/' hpieces hne

theorem EndInStep.drop_silent_end (h : EndInStep pieces) : dropSilentEnd pieces = pieces := by
  obtain ⟨piece, hlast, hpiece⟩ := h
  obtain ⟨front, rfl⟩ := List.getLast?_eq_some_iff.mp hlast
  rw [dropSilentEnd, List.reverse_append, List.reverse_singleton, List.singleton_append,
    List.dropWhile_cons_of_neg (by simp [hpiece]), List.reverse_cons, List.reverse_reverse]

/-- Nothing is left out at the end of a path that ends with a step. -/
theorem significant_segments_eq (h : EndInStep path.segments) :
    path.significantSegments = path.segments := by
  unfold significantSegments
  dsimp only
  split_ifs with hdot
  · have hhead : path.segments.head? = some ['.'] := by simp_all
    obtain ⟨tail, htail⟩ := List.head?_eq_some_iff.mp hhead
    have hne : tail ≠ [] := by
      rintro rfl
      exact absurd rfl (htail ▸ h).steps_ne_nil
    rw [htail] at h ⊢
    rw [List.tail_cons, (h.suffix (List.suffix_cons _ _) hne).drop_silent_end]
  · exact h.drop_silent_end

theorem relative_to_empty (hpath : path.isAbsolute = false) (hend : EndInStep path.segments) :
    path.relativeTo ⟨""⟩ = path := by
  have hempty : (⟨""⟩ : Path).components = [] := by decide
  rw [relativeTo, stripBase?, hempty]
  simp [hpath, significant_segments_eq hend, of_segments_segments hpath]

/-- What a piece stands for is a name or a way up. -/
theorem of_segment_relative {piece : List Char} {step : Component}
    (h : Component.ofSegment? piece = some step) : step ≠ .root ∧ step ≠ .current := by
  unfold Component.ofSegment? at h
  split_ifs at h <;> cases h <;> exact ⟨nofun, nofun⟩

/-- The steps of a relative path are those of its pieces, behind a leading dot if there is one. -/
theorem components_of_relative (hpath : path.isAbsolute = false) :
    (path.segments.head? ≠ some ['.'] ∧ path.components = stepsOf path.segments ∧
      Component.current ∉ path.components) ∨
      ∃ tail, path.segments = ['.'] :: tail ∧ path.components = .current :: stepsOf tail := by
  rw [components_eq, start, hpath, if_neg Bool.false_ne_true]
  by_cases hhead : path.segments.head? = some ['.']
  · obtain ⟨tail, htail⟩ := List.head?_eq_some_iff.mp hhead
    exact .inr ⟨tail, htail, by rw [htail]; rfl⟩
  · rw [if_neg (by simpa using hhead), List.nil_append]
    refine .inl ⟨hhead, rfl, fun hcurrent => ?_⟩
    obtain ⟨piece, -, hpiece⟩ := List.mem_filterMap.mp hcurrent
    exact (of_segment_relative hpiece).2 rfl

/-- A piece that is a step is a path with that step. -/
theorem components_of_piece {piece : List Char} {step : Component} (hseparator : '/' ∉ piece)
    (hstep : Component.ofSegment? piece = some step) :
    (⟨String.ofList piece⟩ : Path).components = [step] := by
  obtain ⟨hrelative, hsegments⟩ := segments_of_piece hseparator
  rcases components_of_relative hrelative with ⟨-, hsteps, -⟩ | ⟨tail, htail, -⟩
  · rw [hsteps, hsegments]
    exact List.filterMap_cons_some hstep
  · rw [hsegments] at htail
    obtain ⟨rfl, -⟩ := List.cons.inj htail
    cases hstep

/-- A path without a leading dot starts with the step of its first piece. -/
theorem first_step {first : List Char} {others : List (List Char)} (hpath : path.isAbsolute = false)
    (hne : path.text ≠ "") (hdot : path.components.head? ≠ some .current)
    (hpieces : path.segments = first :: others ∨ path.segments = (first :: others) ++ [[]]) :
    ∃ step, Component.ofSegment? first = some step ∧ path.components = step :: stepsOf others := by
  rcases components_of_relative hpath with ⟨hhead, hsteps, -⟩ | ⟨tail, -, hsteps⟩
  · have hsame : path.segments.head? = some first := by rcases hpieces with h | h <;> rw [h] <;> rfl
    obtain ⟨piece, rest, hsegments, hpiece⟩ := first_piece hpath hne
    obtain rfl : piece = first := by simpa [hsegments] using hsame
    have hsilent : isSilent piece = false := by
      simpa [isSilent, hpiece] using fun h => hhead (hsame.trans (congrArg some h))
    obtain ⟨step, hstep⟩ := of_segment_step hsilent
    refine ⟨step, hstep, ?_⟩
    rw [hsteps, steps_of_front hpieces]
    exact List.filterMap_cons_some hstep
  · rw [hsteps] at hdot
    exact absurd rfl hdot

/-- What is left of a path below a directory stands for the steps that the directory lacks. -/
theorem strip_base_below {extra : List Component} (hpath : path.isAbsolute = false)
    (hend : EndInStep path.segments) (hbase : base.components ≠ [])
    (hbelow : base.components ++ extra = path.components) :
    ∃ remaining, path.stripBase? base = some (ofSegments false (remaining.dropWhile isSilent)) ∧
      remaining <:+ path.segments ∧ stepsOf remaining = extra := by
  unfold stripBase?
  dsimp only
  rw [if_pos (List.isPrefixOf_iff_prefix.mpr ⟨extra, hbelow⟩), significant_segments_eq hend]
  obtain ⟨first, others, hfirst⟩ := List.exists_cons_of_ne_nil hbase
  rw [hfirst] at hbelow ⊢
  rcases components_of_relative hpath with ⟨-, hsteps, hcurrent⟩ | ⟨tail, htail, hsteps⟩
  · -- without a leading dot, the directory starts with a piece of the path
    have hdrop : stepsOf (dropSteps (others.length + 1) path.segments) = extra := by
      rw [steps_of_drop_steps, ← hsteps, ← hbelow]
      exact List.drop_left
    have hmem : first ∈ path.components := hbelow ▸ List.mem_cons_self
    cases first with
    | root =>
        rw [hsteps] at hmem
        obtain ⟨piece, -, hpiece⟩ := List.mem_filterMap.mp hmem
        exact absurd rfl (of_segment_relative hpiece).1
    | current => exact absurd hmem hcurrent
    | parent => exact ⟨_, rfl, drop_steps_suffix _ _, hdrop⟩
    | name text => exact ⟨_, rfl, drop_steps_suffix _ _, hdrop⟩
  · rw [hsteps, List.cons_append] at hbelow
    obtain ⟨rfl, hrest⟩ := List.cons.inj hbelow
    refine ⟨dropSteps others.length path.segments.tail, rfl, ?_, ?_⟩
    · exact (drop_steps_suffix _ _).trans (List.tail_suffix _)
    · rw [steps_of_drop_steps, htail, List.tail_cons, ← hrest]
      exact List.drop_left

/-- A path as seen from a directory that it lies below has the steps that the directory does not
have. -/
theorem relative_to_below {extra : List Component} (hpath : path.isAbsolute = false)
    (hend : EndInStep path.segments) (hbase : base.components ≠ [])
    (hbelow : base.components ++ extra = path.components) (hextra : extra ≠ []) :
    (path.relativeTo base).isAbsolute = false ∧ EndInStep (path.relativeTo base).segments ∧
      stepsOf (path.relativeTo base).segments = extra := by
  obtain ⟨remaining, hstrip, hsuffix, hsteps⟩ := strip_base_below hpath hend hbase hbelow
  have hpieces := steps_of_drop_silent remaining
  rw [hsteps] at hpieces
  have hsuffixPieces := (List.dropWhile_suffix isSilent).trans hsuffix
  have hne : remaining.dropWhile isSilent ≠ [] := fun h => hextra (by rw [← hpieces, h]; rfl)
  have hfirst : (remaining.dropWhile isSilent).head? ≠ some [] := by
    intro hhead
    have hsilent := List.head?_dropWhile_not isSilent remaining
    rw [hhead] at hsilent
    exact absurd hsilent (by decide)
  have hseparator : ∀ piece ∈ remaining.dropWhile isSilent, '/' ∉ piece :=
    fun piece hpiece => separator_of_segments hpath piece (hsuffixPieces.subset hpiece)
  obtain ⟨habsolute, hsegments⟩ := segments_of_segments hne hfirst hseparator
  rw [relativeTo, hstrip, Option.getD_some, hsegments]
  exact ⟨habsolute, hend.suffix hsuffixPieces hne, hpieces⟩

end TemplateBundle.Path

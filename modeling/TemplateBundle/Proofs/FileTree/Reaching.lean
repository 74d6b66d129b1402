import TemplateBundle.Proofs.FileTree.Steps

/-!
# Paths to the same file

Paths that go down by names lead to one file only if their names are the same
(`resolve_join_eq_iff`), wherever they start from. A leading dot makes no difference; a way up may.
-/

namespace TemplateBundle

namespace Path

variable {path : Path} {pieces : List (List Char)}

/-- The steps of a path without a leading dot. -/
def steps (path : Path) : List Component :=
  path.components.filter (· ≠ .current)

instance Component.decidableIsName : (step : Component) → Decidable (∃ name, step = .name name)
  | .name text => isTrue ⟨text, rfl⟩
  | .root => isFalse nofun
  | .current => isFalse nofun
  | .parent => isFalse nofun

/-- The path goes down by names, perhaps behind a leading dot: none of its steps is the root or
leads up. -/
def GoesDown (path : Path) : Prop :=
  ∀ step ∈ path.steps, ∃ name, step = .name name

instance decidableGoesDown : DecidablePred GoesDown :=
  fun path => inferInstanceAs (Decidable (∀ step ∈ path.steps, ∃ name, step = .name name))

theorem steps_of_relative (hpath : path.isAbsolute = false) :
    path.steps = stepsOf path.segments := by
  have hkept (pieces : List (List Char)) :
      (stepsOf pieces).filter (· ≠ Component.current) = stepsOf pieces := by
    refine List.filter_eq_self.mpr fun step hstep => ?_
    obtain ⟨piece, -, hpiece⟩ := List.mem_filterMap.mp hstep
    exact decide_eq_true (of_segment_relative hpiece).2
  unfold steps
  rcases components_of_relative hpath with ⟨-, hsteps, -⟩ | ⟨tail, htail, hsteps⟩
  · rw [hsteps, hkept]
  · rw [hsteps, htail, List.filter_cons_of_neg (by simp), hkept]
    rfl

end Path

namespace FileTree

open TemplateBundle.Path (Component stepsOf)

variable {tree : FileTree} {path directory first second : Path} {pieces : List (List Char)}
  {location : Location}

/-- A piece that is no step leads nowhere else. -/
theorem enter_silent {piece : List Char} (hpiece : Path.isSilent piece = true) (start : Location) :
    enter start (String.ofList piece) = start := by
  refine if_pos ?_
  rcases (by simpa [Path.isSilent] using hpiece : piece = [] ∨ piece = ['.']) with rfl | rfl
  · exact .inl rfl
  · exact .inr rfl

/-- A piece that is a name leads down. -/
theorem enter_name_piece {piece : List Char} {name : String}
    (hpiece : Component.ofSegment? piece = some (.name name)) (start : Location) :
    enter start (String.ofList piece) = start ++ [name] := by
  unfold Component.ofSegment? at hpiece
  split_ifs at hpiece with hsilent hparent
  · cases hpiece
  obtain rfl := Component.name.inj (Option.some.inj hpiece)
  have hne {other : List Char} (h : piece ≠ other) : String.ofList piece ≠ String.ofList other :=
    fun heq => h (String.ofList_injective heq)
  have hcurrent : piece ≠ [] ∧ piece ≠ ['.'] := by
    simpa [Path.isSilent] using hsilent
  have hup : piece ≠ ['.', '.'] := by
    simpa using hparent
  rw [enter, if_neg (not_or.mpr ⟨hne hcurrent.1, hne hcurrent.2⟩), if_neg (hne hup)]

/-- Pieces without a way up lead down by the names among them. The induction is on the pieces. -/
theorem enter_names (h : ∀ step ∈ stepsOf pieces, ∃ name, step = .name name) (start : Location) :
    (pieces.map String.ofList).foldl enter start = start ++ (stepsOf pieces).map pieceOf := by
  induction pieces generalizing start with
  | nil => exact (List.append_nil start).symm
  | cons piece pieces ih =>
      rw [List.map_cons, List.foldl_cons]
      cases hpiece : Path.isSilent piece with
      | true =>
          have hnone : stepsOf (piece :: pieces) = stepsOf pieces :=
            List.filterMap_cons_none (Path.of_segment_silent hpiece)
          rw [hnone] at h ⊢
          rw [enter_silent hpiece, ih h]
      | false =>
          obtain ⟨step, hstep⟩ := Path.of_segment_step hpiece
          have hsome : stepsOf (piece :: pieces) = step :: stepsOf pieces :=
            List.filterMap_cons_some hstep
          rw [hsome] at h ⊢
          obtain ⟨⟨name, rfl⟩, hothers⟩ := List.forall_mem_cons.mp h
          rw [enter_name_piece hstep, ih hothers, List.map_cons, List.append_assoc]
          rfl

/-- Where a path leads from a directory: to where the directory is, and on by the pieces of the
path. -/
theorem resolve_join (h : tree.resolve (directory.join path) = .ok location) :
    path.isAbsolute = false ∧ location = (path.segments.map String.ofList).foldl enter
      ((directory.segments.map String.ofList).foldl enter working) := by
  have hgoal := resolve_goal h
  unfold goal? at hgoal
  split_ifs at hgoal with hnowhere
  obtain ⟨-, hrelative⟩ := not_or.mp hnowhere
  rw [Bool.not_eq_true] at hrelative
  have hpath : path.isAbsolute = false := by
    by_contra habsolute
    rw [Bool.not_eq_false] at habsolute
    rw [Path.join_of_absolute habsolute, habsolute] at hrelative
    cases hrelative
  refine ⟨hpath, (Option.some.inj hgoal).symm.trans ?_⟩
  unfold piecesOf
  by_cases hne : directory.text = ""
  · obtain rfl : directory = ⟨""⟩ := congrArg Path.mk hne
    rw [Path.join_empty]
    rfl
  · rw [Path.is_absolute_join hpath hne] at hrelative
    obtain ⟨front, hjoin, -, hfront⟩ := Path.segments_join hrelative hne hpath
    have hsame : (directory.segments.map String.ofList).foldl enter working =
        (front.map String.ofList).foldl enter working := by
      rcases hfront with hfront | hfront
      · rw [hfront]
      · rw [hfront, List.map_append, List.foldl_append]
        -- a separator at the end of the directory leaves an empty piece, which leads nowhere
        have hempty : Path.isSilent [] = true := rfl
        exact enter_silent hempty _
    rw [hjoin, List.map_append, List.foldl_append, hsame]

/-- Names are told apart by how they are written. -/
theorem names_injective {names others : List Component}
    (hnames : ∀ step ∈ names, ∃ name, step = .name name)
    (hothers : ∀ step ∈ others, ∃ name, step = .name name)
    (h : names.map pieceOf = others.map pieceOf) : names = others := by
  induction names generalizing others with
  | nil => exact (List.map_eq_nil_iff.mp h.symm).symm
  | cons step names ih =>
      obtain ⟨other, rest, rfl⟩ : ∃ other rest, others = other :: rest :=
        List.exists_cons_of_ne_nil fun hnil => by simp [hnil] at h
      obtain ⟨⟨name, rfl⟩, hbehind⟩ := List.forall_mem_cons.mp hnames
      obtain ⟨⟨otherName, rfl⟩, hrest⟩ := List.forall_mem_cons.mp hothers
      obtain ⟨hname, hsame⟩ := List.cons.inj h
      rw [ih hbehind hrest hsame, show name = otherName from hname]

/-- Two paths that go down from a directory lead to the same place if their names are the same. -/
theorem resolve_join_eq_iff {other : Location}
    (hfirst : tree.resolve (directory.join first) = .ok location)
    (hsecond : tree.resolve (directory.join second) = .ok other)
    (hdown : first.GoesDown) (hother : second.GoesDown) :
    location = other ↔ first.steps = second.steps := by
  obtain ⟨hfirstPath, rfl⟩ := resolve_join hfirst
  obtain ⟨hsecondPath, rfl⟩ := resolve_join hsecond
  unfold Path.GoesDown at hdown hother
  rw [Path.steps_of_relative hfirstPath] at hdown ⊢
  rw [Path.steps_of_relative hsecondPath] at hother ⊢
  rw [enter_names hdown, enter_names hother, List.append_right_inj]
  exact ⟨names_injective hdown hother, congrArg _⟩

end FileTree

end TemplateBundle

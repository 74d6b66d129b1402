import TemplateBundle.Proofs.Except
import TemplateBundle.Proofs.FileTree.Lookup
import TemplateBundle.Proofs.Path.Joining

/-!
# Files by the steps of their paths

Whether a path leads to a file depends on its steps, and on whether it ends with one: a piece that
is no step asks for a directory (`is_file_iff_leads`).
-/

namespace TemplateBundle.FileTree

open TemplateBundle.Path (Component EndInStep isSilent stepsOf)

variable {tree : FileTree} {path directory : Path} {pieces : List (List Char)}
  {start next finish : Location} {entry : FileEntry} {steps : List Component}

/-- A step as it is written. -/
def pieceOf : Component → String
  | .root => ""
  | .current => "."
  | .parent => ".."
  | .name text => text

/-- The steps lead from the working directory to the entry. -/
def Leads (tree : FileTree) (steps : List Component) (entry : FileEntry) : Prop :=
  ∃ location, (steps.map pieceOf).foldlM tree.step working = .ok location ∧
    tree.get? location = some entry

/-- Steps lead to one entry at most. -/
theorem Leads.unique {other : FileEntry} (h : tree.Leads steps entry)
    (hother : tree.Leads steps other) : entry = other := by
  obtain ⟨location, hlocation, hentry⟩ := h
  obtain ⟨otherLocation, hotherLocation, hotherEntry⟩ := hother
  obtain rfl := Except.ok.inj (hlocation.symm.trans hotherLocation)
  exact Option.some.inj (hentry.symm.trans hotherEntry)

theorem piece_of_segment {piece : List Char} {step : Component}
    (h : Component.ofSegment? piece = some step) : pieceOf step = String.ofList piece := by
  unfold Component.ofSegment? at h
  split_ifs at h with hsilent hparent
  · cases h
    rw [beq_iff_eq.mp hparent]
    rfl
  · cases h
    rfl

/-- A piece that is no step asks for a directory and stays there. -/
theorem step_silent_iff {piece : List Char} (h : isSilent piece = true) :
    tree.step start (String.ofList piece) = .ok next ↔
      tree.get? start = some .directory ∧ start = next := by
  have hstay : String.ofList piece = "" ∨ String.ofList piece = "." := by
    rcases (by simpa [isSilent] using h : piece = [] ∨ piece = ['.']) with rfl | rfl
    · exact .inl rfl
    · exact .inr rfl
  rw [step_ok_iff, enter, if_pos hstay]

/-- Going on from a location asks for a directory. -/
theorem directory_of_fold_step {names : List String} (hne : names ≠ [])
    (h : names.foldlM tree.step start = .ok finish) : tree.get? start = some .directory := by
  obtain ⟨name, others, rfl⟩ := List.exists_cons_of_ne_nil hne
  rw [List.foldlM_cons] at h
  obtain ⟨middle, hstep, -⟩ := except_bind_ok_iff.mp h
  exact (step_ok_iff.mp hstep).1

/-- Pieces that are no steps may be left out. The induction is on the pieces. -/
theorem fold_steps_of_pieces (h : (pieces.map String.ofList).foldlM tree.step start = .ok finish) :
    ((stepsOf pieces).map pieceOf).foldlM tree.step start = .ok finish := by
  induction pieces generalizing start with
  | nil => exact h
  | cons piece pieces ih =>
      rw [List.map_cons, List.foldlM_cons] at h
      obtain ⟨middle, hstep, hrest⟩ := except_bind_ok_iff.mp h
      cases hpiece : isSilent piece with
      | true =>
          obtain ⟨-, rfl⟩ := (step_silent_iff hpiece).mp hstep
          rw [stepsOf, List.filterMap_cons_none (Path.of_segment_silent hpiece)]
          exact ih hrest
      | false =>
          obtain ⟨step, hsome⟩ := Path.of_segment_step hpiece
          rw [stepsOf, List.filterMap_cons_some hsome, List.map_cons, List.foldlM_cons,
            piece_of_segment hsome, hstep]
          exact ih hrest

/-- Pieces that are no steps do not matter before a step, which asks for a directory as well. -/
theorem fold_pieces_of_steps (hend : EndInStep pieces)
    (h : ((stepsOf pieces).map pieceOf).foldlM tree.step start = .ok finish) :
    (pieces.map String.ofList).foldlM tree.step start = .ok finish := by
  induction pieces generalizing start with
  | nil => exact h
  | cons piece pieces ih =>
      rw [List.map_cons, List.foldlM_cons]
      cases hpiece : isSilent piece with
      | true =>
          rw [stepsOf, List.filterMap_cons_none (Path.of_segment_silent hpiece)] at h
          have hne : pieces ≠ [] := by
            rintro rfl
            obtain ⟨last, hlast, hlastStep⟩ := hend
            cases hlast
            cases hpiece.symm.trans hlastStep
          have hrest := hend.suffix (List.suffix_cons piece pieces) hne
          have hsteps : (stepsOf pieces).map pieceOf ≠ [] :=
            List.map_eq_nil_iff.not.mpr hrest.steps_ne_nil
          -- a step follows, so that there is the directory that the piece asks for
          have hdirectory := directory_of_fold_step hsteps h
          rw [(step_silent_iff hpiece).mpr ⟨hdirectory, rfl⟩]
          exact ih hrest h
      | false =>
          obtain ⟨step, hsome⟩ := Path.of_segment_step hpiece
          rw [stepsOf, List.filterMap_cons_some hsome, List.map_cons, List.foldlM_cons,
            piece_of_segment hsome] at h
          obtain ⟨middle, hstep, hrest⟩ := except_bind_ok_iff.mp h
          rw [hstep]
          cases pieces with
          | nil => exact hrest
          | cons second others =>
              exact ih (hend.suffix (List.suffix_cons _ _) (List.cons_ne_nil _ _)) hrest

/-- A leading dot is a step to where one is. -/
theorem leads_current_iff : tree.Leads (.current :: steps) entry ↔ tree.Leads steps entry := by
  have hstep : tree.step working "." = .ok working := by simp [step, get?]
  unfold Leads
  rw [List.map_cons, List.foldlM_cons, pieceOf, hstep]
  rfl

theorem leads_components_iff (hpath : path.isAbsolute = false) :
    tree.Leads path.components entry ↔ tree.Leads (stepsOf path.segments) entry := by
  rcases Path.components_of_relative hpath with ⟨-, hsteps, -⟩ | ⟨tail, htail, hsteps⟩
  · rw [hsteps]
  · rw [hsteps, htail, leads_current_iff]
    rfl

/-- Where a path leads, there its steps lead. -/
theorem leads_of_find (h : tree.find path = .ok entry) :
    path.isAbsolute = false ∧ tree.Leads path.components entry := by
  obtain ⟨location, hresolve, hget⟩ := find_ok_iff.mp h
  unfold resolve at hresolve
  split_ifs at hresolve with hnowhere
  have hpath : path.isAbsolute = false := by simpa using fun h => hnowhere (.inr h)
  exact ⟨hpath, (leads_components_iff hpath).mpr ⟨location, fold_steps_of_pieces hresolve, hget⟩⟩

/-- The last piece of a path to a file is a step: behind a file nothing can be asked for. -/
theorem end_in_step_of_file {content : ByteArray} (h : tree.find path = .ok (.file content)) :
    EndInStep path.segments := by
  obtain ⟨location, hresolve, hget⟩ := find_ok_iff.mp h
  unfold resolve at hresolve
  split_ifs at hresolve with hnowhere
  have hpath : path.isAbsolute = false := by simpa using fun h => hnowhere (.inr h)
  have hne : path.segments ≠ [] := by
    rw [Path.segments_of_relative hpath]
    exact List.splitOn_ne_nil _ _
  obtain ⟨front, last, hsegments⟩ : ∃ front last, path.segments = front ++ [last] :=
    ⟨_, _, (List.dropLast_concat_getLast hne).symm⟩
  rw [piecesOf, hsegments, List.map_append, List.foldlM_append] at hresolve
  obtain ⟨middle, -, hlast⟩ := except_bind_ok_iff.mp hresolve
  rw [hsegments]
  refine ⟨last, List.getLast?_concat, ?_⟩
  by_contra hsilent
  rw [Bool.not_eq_false] at hsilent
  obtain ⟨next, hstep, hnext⟩ := except_bind_ok_iff.mp hlast
  obtain ⟨hdirectory, rfl⟩ := (step_silent_iff hsilent).mp hstep
  obtain rfl := Except.ok.inj hnext
  cases hdirectory.symm.trans hget

/-- A path leads to a file if its steps do and it ends with one of them. -/
theorem is_file_iff_leads :
    tree.isFile path = true ↔ path.isAbsolute = false ∧ EndInStep path.segments ∧
      ∃ content, tree.Leads path.components (.file content) := by
  have hfile : tree.isFile path = true ↔ ∃ content, tree.find path = .ok (.file content) := by
    simp only [is_file_iff, read_ok_iff, find_ok_iff]
  rw [hfile]
  constructor
  · rintro ⟨content, hfind⟩
    obtain ⟨hpath, hleads⟩ := leads_of_find hfind
    exact ⟨hpath, end_in_step_of_file hfind, content, hleads⟩
  · rintro ⟨hpath, hend, content, hleads⟩
    obtain ⟨location, hfold, hget⟩ := (leads_components_iff hpath).mp hleads
    have hnowhere : ¬(path.text = "" ∨ path.isAbsolute = true) := by
      rintro (htext | habsolute)
      · rw [Path.segments_of_relative hpath, htext] at hend
        exact absurd rfl hend.steps_ne_nil
      · rw [hpath] at habsolute
        cases habsolute
    refine ⟨content, find_ok_iff.mpr ⟨location, ?_, hget⟩⟩
    rw [resolve, if_neg hnowhere]
    exact fold_pieces_of_steps hend hfold

/-- What can be found in a directory shows that it is one. -/
theorem leads_directory_of_contains (hdirectory : directory.isAbsolute = false)
    (hne : directory.text ≠ "") (h : tree.contains (directory.join path) = true) :
    tree.Leads directory.components .directory := by
  obtain ⟨entry, hfind⟩ : ∃ entry, tree.find (directory.join path) = .ok entry := by
    unfold contains at h
    cases hfind : tree.find (directory.join path) with
    | error fault => simp [hfind, Except.toBool] at h
    | ok entry => exact ⟨entry, rfl⟩
  obtain ⟨location, hresolve, -⟩ := find_ok_iff.mp hfind
  unfold resolve at hresolve
  split_ifs at hresolve with hnowhere
  have hpath : path.isAbsolute = false := by
    by_contra habsolute
    rw [Bool.not_eq_false] at habsolute
    rw [Path.join_of_absolute habsolute] at hnowhere
    exact hnowhere (.inr habsolute)
  obtain ⟨front, hsegments, -, hpieces⟩ := Path.segments_join hdirectory hne hpath
  rw [piecesOf, hsegments, List.map_append, List.foldlM_append] at hresolve
  obtain ⟨middle, hfront, hrest⟩ := except_bind_ok_iff.mp hresolve
  have hnames : path.segments.map String.ofList ≠ [] := by
    rw [Path.segments_of_relative hpath]
    exact List.map_eq_nil_iff.not.mpr (List.splitOn_ne_nil _ _)
  refine (leads_components_iff hdirectory).mpr ⟨middle, ?_, directory_of_fold_step hnames hrest⟩
  rw [Path.steps_of_front hpieces]
  exact fold_steps_of_pieces hfront

end TemplateBundle.FileTree

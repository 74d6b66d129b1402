import Mathlib.Data.List.Nodup
import Mathlib.Data.List.Perm.Subperm
import Mathlib.Data.List.Range
import TemplateBundle.Proofs.FileTree.Naming
import TemplateBundle.Proofs.Glob.Matching
import TemplateBundle.Proofs.Glob.Walking

/-!
# Paths spelled by their pieces

A walk puts paths together from the working directory on, piece by piece (`enter_spelled`). A file
that a path of names leads to is found in the directories on the way (`found_on_way`).
-/

namespace TemplateBundle

open TemplateBundle.Path (Component IsName joinSegments ofSegments stepsOf)

variable {pieces front : List (List Char)} {name : List Char}

namespace Path

/-- Relative paths are the same if their pieces are. -/
theorem eq_of_segments {first second : Path} (hfirst : first.isAbsolute = false)
    (hsecond : second.isAbsolute = false) (h : first.segments = second.segments) :
    first = second := by
  rw [← of_segments_segments hfirst, h, of_segments_segments hsecond]

end Path

namespace Glob

/-- The pieces can be put together to a path that leads away from the working directory. -/
structure Written (pieces : List (List Char)) : Prop where
  ne_nil : ∀ piece ∈ pieces, piece ≠ []
  separator : ∀ piece ∈ pieces, '/' ∉ piece
  head : pieces.head? ≠ some ['.']

/-- The path that is spelled by the pieces. Without pieces it is that of the working directory. -/
def spelled : List (List Char) → Path
  | [] => Walk.here
  | piece :: pieces => ofSegments false (piece :: pieces)

theorem spelled_of_ne (hne : pieces ≠ []) : spelled pieces = ofSegments false pieces := by
  obtain ⟨piece, pieces, rfl⟩ := List.exists_cons_of_ne_nil hne
  rfl

theorem Written.of_append (h : Written (front ++ pieces)) : Written front where
  ne_nil := fun piece hpiece => h.ne_nil piece (List.mem_append_left _ hpiece)
  separator := fun piece hpiece => h.separator piece (List.mem_append_left _ hpiece)
  head := by
    cases front with
    | nil => simp
    | cons piece front => exact h.head

theorem Written.of_behind (h : Written (front ++ pieces)) (hhead : pieces.head? ≠ some ['.']) :
    Written pieces where
  ne_nil := fun piece hpiece => h.ne_nil piece (List.mem_append_right _ hpiece)
  separator := fun piece hpiece => h.separator piece (List.mem_append_right _ hpiece)
  head := hhead

theorem Written.concat (h : Written front) (hne : name ≠ []) (hseparator : '/' ∉ name)
    (hfirst : front = [] → name ≠ ['.']) : Written (front ++ [name]) where
  ne_nil := by
    simpa [or_imp, forall_and, hne] using h.ne_nil
  separator := by
    simpa [or_imp, forall_and, hseparator] using h.separator
  head := by
    cases front with
    | nil => simpa using hfirst rfl
    | cons piece front => exact h.head

theorem Written.segments (h : Written pieces) (hne : pieces ≠ []) :
    (spelled pieces).isAbsolute = false ∧ (spelled pieces).segments = pieces := by
  have hfirst : pieces.head? ≠ some [] := by
    intro hhead
    exact h.ne_nil [] (List.mem_of_head? hhead) rfl
  rw [spelled_of_ne hne]
  exact Path.segments_of_segments hne hfirst h.separator

theorem Written.components (h : Written pieces) (hne : pieces ≠ []) :
    (spelled pieces).components = stepsOf pieces ∧ Component.current ∉ stepsOf pieces := by
  obtain ⟨habsolute, hsegments⟩ := h.segments hne
  rcases Path.components_of_relative habsolute with ⟨-, hsteps, hcurrent⟩ | ⟨tail, htail, -⟩
  · rw [hsteps, hsegments] at hcurrent
    exact ⟨hsteps.trans (congrArg stepsOf hsegments), hcurrent⟩
  · rw [hsegments] at htail
    exact absurd (by rw [htail]; rfl) h.head

theorem Written.not_same_here (h : Written pieces) (hne : pieces ≠ []) :
    (spelled pieces).same Walk.here = false := by
  have hhere : Walk.here.components = [.current] := by decide
  obtain ⟨hsteps, hcurrent⟩ := h.components hne
  rw [Path.same, hhere, hsteps, beq_eq_false_iff_ne]
  intro hsame
  exact hcurrent (hsame ▸ List.mem_cons_self)

theorem Written.text_ne (h : Written pieces) (hne : pieces ≠ []) : (spelled pieces).text ≠ "" := by
  obtain ⟨habsolute, hsegments⟩ := h.segments hne
  intro htext
  rw [Path.segments_of_relative habsolute, htext] at hsegments
  exact h.ne_nil [] (hsegments ▸ List.mem_singleton_self _) rfl

/-- Pieces behind pieces are joined to one path. -/
theorem join_spelled (h : Written (front ++ pieces)) (hne : pieces ≠ []) :
    (ofSegments false front).join (ofSegments false pieces) = spelled (front ++ pieces) := by
  by_cases hnil : front = []
  · subst hnil
    exact (Path.join_empty _).trans (spelled_of_ne hne).symm
  have hfirst : pieces.head? ≠ some [] := fun hhead =>
    h.ne_nil [] (List.mem_append_right _ (List.mem_of_head? hhead)) rfl
  obtain ⟨hrelative, hpieces⟩ := Path.segments_of_segments hne hfirst
    fun piece hpiece => h.separator piece (List.mem_append_right _ hpiece)
  obtain ⟨habsolute, hsegments⟩ := h.of_append.segments hnil
  obtain ⟨hjoined, hall⟩ := h.segments (by simp [hne])
  have htext := h.of_append.text_ne hnil
  rw [← spelled_of_ne hnil]
  obtain ⟨before, hjoin, -, hbefore⟩ := Path.segments_join habsolute htext hrelative
  refine Path.eq_of_segments ((Path.is_absolute_join hrelative htext).trans habsolute) hjoined ?_
  rw [hjoin, hall, hpieces]
  rcases hbefore with hbefore | hbefore
  · rw [← hbefore, hsegments]
  · -- the path in front does not end with a separator
    rw [hsegments] at hbefore
    exact absurd rfl (h.ne_nil [] (by simp [hbefore]))

theorem join_of_segments {path : Path} (h : Written (front ++ path.segments))
    (hrelative : path.isAbsolute = false) :
    (ofSegments false front).join path = spelled (front ++ path.segments) := by
  rw [← join_spelled h (Path.segments_ne_nil hrelative), Path.of_segments_segments hrelative]

/-- A name behind a path is one more piece of it. -/
theorem join_name (h : Written (pieces ++ [name])) (hne : pieces ≠ []) :
    (spelled pieces).join ⟨String.ofList name⟩ = spelled (pieces ++ [name]) := by
  have hname : (⟨String.ofList name⟩ : Path) = ofSegments false [name] := by
    simp [ofSegments, joinSegments]
  rw [spelled_of_ne hne, hname, join_spelled h (List.cons_ne_nil _ _)]

theorem enter_spelled (h : Written (pieces ++ [name])) :
    Walk.enter (spelled pieces) (String.ofList name) = spelled (pieces ++ [name]) := by
  unfold Walk.enter
  by_cases hne : pieces = []
  · subst hne
    have hhere : (spelled []).same Walk.here = true := by decide
    rw [if_pos hhere]
    simp [spelled, ofSegments, joinSegments]
  · rw [h.of_append.not_same_here hne, if_neg Bool.false_ne_true, join_name h hne]

theorem file_name_spelled (h : Written (pieces ++ [name])) (hname : IsName name) :
    (spelled (pieces ++ [name])).fileName? = some (String.ofList name) := by
  have hsteps : stepsOf (pieces ++ [name]) = stepsOf pieces ++ [.name (String.ofList name)] := by
    rw [stepsOf, List.filterMap_append, List.filterMap_cons_some hname.step]
    rfl
  rw [Path.fileName?, (h.components (by simp)).1, hsteps, List.getLast?_concat]

theorem steps_of_names {names : List (List Char)} (hnames : ∀ name ∈ names, IsName name) :
    stepsOf names = names.map fun name => .name (String.ofList name) := by
  induction names with
  | nil => rfl
  | cons name names ih =>
      obtain ⟨hname, hothers⟩ := List.forall_mem_cons.mp hnames
      rw [stepsOf, List.filterMap_cons_some hname.step, List.map_cons, ← ih hothers]
      rfl

theorem Written.of_names {names : List (List Char)} (h : ∀ name ∈ names, IsName name) :
    Written names where
  ne_nil := fun name hname => (h name hname).ne_nil
  separator := fun name hname => (h name hname).separator
  head := fun hhead => (h _ (List.mem_of_head? hhead)).ne_current rfl

theorem drop_steps_of_names (hfront : ∀ piece ∈ front, IsName piece) :
    Path.dropSteps front.length (front ++ pieces) = pieces := by
  induction front with
  | nil => cases pieces <;> rfl
  | cons piece front ih =>
      obtain ⟨hpiece, hothers⟩ := List.forall_mem_cons.mp hfront
      rw [List.length_cons, List.cons_append, Path.dropSteps, hpiece.not_silent,
        if_neg Bool.false_ne_true, ih hothers]

/-- A path that begins with names is seen from them as its other pieces, without those in front that
are no steps. -/
theorem relative_to_names (hfront : ∀ piece ∈ front, IsName piece) (hne : front ≠ []) {path : Path}
    (habsolute : path.isAbsolute = false) (hsegments : path.segments = front ++ pieces)
    (hend : Path.EndInStep path.segments) :
    path.relativeTo (ofSegments false front) =
      ofSegments false (pieces.dropWhile Path.isSilent) := by
  have hbase := ((Written.of_names hfront).components hne).1
  have hsteps : path.components = stepsOf (front ++ pieces) := by
    rcases Path.components_of_relative habsolute with ⟨-, hsteps, -⟩ | ⟨tail, htail, -⟩
    · rw [hsteps, hsegments]
    · obtain ⟨first, others, rfl⟩ := List.exists_cons_of_ne_nil hne
      rw [hsegments] at htail
      exact absurd (List.cons.inj htail).1 (hfront first List.mem_cons_self).ne_current
  obtain ⟨first, others, rfl⟩ := List.exists_cons_of_ne_nil hne
  rw [steps_of_names hfront, spelled_of_ne hne, List.map_cons] at hbase
  rw [stepsOf, List.filterMap_append, ← stepsOf, steps_of_names hfront, List.map_cons] at hsteps
  have hprefix := List.isPrefixOf_iff_prefix.mpr ⟨_, hsteps.symm⟩
  rw [Path.relativeTo, Path.stripBase?, hbase, if_pos hprefix, Path.significant_segments_eq hend,
    hsegments]
  dsimp only
  rw [List.length_map, ← List.length_cons (a := first), drop_steps_of_names hfront,
    Option.getD_some]

/-- A path that begins with names is seen from them as what stands behind them. -/
theorem relative_to_spelled (hfront : ∀ piece ∈ front, IsName piece)
    (h : Written (front ++ pieces)) (hend : Path.EndInStep (front ++ pieces)) (hne : pieces ≠ [])
    (hhead : pieces.head? ≠ some ['.']) :
    (spelled (front ++ pieces)).relativeTo (ofSegments false front) = spelled pieces := by
  obtain ⟨habsolute, hsegments⟩ := h.segments (by simp [hne])
  rw [← hsegments] at hend
  by_cases hnil : front = []
  · subst hnil
    exact Path.relative_to_empty habsolute hend
  · have hdrop : pieces.dropWhile Path.isSilent = pieces := by
      obtain ⟨piece, others, rfl⟩ := List.exists_cons_of_ne_nil hne
      have hpiece := h.ne_nil piece (by simp)
      have hsilent : ¬Path.isSilent piece = true := by
        simpa [Path.isSilent, hpiece] using hhead
      exact List.dropWhile_cons_of_neg hsilent
    rw [relative_to_names hfront hnil habsolute hsegments hend, hdrop, spelled_of_ne hne]

/-! ## Places in a tree -/

variable {tree : FileTree} {names : List (List Char)} {entry : FileEntry}

/-- A written path leads where its pieces lead. -/
theorem resolve_spelled (h : Written pieces) : tree.resolve (spelled pieces) =
    (pieces.map String.ofList).foldlM tree.step FileTree.working := by
  by_cases hne : pieces = []
  · subst hne
    have hhere : FileTree.piecesOf Walk.here = ["."] := by decide
    have hnowhere : ¬(Walk.here.text = "" ∨ Walk.here.isAbsolute = true) := by decide
    have hstay : tree.step FileTree.working "." = .ok FileTree.working := by
      simp [FileTree.step, FileTree.get?]
    rw [spelled, FileTree.resolve, if_neg hnowhere, hhere, List.foldlM_cons, hstay]
    rfl
  · obtain ⟨habsolute, hsegments⟩ := h.segments hne
    have hnowhere : ¬((spelled pieces).text = "" ∨ (spelled pieces).isAbsolute = true) := by
      simp [h.text_ne hne, habsolute]
    rw [FileTree.resolve, if_neg hnowhere, FileTree.piecesOf, hsegments]

/-- A file behind names is seen from there as what stands behind them. -/
theorem relative_to_of_file (hfront : ∀ piece ∈ front, IsName piece)
    (h : Written (front ++ pieces)) (hfile : tree.isFile (spelled (front ++ pieces)) = true)
    (hne : pieces ≠ []) (hhead : pieces.head? ≠ some ['.']) :
    (spelled (front ++ pieces)).relativeTo (ofSegments false front) = spelled pieces := by
  have hend := (FileTree.is_file_iff_leads.mp hfile).2.1
  rw [(h.segments (by simp [hne])).2] at hend
  exact relative_to_spelled hfront h hend hne hhead

theorem find_spelled_iff (h : Written pieces) : tree.find (spelled pieces) = .ok entry ↔
    ∃ location, (pieces.map String.ofList).foldlM tree.step FileTree.working = .ok location ∧
      tree.get? location = some entry := by
  rw [FileTree.find_ok_iff, resolve_spelled h]

/-- What is listed at a location that is not there anyway. -/
theorem mem_entries {location : Location} (hlisted : ¬(location = FileTree.top ∨
    location = FileTree.working)) (h : tree.get? location = some entry) :
    (location, entry) ∈ tree.entries := by
  rw [FileTree.get?, if_neg hlisted] at h
  obtain ⟨before, behind, hentries, -⟩ := List.lookup_eq_some_iff.mp h
  rw [hentries]
  exact List.mem_append_right _ List.mem_cons_self

/-- What stands in a directory is one of its names. -/
theorem mem_children {location : Location} {name : String} (hname : name ≠ "")
    (h : tree.get? (location ++ [name]) = some entry) : name ∈ tree.children location := by
  have hlisted : ¬(location ++ [name] = FileTree.top ∨ location ++ [name] = FileTree.working) := by
    rintro (htop | hworking)
    · exact absurd htop (by simp [FileTree.top])
    · rw [FileTree.working, List.append_eq_singleton_iff] at hworking
      simp [hname] at hworking
  refine List.mem_filterMap.mpr ⟨_, mem_entries hlisted h, ?_⟩
  simp

/-- On the way to what a path leads to, each name is found in the directory before it. -/
theorem found_on_way (h : Written (front ++ name :: names)) (hname : IsName name)
    (hfind : tree.find (spelled (front ++ name :: names)) = .ok entry) :
    tree.find (spelled front) = .ok .directory ∧
      (∃ found, tree.find (spelled (front ++ [name])) = .ok found) ∧
      ∃ listed, tree.list (spelled front) = .ok listed ∧ String.ofList name ∈ listed := by
  have hconcat : Written (front ++ [name]) := by
    rw [List.append_cons] at h
    exact h.of_append
  obtain ⟨location, hlocation, hentry⟩ := (find_spelled_iff h).mp hfind
  rw [List.map_append, List.foldlM_append] at hlocation
  obtain ⟨middle, hmiddle, hrest⟩ := except_bind_ok_iff.mp hlocation
  rw [List.map_cons, List.foldlM_cons] at hrest
  obtain ⟨next, hstep, hnames⟩ := except_bind_ok_iff.mp hrest
  obtain ⟨hdirectory, rfl⟩ := (FileTree.step_name_iff hname).mp hstep
  -- the name stands for the directory that the next one is in, or for the entry
  obtain ⟨found, hfound⟩ : ∃ found, tree.get? (middle ++ [String.ofList name]) = some found := by
    by_cases hnil : names = []
    · subst hnil
      obtain rfl := Except.ok.inj hnames
      exact ⟨entry, hentry⟩
    · exact ⟨_, FileTree.directory_of_fold_step (by simpa using hnil) hnames⟩
  have hfront := (find_spelled_iff h.of_append).mpr ⟨middle, hmiddle, hdirectory⟩
  refine ⟨hfront, ⟨found, (find_spelled_iff hconcat).mpr ⟨_, ?_, hfound⟩⟩, tree.children middle, ?_,
    mem_children ?_ hfound⟩
  · rw [List.map_append, List.foldlM_append, hmiddle, except_ok_bind, List.map_singleton,
      List.foldlM_cons, hstep]
    rfl
  · rw [FileTree.list, hfront, resolve_spelled h.of_append, hmiddle]
    rfl
  · simpa using hname.ne_nil

/-- Names lead to the location with these names. -/
theorem location_of_names {start location : Location} (hnames : ∀ name ∈ names, IsName name)
    (h : (names.map String.ofList).foldlM tree.step start = .ok location) :
    location = start ++ names.map String.ofList := by
  induction names generalizing start with
  | nil => simpa using (Except.ok.inj h).symm
  | cons name names ih =>
      obtain ⟨hname, hnames⟩ := List.forall_mem_cons.mp hnames
      rw [List.map_cons, List.foldlM_cons] at h
      obtain ⟨next, hstep, hrest⟩ := except_bind_ok_iff.mp h
      obtain ⟨-, rfl⟩ := (FileTree.step_name_iff hname).mp hstep
      rw [ih hnames hrest, List.map_cons, List.append_assoc, List.singleton_append]

/-- A path of names is no longer than a tree has entries: each of its names is listed at a location
of its own. -/
theorem length_le_entries (hnames : ∀ name ∈ names, IsName name)
    (hfind : tree.find (spelled names) = .ok entry) : names.length ≤ tree.entries.length := by
  let locationAt : Nat → Location := fun i =>
    FileTree.working ++ (names.take (i + 1)).map String.ofList
  have hlength (i : Nat) (hi : i < names.length) : List.length (locationAt i) = i + 2 := by
    simp only [locationAt, FileTree.working, List.length_append, List.length_map, List.length_take,
      List.length_singleton]
    omega
  have hlisted : (List.range names.length).map locationAt ⊆ tree.entries.map Prod.fst := by
    intro location hlocation
    obtain ⟨i, hi, rfl⟩ := List.mem_map.mp hlocation
    rw [List.mem_range] at hi
    have hsplit : names = names.take i ++ names[i] :: names.drop (i + 1) := by simp
    have hwritten := Written.of_names hnames
    rw [hsplit] at hfind hwritten
    obtain ⟨-, ⟨found, hfound⟩, -⟩ := found_on_way hwritten (hnames _ (List.getElem_mem hi)) hfind
    rw [List.take_append_getElem] at hfound
    have hbefore : ∀ name ∈ names.take (i + 1), IsName name :=
      fun name hname => hnames name (List.mem_of_mem_take hname)
    obtain ⟨location, hlocation, hget⟩ := (find_spelled_iff (.of_names hbefore)).mp hfound
    obtain rfl : location = locationAt i := location_of_names hbefore hlocation
    have hlong := hlength i hi
    refine List.mem_map.mpr ⟨_, mem_entries ?_ hget, rfl⟩
    rintro (htop | hworking)
    · simp [htop, FileTree.top] at hlong
    · simp [hworking, FileTree.working] at hlong
  -- the locations have different lengths
  have hnodup : ((List.range names.length).map locationAt).Nodup := by
    refine List.nodup_range.map_on fun i hi j hj hsame => ?_
    have hlengths := congrArg List.length hsame
    rw [hlength i (List.mem_range.mp hi), hlength j (List.mem_range.mp hj)] at hlengths
    omega
  simpa using hnodup.length_le_of_subset hlisted

end Glob

end TemplateBundle

import TemplateBundle.Proofs.Glob.Finding

/-!
# Walks in directories that hold the same

What a search finds below a directory depends on what stands in the directory (`run_same`), and not
on how the directory is called: the search goes through the same names in both directories, and it
goes as deep in both as there is anything. A search that leaves the directory is left out.
-/

namespace TemplateBundle

open TemplateBundle.Path (Component IsName joinSegments ofSegments stepsOf)

variable {tree other : FileTree} {front away pieces : List (List Char)} {name : List Char}

/-! ## Places below a directory -/

/-- Pieces on the way further down from a directory. -/
def Inward (pieces : List (List Char)) : Prop :=
  ∀ piece ∈ pieces, '/' ∉ piece ∧ piece ≠ ['.', '.']

/-- One piece behind others. An empty piece at the end is none of its own. -/
def grow (pieces : List (List Char)) (name : List Char) : List (List Char) :=
  (if pieces.getLast? = some [] then pieces.dropLast else pieces) ++ [name]

theorem Inward.grow (h : Inward pieces) (hseparator : '/' ∉ name) (hparent : name ≠ ['.', '.']) :
    Inward (grow pieces name) := by
  intro piece hpiece
  rcases List.mem_append.mp hpiece with hmem | hmem
  · split_ifs at hmem
    · exact h piece (List.dropLast_subset _ hmem)
    · exact h piece hmem
  · obtain rfl := List.mem_singleton.mp hmem
    exact ⟨hseparator, hparent⟩

/-- The path of the pieces behind names. -/
def inside (front pieces : List (List Char)) : Path :=
  ofSegments false (front ++ pieces)

namespace FileTree

/-- The location to which names lead. -/
def placeOf (names : List (List Char)) : Location :=
  working ++ names.map String.ofList

/-- The names lead to a directory of the tree. -/
structure Holds (tree : FileTree) (front : List (List Char)) : Prop where
  ne_nil : front ≠ []
  names : ∀ piece ∈ front, IsName piece
  directory : tree.isDirectory (ofSegments false front) = true

/-- The same stands below both locations, and directories there have the same names. -/
structure SameBelow (tree other : FileTree) (front away : List (List Char)) : Prop where
  get : ∀ inner, tree.get? (placeOf front ++ inner) = other.get? (placeOf away ++ inner)
  children : ∀ inner,
    (tree.children (placeOf front ++ inner)).Perm (other.children (placeOf away ++ inner))

theorem Holds.segments (h : tree.Holds front) (hpieces : Inward pieces) :
    (inside front pieces).isAbsolute = false ∧ (inside front pieces).segments = front ++ pieces := by
  obtain ⟨first, others, rfl⟩ := List.exists_cons_of_ne_nil h.ne_nil
  refine Path.segments_of_segments (List.cons_ne_nil _ _) ?_ ?_
  · intro hhead
    exact (h.names first List.mem_cons_self).ne_nil (Option.some.inj hhead)
  · intro piece hpiece
    rcases List.mem_append.mp hpiece with hmem | hmem
    · exact (h.names piece hmem).separator
    · exact (hpieces piece hmem).1

theorem Holds.components (h : tree.Holds front) (hpieces : Inward pieces) :
    (inside front pieces).components = stepsOf (front ++ pieces) ∧
      Glob.Proper (inside front pieces).components := by
  obtain ⟨hrelative, hsegments⟩ := h.segments hpieces
  obtain ⟨first, others, rfl⟩ := List.exists_cons_of_ne_nil h.ne_nil
  have hfirst := h.names first List.mem_cons_self
  rcases Path.components_of_relative hrelative with ⟨-, hsteps, -⟩ | ⟨tail, htail, -⟩
  · rw [hsegments] at hsteps
    refine ⟨hsteps, ?_⟩
    rw [hsteps, List.cons_append, stepsOf, List.filterMap_cons_some hfirst.step]
    exact ⟨List.cons_ne_nil _ _, by simp⟩
  · rw [hsegments] at htail
    exact absurd (List.cons.inj htail).1 hfirst.ne_current

/-- The names lead to their location. -/
theorem Holds.place (h : tree.Holds front) :
    (front.map String.ofList).foldlM tree.step working = .ok (placeOf front) ∧
      tree.get? (placeOf front) = some .directory := by
  have hfind := FileTree.is_directory_iff.mp h.directory
  rw [← Glob.spelled_of_ne h.ne_nil] at hfind
  obtain ⟨location, hlocation, hget⟩ := (Glob.find_spelled_iff (.of_names h.names)).mp hfind
  obtain rfl := Glob.location_of_names h.names hlocation
  exact ⟨hlocation, hget⟩

theorem Holds.resolve (h : tree.Holds front) (hpieces : Inward pieces) :
    tree.resolve (inside front pieces) =
      (pieces.map String.ofList).foldlM tree.step (placeOf front) := by
  obtain ⟨hrelative, hsegments⟩ := h.segments hpieces
  have hne := Glob.text_ne_empty (h.components hpieces).2.ne_nil
  have hnowhere :
      ¬((inside front pieces).text = "" ∨ (inside front pieces).isAbsolute = true) := by
    simp [hne, hrelative]
  rw [FileTree.resolve, if_neg hnowhere, piecesOf, hsegments, List.map_append, List.foldlM_append,
    h.place.1]
  rfl

/-- One piece more is one step more. -/
theorem Holds.resolve_grow {next : Location} (h : tree.Holds front) (hpieces : Inward pieces)
    (hseparator : '/' ∉ name) (hparent : name ≠ ['.', '.'])
    (hnext : tree.resolve (inside front (grow pieces name)) = .ok next) :
    ∃ location, tree.resolve (inside front pieces) = .ok location ∧
      enter location (String.ofList name) = next := by
  rw [h.resolve (hpieces.grow hseparator hparent), grow, List.map_append,
    List.foldlM_append] at hnext
  obtain ⟨location, hlocation, hlast⟩ := except_bind_ok_iff.mp hnext
  rw [List.map_singleton, List.foldlM_cons] at hlast
  obtain ⟨middle, hstep, hend⟩ := except_bind_ok_iff.mp hlast
  obtain rfl := Except.ok.inj hend
  obtain ⟨hdirectory, hentered⟩ := step_ok_iff.mp hstep
  refine ⟨location, ?_, hentered⟩
  rw [h.resolve hpieces]
  split_ifs at hlocation with hopen
  · -- the empty piece at the end asks for the directory that the name is in
    obtain ⟨before, rfl⟩ := List.getLast?_eq_some_iff.mp hopen
    rw [List.dropLast_concat] at hlocation
    have hstay : tree.step location (String.ofList []) = .ok location :=
      step_ok_iff.mpr ⟨hdirectory, if_pos (.inl rfl)⟩
    rw [List.map_append, List.foldlM_append, hlocation, except_ok_bind, List.map_singleton,
      List.foldlM_cons, hstay]
    rfl
  · exact hlocation

/-- A piece behind the path is one piece more. -/
theorem Holds.join (h : tree.Holds front) (hpieces : Inward pieces) (hseparator : '/' ∉ name) :
    (inside front pieces).join ⟨String.ofList name⟩ = inside front (grow pieces name) := by
  obtain ⟨hrelative, hsegments⟩ := h.segments hpieces
  obtain ⟨hname, -⟩ := Path.segments_of_piece hseparator
  have hne := Glob.text_ne_empty (h.components hpieces).2.ne_nil
  have hcut := (Path.segments_of_relative hrelative).symm.trans hsegments
  obtain ⟨text, hjoin, htext⟩ := Path.join_text hname hne
  have hjoined := (Path.is_absolute_join hname hne).trans hrelative
  rw [← Path.of_segments_segments hjoined, Path.segments_of_relative hjoined, hjoin,
    List.splitOn_append_cons_self, String.toList_ofList, List.splitOn_eq_singleton hseparator,
    inside, grow, ← List.append_assoc]
  congr 2
  -- a separator is put in between unless the path ends with one, and then its last piece is empty
  rcases htext with ⟨htext, hclosed⟩ | hopen
  · rw [htext] at hcut
    have hlast : pieces.getLast? ≠ some [] := by
      intro hlast
      refine hclosed (htext ▸ Path.ends_open_of_segments hrelative hne ?_)
      rw [hsegments, List.getLast?_append, hlast]
      rfl
    rw [hcut, if_neg hlast]
  · rw [hopen, List.splitOn_append_cons_self] at hcut
    have hpiecesNe : pieces ≠ [] := by
      rintro rfl
      rw [List.append_nil] at hcut
      exact (h.names [] (hcut ▸ List.mem_concat_self)).ne_nil rfl
    obtain ⟨before, last, rfl⟩ : ∃ before last, pieces = before ++ [last] :=
      ⟨_, _, (List.dropLast_concat_getLast hpiecesNe).symm⟩
    rw [← List.append_assoc] at hcut
    obtain ⟨hbefore, hlast⟩ := List.append_inj' hcut rfl
    obtain rfl : last = [] := (List.cons.inj hlast).1.symm
    rw [List.getLast?_concat, if_pos rfl, List.dropLast_concat, hbefore]

/-- In directories that hold the same, pieces lead to the same place, or fail in the same way. -/
theorem SameBelow.fold (h : SameBelow tree other front away) (hpieces : Inward pieces)
    (inner : Location) :
    (∃ place, (pieces.map String.ofList).foldlM tree.step (placeOf front ++ inner) =
        .ok (placeOf front ++ place) ∧
      (pieces.map String.ofList).foldlM other.step (placeOf away ++ inner) =
        .ok (placeOf away ++ place)) ∨
    ∃ fault, (pieces.map String.ofList).foldlM tree.step (placeOf front ++ inner) = .error fault ∧
      (pieces.map String.ofList).foldlM other.step (placeOf away ++ inner) = .error fault := by
  induction pieces generalizing inner with
  | nil => exact .inl ⟨inner, rfl, rfl⟩
  | cons piece pieces ih =>
      obtain ⟨hpiece, hothers⟩ := List.forall_mem_cons.mp hpieces
      have hget := h.get inner
      have hparent : String.ofList piece ≠ ".." := fun hsame => 
        hpiece.2 (String.ofList_injective hsame)
      rw [List.map_cons, List.foldlM_cons, List.foldlM_cons, step, step, hget]
      cases other.get? (placeOf away ++ inner) with
      | none => exact .inr ⟨_, rfl, rfl⟩
      | some entry =>
          cases entry with
          | file content => exact .inr ⟨_, rfl, rfl⟩
          | directory =>
              by_cases hsilent : String.ofList piece = "" ∨ String.ofList piece = "."
              · simp only [if_pos hsilent, except_ok_bind]
                exact ih hothers inner
              · simp only [if_neg hsilent, if_neg hparent, except_ok_bind, List.append_assoc]
                exact ih hothers (inner ++ [String.ofList piece])

/-- In directories that hold the same, the same stands behind them, and under the same names. -/
theorem SameBelow.inside (h : SameBelow tree other front away) (hfront : tree.Holds front)
    (haway : other.Holds away) (hpieces : Inward pieces) :
    tree.find (inside front pieces) = other.find (inside away pieces) ∧
      ((∃ names others, tree.list (inside front pieces) = .ok names ∧
        other.list (inside away pieces) = .ok others ∧ names.Perm others) ∨
      ∃ fault, tree.list (inside front pieces) = .error fault ∧
        other.list (inside away pieces) = .error fault) := by
  unfold list
  unfold find
  rw [hfront.resolve hpieces, haway.resolve hpieces]
  have hfold := h.fold hpieces []
  rw [List.append_nil, List.append_nil] at hfold
  rcases hfold with ⟨place, hhere, hthere⟩ | ⟨fault, hhere, hthere⟩
  · rw [hhere, hthere]
    simp only [except_ok_bind, h.get place]
    refine ⟨trivial, ?_⟩
    cases other.get? (placeOf away ++ place) with
    | none => exact .inr ⟨_, rfl, rfl⟩
    | some entry =>
        cases entry with
        | file content => exact .inr ⟨_, rfl, rfl⟩
        | directory => exact .inl ⟨_, _, rfl, rfl, h.children place⟩
  · rw [hhere, hthere]
    exact ⟨rfl, .inr ⟨fault, rfl, rfl⟩⟩

/-! ## How much stands below a directory -/

/-- The number of entries below a location. -/
def entriesBelow (tree : FileTree) (location : Location) : Nat :=
  tree.entries.countP fun listed => location.isPrefixOf listed.1 && listed.1 != location

/-- Below a name there is no more than below the location that it is at. -/
theorem entries_below_child (tree : FileTree) (location : Location) (name : String) :
    tree.entriesBelow (location ++ [name]) ≤ tree.entriesBelow location := by
  refine List.countP_mono_left fun listed _ hlisted => ?_
  rw [Bool.and_eq_true, List.isPrefixOf_iff_prefix, bne_iff_ne] at hlisted ⊢
  have hbelow := (List.prefix_append location [name]).trans hlisted.1
  refine ⟨hbelow, ?_⟩
  rintro rfl
  have hlength := hlisted.1.length_le
  rw [List.length_append, List.length_singleton] at hlength
  omega

/-- A name that is there is itself below the location. -/
theorem entries_below_lt {location : Location} {name : String}
    (hname : name ∈ tree.children location) :
    tree.entriesBelow (location ++ [name]) < tree.entriesBelow location := by
  obtain ⟨listed, hlisted, hlast⟩ := List.mem_filterMap.mp hname
  split_ifs at hlast with hplace
  obtain ⟨before, hbefore⟩ := List.getLast?_eq_some_iff.mp hlast
  have hlocation : listed.1 = location ++ [name] := by
    rw [Bool.and_eq_true, beq_iff_eq, hbefore, List.dropLast_concat] at hplace
    rw [hbefore, hplace.1]
  obtain ⟨first, others, hentries⟩ := List.append_of_mem hlisted
  have hfirst := entries_below_child ⟨first⟩ location name
  have hothers := entries_below_child ⟨others⟩ location name
  simp only [entriesBelow, hentries, List.countP_append, List.countP_cons, hlocation] at *
  simp
  omega

/-- The number of entries below the location that a path leads to. -/
def room (tree : FileTree) (path : Path) : Nat :=
  match tree.resolve path with
  | .ok location => tree.entriesBelow location
  | .error _ => 0

theorem room_le (tree : FileTree) (path : Path) : tree.room path ≤ tree.entries.length := by
  unfold room
  split
  · exact List.countP_le_length
  · exact Nat.zero_le _

/-- Further down there is no more room. -/
theorem Holds.room_grow (h : tree.Holds front) (hpieces : Inward pieces) (hseparator : '/' ∉ name)
    (hparent : name ≠ ['.', '.']) :
    tree.room (inside front (grow pieces name)) ≤ tree.room (inside front pieces) := by
  unfold room
  cases hnext : tree.resolve (inside front (grow pieces name)) with
  | error fault => exact Nat.zero_le _
  | ok next =>
      obtain ⟨location, hlocation, rfl⟩ := h.resolve_grow hpieces hseparator hparent hnext
      rw [hlocation]
      unfold enter
      split_ifs with hsilent hup
      · exact Nat.le_refl _
      · exact absurd (String.ofList_injective hup) hparent
      · exact tree.entries_below_child location _

/-- Below a name of a directory there is less room than in the directory. -/
theorem Holds.room_child (h : tree.Holds front) (hpieces : Inward pieces) (hname : IsName name)
    {names : List String} (hlist : tree.list (inside front pieces) = .ok names)
    (hmem : String.ofList name ∈ names) :
    tree.room (inside front (grow pieces name)) < tree.room (inside front pieces) := by
  obtain ⟨entry, -, hlist⟩ := except_bind_ok_iff.mp hlist
  cases entry with
  | file content => cases hlist
  | directory =>
      obtain ⟨location, hlocation, hchildren⟩ := except_bind_ok_iff.mp hlist
      obtain rfl := Except.ok.inj hchildren
      have hbelow := entries_below_lt hmem
      unfold room
      rw [hlocation]
      cases hnext : tree.resolve (inside front (grow pieces name)) with
      | error fault => exact Nat.zero_lt_of_lt hbelow
      | ok next =>
          obtain ⟨_, hagain, rfl⟩ :=
            h.resolve_grow hpieces hname.separator hname.ne_parent hnext
          obtain rfl := Except.ok.inj (hlocation.symm.trans hagain)
          rw [enter_name hname]
          exact hbelow

end FileTree

namespace Glob

open FileTree (Holds SameBelow)

variable {bound : Nat} {component : Pattern} {components rest : List Pattern} {path : Path}

theorem enter_inside (h : tree.Holds front) (hpieces : Inward pieces) (hseparator : '/' ∉ name) :
    Walk.enter (inside front pieces) (String.ofList name) = inside front (grow pieces name) := by
  rw [(extends_self _).enter_eq (h.components hpieces).2, h.join hpieces hseparator]

theorem file_name_inside (h : tree.Holds front) (hpieces : Inward pieces) (hname : IsName name) :
    (inside front (grow pieces name)).fileName? = some (String.ofList name) := by
  have hgrown := hpieces.grow hname.separator hname.ne_parent
  rw [Path.fileName?, (h.components hgrown).1, grow, ← List.append_assoc, stepsOf,
    List.filterMap_append, List.filterMap_cons_some hname.step, List.filterMap_nil,
    List.getLast?_concat]

namespace Walk

variable {walk again : Walk}

/-! ## What a search finds, in order -/

theorem run_literal {name : String} (hliteral : component.literal? = some name) :
    walk.run (bound + 1) (.below path (component :: rest)) =
      if (if isSpecial name then walk.tree.isDirectory path
        else walk.tree.contains (enter path name)) = true
      then walk.arrivals bound rest (enter path name) else [] := by
  rw [run]
  simp only [hliteral]
  rfl

theorem run_pattern (hliteral : component.literal? = none) :
    walk.run (bound + 1) (.below path (component :: rest)) =
      if walk.tree.isDirectory path = true then
        ((if component.startsWithDot then ["..", "."].filter component.matches else []).flatMap
          fun name => walk.arrivals bound rest (path.join ⟨name⟩)) ++
        (walk.namesIn path).flatMap fun name =>
          walk.run bound (.fitting (enter path name) (component :: rest))
      else [] := by
  rw [run]
  simp only [hliteral]
  rfl

/-- What is found at a path if the first component stands for its name. -/
def fitted (walk : Walk) (bound : Nat) (name : String) (path : Path) : List Pattern → List Path
  | component :: rest => if component.matches name then walk.arrivals bound rest path else []
  | [] => []

theorem run_fitting {name : String} (hname : path.fileName? = some name) :
    walk.run (bound + 1) (.fitting path (component :: rest)) =
      if component.isRecursive = true then
        if walk.tree.isDirectory path = true then
          (if (collapse (component :: rest)).tail.isEmpty then [path]
            else walk.fitted bound name path (collapse (component :: rest)).tail) ++
          walk.run bound (.below path (collapse (component :: rest)))
        else walk.fitted bound name path (collapse (component :: rest)).tail
      else walk.fitted bound name path (component :: rest) := by
  rw [run]
  simp only [hname]
  cases (collapse (component :: rest)).tail <;> rfl

theorem collapse_suffix (components : List Pattern) : collapse components <:+ components := by
  fun_induction collapse components with
  | case1 first second rest _ ih => exact ih.trans (List.suffix_cons _ _)
  | case2 first second rest _ => exact List.suffix_rfl
  | case3 components _ => exact List.suffix_rfl

/-! ## Two walks -/

/-- The same path below two directories. -/
def Twin (front away : List (List Char)) (path other : Path) : Prop :=
  ∃ pieces, Inward pieces ∧ path = inside front pieces ∧ other = inside away pieces

/-- The component does not lead out of a directory. -/
structure StaysIn (component : Pattern) : Prop where
  parent : ¬ Selects component ['.', '.']
  literal : ∀ name, component.literal? = some name → '/' ∉ name.toList

/-- The same search below two directories. -/
inductive Search.Twin (front away : List (List Char)) : Search → Search → Prop
  | below {pieces : List (List Char)} {components : List Pattern} : Inward pieces →
      (∀ component ∈ components, StaysIn component) →
      Search.Twin front away (.below (inside front pieces) components)
        (.below (inside away pieces) components)
  | fitting {pieces : List (List Char)} {name : List Char} {components : List Pattern} :
      Inward pieces → IsName name → (∀ component ∈ components, StaysIn component) →
      Search.Twin front away (.fitting (inside front (grow pieces name)) components)
        (.fitting (inside away (grow pieces name)) components)

/-- A bound for the depth of a search: each name that is entered takes two steps. -/
def Search.need (tree : FileTree) : Search → Nat
  | .below path components => 2 * tree.room path + components.length
  | .fitting path components => 2 * tree.room path + components.length + 1

/-- Names are in the same order, if they are the same. -/
theorem sorted_eq_of_perm {names others : List String} (h : names.Perm others) :
    (names.mergeSort fun left right => decide (left ≤ right)) =
      others.mergeSort fun left right => decide (left ≤ right) := by
  have htrans (a b c : String) (hab : decide (a ≤ b) = true) (hbc : decide (b ≤ c) = true) :
      decide (a ≤ c) = true := by
    simp only [decide_eq_true_eq] at *
    exact String.le_trans hab hbc
  have htotal (a b : String) : (decide (a ≤ b) || decide (b ≤ a)) = true := by
    simpa using String.le_total a b
  refine List.Perm.eq_of_pairwise (fun a b _ _ hab hba => ?_)
    (List.pairwise_mergeSort htrans htotal names) (List.pairwise_mergeSort htrans htotal others)
    ((List.mergeSort_perm _ _).trans (h.trans (List.mergeSort_perm _ _).symm))
  simp only [decide_eq_true_eq] at hab hba
  exact String.le_antisymm hab hba

theorem StaysIn.literal_ne_parent (h : StaysIn component)
    (hliteral : component.literal? = some (String.ofList name)) : name ≠ ['.', '.'] := by
  rintro rfl
  refine h.parent ?_
  rw [eq_literal_of hliteral]
  exact ⟨fits_literal_iff.mpr rfl, fun _ => rfl⟩

/-- Of the names that are not listed, the component stands for the directory itself only. -/
theorem StaysIn.special_current {special : String} (h : StaysIn component)
    (hspecial : special ∈
      if component.startsWithDot = true then ["..", "."].filter component.matches else []) :
    special = String.ofList ['.'] := by
  split_ifs at hspecial with hdot
  · obtain ⟨hmem, hmatches⟩ := List.mem_filter.mp hspecial
    rcases List.mem_pair.mp hmem with rfl | rfl
    · exact absurd ⟨hmatches, fun _ => hdot⟩ h.parent
    · rfl
  · cases hspecial

/-- What is found for each member of a list. -/
theorem forall₂_flat_map {α β : Type} {relation : β → β → Prop} {members : List α}
    {first second : α → List β}
    (h : ∀ member ∈ members, List.Forall₂ relation (first member) (second member)) :
    List.Forall₂ relation (members.flatMap first) (members.flatMap second) :=
  List.rel_flatMap (R := fun member other =>
    List.Forall₂ relation (first member) (second other)) (List.forall₂_same.mpr h) fun _ _ => id

theorem forall₂_if {α : Type} {relation : α → α → Prop} {condition : Prop} [Decidable condition]
    {first second : List α} (h : List.Forall₂ relation first second) :
    List.Forall₂ relation (if condition then first else []) (if condition then second else []) := by
  split_ifs
  · exact h
  · exact .nil

/-- A text is the text of its characters. -/
theorem exists_of_list (text : String) : ∃ chars, text = String.ofList chars :=
  ⟨text.toList, String.ofList_toList.symm⟩

/-- A component less is looked for at a place further down. -/
theorem need_grow (component : Pattern) (rest : List Pattern) (h : tree.Holds front)
    (hpieces : Inward pieces) (hseparator : '/' ∉ name) (hparent : name ≠ ['.', '.']) :
    (Search.below (inside front (grow pieces name)) rest).need tree <
      (Search.below (inside front pieces) (component :: rest)).need tree := by
  have hroom := h.room_grow hpieces hseparator hparent
  simp only [Search.need, List.length_cons]
  omega

/-- At a name of a directory there is less room for the same components. -/
theorem need_child (components : List Pattern) (h : walk.tree.Holds front) (hpieces : Inward pieces)
    (hname : IsName name) (hmem : String.ofList name ∈ walk.namesIn (inside front pieces)) :
    (Search.fitting (inside front (grow pieces name)) components).need walk.tree <
      (Search.below (inside front pieces) components).need walk.tree := by
  obtain ⟨names, hlist, hlisted⟩ := mem_names_in_iff.mp hmem
  have hroom := h.room_child hpieces hname hlist hlisted
  simp only [Search.need]
  omega

/-- With these bounds, the same search finds the same below both directories, as long as it needs
less. -/
def RunsSame (walk again : Walk) (front away : List (List Char)) (bound fewer : Nat) : Prop :=
  ∀ ⦃search twin : Search⦄, Search.Twin front away search twin →
    search.need walk.tree < bound → twin.need again.tree < fewer →
    List.Forall₂ (Twin front away) (walk.run bound search) (again.run fewer twin)

variable {fewer : Nat}

section

variable (hsame : SameBelow walk.tree again.tree front away) (hfront : walk.tree.Holds front)
  (haway : again.tree.Holds away) (honly : walk.directoriesOnly = again.directoriesOnly)

include hsame hfront haway

theorem names_same (hpieces : Inward pieces) :
    walk.namesIn (inside front pieces) = again.namesIn (inside away pieces) := by
  unfold namesIn
  rcases (hsame.inside hfront haway hpieces).2 with
    ⟨names, others, hnames, hothers, hperm⟩ | ⟨fault, hnames, hothers⟩
  · rw [hnames, hothers]
    exact sorted_eq_of_perm hperm
  · rw [hnames, hothers]

theorem is_directory_same (hpieces : Inward pieces) :
    walk.tree.isDirectory (inside front pieces) = again.tree.isDirectory (inside away pieces) := by
  rw [FileTree.isDirectory, FileTree.isDirectory, (hsame.inside hfront haway hpieces).1]

include honly

theorem result_same (hpieces : Inward pieces) : List.Forall₂ (Twin front away)
    (walk.result (inside front pieces)) (again.result (inside away pieces)) := by
  unfold result
  rw [is_directory_same hsame hfront haway hpieces, honly]
  split_ifs
  · exact .nil
  · exact .cons ⟨pieces, hpieces, rfl, rfl⟩ .nil

/-- What is found where a component leads is the same. -/
theorem arrivals_same (hrun : RunsSame walk again front away bound fewer) (hpieces : Inward pieces)
    (hrest : ∀ component ∈ rest, StaysIn component)
    (hbound : (Search.below (inside front pieces) rest).need walk.tree < bound)
    (hfewer : (Search.below (inside away pieces) rest).need again.tree < fewer) :
    List.Forall₂ (Twin front away) (walk.arrivals bound rest (inside front pieces))
      (again.arrivals fewer rest (inside away pieces)) := by
  unfold arrivals
  split_ifs
  · exact result_same hsame hfront haway honly hpieces
  · exact hrun (.below hpieces hrest) hbound hfewer

/-- A name that is written out is entered in both directories or in none. -/
theorem literal_same (hrun : RunsSame walk again front away bound fewer) (hpieces : Inward pieces)
    (hcomponent : StaysIn component) (hrest : ∀ component ∈ rest, StaysIn component)
    (hliteral : component.literal? = some (String.ofList name))
    (hbound : (Search.below (inside front pieces) (component :: rest)).need walk.tree < bound + 1)
    (hfewer : (Search.below (inside away pieces) (component :: rest)).need again.tree <
      fewer + 1) :
    List.Forall₂ (Twin front away)
      (walk.run (bound + 1) (.below (inside front pieces) (component :: rest)))
      (again.run (fewer + 1) (.below (inside away pieces) (component :: rest))) := by
  have hseparator : '/' ∉ name := by simpa using hcomponent.literal _ hliteral
  have hparent := hcomponent.literal_ne_parent hliteral
  have hgrown := hpieces.grow hseparator hparent
  have hhere := need_grow component rest hfront hpieces hseparator hparent
  have hthere := need_grow component rest haway hpieces hseparator hparent
  rw [run_literal hliteral, run_literal hliteral, enter_inside hfront hpieces hseparator,
    enter_inside haway hpieces hseparator, is_directory_same hsame hfront haway hpieces,
    FileTree.contains, FileTree.contains, (hsame.inside hfront haway hgrown).1]
  exact forall₂_if (arrivals_same hsame hfront haway honly hrun hgrown hrest (by omega) (by omega))

/-- A pattern goes through the same names of both directories. -/
theorem pattern_same (hrun : RunsSame walk again front away bound fewer) (htree : walk.tree.WellNamed)
    (hpieces : Inward pieces) (hcomponents : ∀ part ∈ component :: rest, StaysIn part)
    (hpattern : component.literal? = none)
    (hbound : (Search.below (inside front pieces) (component :: rest)).need walk.tree < bound + 1)
    (hfewer : (Search.below (inside away pieces) (component :: rest)).need again.tree <
      fewer + 1) :
    List.Forall₂ (Twin front away)
      (walk.run (bound + 1) (.below (inside front pieces) (component :: rest)))
      (again.run (fewer + 1) (.below (inside away pieces) (component :: rest))) := by
  obtain ⟨hcomponent, hrest⟩ := List.forall_mem_cons.mp hcomponents
  have hnames := names_same hsame hfront haway hpieces
  rw [run_pattern hpattern, run_pattern hpattern, is_directory_same hsame hfront haway hpieces,
    ← hnames]
  refine forall₂_if (List.rel_append (forall₂_flat_map fun special hspecial => ?_)
    (forall₂_flat_map fun written hwritten => ?_))
  · -- a dot leads back to the directory itself
    obtain rfl := hcomponent.special_current hspecial
    have hseparator : '/' ∉ ['.'] := by decide
    have hparent : ['.'] ≠ ['.', '.'] := by decide
    have hhere := need_grow component rest hfront hpieces hseparator hparent
    have hthere := need_grow component rest haway hpieces hseparator hparent
    rw [hfront.join hpieces hseparator, haway.join hpieces hseparator]
    exact arrivals_same hsame hfront haway honly hrun (hpieces.grow hseparator hparent) hrest
      (by omega) (by omega)
  · -- a name of the directories is entered, and asked whether it fits
    obtain ⟨name, rfl⟩ := exists_of_list written
    have hname := name_of_mem_names_in htree hwritten
    rw [String.toList_ofList] at hname
    have hhere := need_child (component :: rest) hfront hpieces hname hwritten
    have hthere := need_child (component :: rest) haway hpieces hname (hnames ▸ hwritten)
    rw [enter_inside hfront hpieces hname.separator, enter_inside haway hpieces hname.separator]
    exact hrun (.fitting hpieces hname hcomponents) (by omega) (by omega)

/-- A name that fits leads to the same in both directories. -/
theorem fitted_same (name : List Char) (hrun : RunsSame walk again front away bound fewer)
    (hpieces : Inward pieces)
    (hcomponents : ∀ component ∈ components, StaysIn component)
    (hbound : (Search.below (inside front pieces) components).need walk.tree < bound + 1)
    (hfewer : (Search.below (inside away pieces) components).need again.tree < fewer + 1) :
    List.Forall₂ (Twin front away)
      (walk.fitted bound (String.ofList name) (inside front pieces) components)
      (again.fitted fewer (String.ofList name) (inside away pieces) components) := by
  cases components with
  | nil => exact .nil
  | cons first others =>
      simp only [Search.need, List.length_cons] at hbound hfewer
      have hothers := (List.forall_mem_cons.mp hcomponents).2
      refine forall₂_if (arrivals_same hsame hfront haway honly hrun hpieces hothers ?_ ?_)
      · simp only [Search.need]
        omega
      · simp only [Search.need]
        omega

/-- A name is asked in the same way whether it fits, and a pattern for any number of components is
followed further down. -/
theorem fitting_same (hrun : RunsSame walk again front away bound fewer) (hpieces : Inward pieces)
    (hname : IsName name) (hcomponents : ∀ part ∈ component :: rest, StaysIn part)
    (hbound : (Search.fitting (inside front (grow pieces name)) (component :: rest)).need
      walk.tree < bound + 1)
    (hfewer : (Search.fitting (inside away (grow pieces name)) (component :: rest)).need
      again.tree < fewer + 1) :
    List.Forall₂ (Twin front away)
      (walk.run (bound + 1) (.fitting (inside front (grow pieces name)) (component :: rest)))
      (again.run (fewer + 1) (.fitting (inside away (grow pieces name)) (component :: rest))) := by
  have hgrown := hpieces.grow hname.separator hname.ne_parent
  -- what is left of the components is never more than there was
  have hfewerParts {parts : List Pattern} (hparts : parts.length ≤ (component :: rest).length) :
      (Search.below (inside front (grow pieces name)) parts).need walk.tree < bound ∧
        (Search.below (inside away (grow pieces name)) parts).need again.tree < fewer := by
    simp only [Search.need] at hbound hfewer ⊢
    omega
  have hfitted {parts : List Pattern} (hstays : ∀ part ∈ parts, StaysIn part)
      (hparts : parts.length ≤ (component :: rest).length) :=
    fitted_same hsame hfront haway honly name hrun hgrown hstays
      (Nat.lt_succ_of_lt (hfewerParts hparts).1) (Nat.lt_succ_of_lt (hfewerParts hparts).2)
  have hsuffix := collapse_suffix (component :: rest)
  have hcollapsed : ∀ part ∈ collapse (component :: rest), StaysIn part :=
    fun part hpart => hcomponents part (hsuffix.subset hpart)
  have hothers := hfitted (fun part hpart => hcollapsed part (List.mem_of_mem_tail hpart))
    ((List.tail_suffix _).length_le.trans hsuffix.length_le)
  have hfurther := hrun (.below hgrown hcollapsed) (hfewerParts hsuffix.length_le).1
    (hfewerParts hsuffix.length_le).2
  rw [run_fitting (file_name_inside hfront hpieces hname),
    run_fitting (file_name_inside haway hpieces hname),
    is_directory_same hsame hfront haway hgrown]
  split_ifs
  · exact List.rel_append (.cons ⟨_, hgrown, rfl, rfl⟩ .nil) hfurther
  · exact List.rel_append hothers hfurther
  · exact hothers
  · exact hfitted hcomponents (Nat.le_refl _)

/-- The same search finds the same below both directories, as long as the bounds are large enough.
The induction is on the first bound. -/
theorem run_same (htree : walk.tree.WellNamed) : RunsSame walk again front away bound fewer := by
  induction bound generalizing fewer with
  | zero => exact fun _ _ _ hbound _ => absurd hbound (Nat.not_lt_zero _)
  | succ bound ih =>
      intro search twin hsearch hbound hfewer
      obtain ⟨fewer, rfl⟩ := Nat.exists_eq_add_one.mpr (Nat.zero_lt_of_lt hfewer)
      cases hsearch with
      | @below pieces components hpieces hcomponents =>
          cases components with
          | nil => exact .nil
          | cons component rest =>
              obtain ⟨hcomponent, hrest⟩ := List.forall_mem_cons.mp hcomponents
              cases hliteral : component.literal? with
              | some written =>
                  obtain ⟨name, rfl⟩ := exists_of_list written
                  exact literal_same hsame hfront haway honly ih hpieces hcomponent hrest hliteral
                    hbound hfewer
              | none =>
                  exact pattern_same hsame hfront haway honly ih htree hpieces hcomponents hliteral
                    hbound hfewer
      | @fitting pieces name components hpieces hname hcomponents =>
          cases components with
          | nil => exact .nil
          | cons component rest =>
              exact fitting_same hsame hfront haway honly ih hpieces hname hcomponents hbound hfewer

end

/-- A search that begins with the names of a directory goes there first. The induction is on the
names that are left. -/
theorem run_reaches {behind : List (List Char)} (hnames : ∀ piece ∈ front ++ behind, IsName piece)
    (hdirectory : walk.tree.find (spelled (front ++ behind)) = .ok .directory)
    (hcomponents : components ≠ []) (bound : Nat) :
    walk.run (bound + behind.length) (.below (spelled front) (behind.map literalOf ++ components)) =
      walk.run bound (.below (spelled (front ++ behind)) components) := by
  induction behind generalizing front with
  | nil => simp
  | cons name behind ih =>
      have hname := hnames name (by simp)
      rw [List.append_cons] at hnames hdirectory
      have hwritten := Written.of_names hnames
      have hway : Written (front ++ name :: behind) := by simpa using hwritten
      obtain ⟨-, ⟨found, hfound⟩, -⟩ := found_on_way hway hname (by simpa using hdirectory)
      have hcontains : walk.tree.contains (spelled (front ++ [name])) = true := by
        rw [FileTree.contains, hfound]
        rfl
      rw [List.length_cons, ← Nat.add_assoc, List.map_cons, List.cons_append,
        run_literal (literal_of_literal name), not_special hname, if_neg Bool.false_ne_true,
        enter_spelled hwritten.of_append, if_pos hcontains, arrivals_cons (by simp [hcomponents]),
        ih hnames hdirectory, List.append_assoc, List.singleton_append]

end Walk

/-! ## Patterns in two directories -/

variable {written : Path}

/-- A pattern that does not lead out of a directory. -/
structure StaysBelow (written : Path) : Prop where
  relative : written.isAbsolute = false
  parent : ∀ piece ∈ written.segments, ∀ component,
    Pattern.ofText (String.ofList piece) = .ok component → ¬ Selects component ['.', '.']

/-- A pattern behind names is written with one separator in between. -/
theorem join_written (h : tree.Holds front) (hwritten : written.isAbsolute = false) :
    ((ofSegments false front).join written).isAbsolute = false ∧
      ((ofSegments false front).join written).segments = front ++ written.segments ∧
      ((ofSegments false front).join written).text.toList =
        (ofSegments false front).text.toList ++ '/' :: written.text.toList := by
  have hnothing : Inward [] := by simp [Inward]
  have hbase : inside front [] = ofSegments false front := by rw [inside, List.append_nil]
  obtain ⟨hrelative, hsegments⟩ := h.segments hnothing
  have hne := text_ne_empty (h.components hnothing).2.ne_nil
  rw [hbase] at hrelative hsegments hne
  rw [List.append_nil] at hsegments
  have hjoined := (Path.is_absolute_join hwritten hne).trans hrelative
  have hcut := (Path.segments_of_relative hrelative).symm.trans hsegments
  obtain ⟨text, htext, ⟨hfront, -⟩ | hopen⟩ := Path.join_text hwritten hne
  · refine ⟨hjoined, ?_, by rw [htext, hfront]⟩
    rw [Path.segments_of_relative hjoined, htext, List.splitOn_append_cons_self, ← hfront, hcut,
      Path.segments_of_relative hwritten]
  · -- names do not end with a separator
    rw [hopen, List.splitOn_append_cons_self] at hcut
    exact absurd rfl (h.names [] (hcut ▸ List.mem_append_right _ (by simp))).ne_nil

/-- The pieces of a pattern that are its components: an empty last one is left out. -/
theorem components_of_relative (hwritten : written.isAbsolute = false) (hne : written.text ≠ "") :
    ∃ pieces, componentsOf written.text = pieces.map String.ofList ∧ pieces ≠ [] ∧
      pieces ⊆ written.segments := by
  obtain ⟨first, others, hsegments, hfirst⟩ := Path.first_piece hwritten hne
  rw [componentsOf, ← Path.segments_of_relative hwritten]
  split_ifs with hlast
  · refine ⟨written.segments.dropLast, by rw [List.map_dropLast], ?_, List.dropLast_subset _⟩
    rw [hsegments]
    cases others with
    | nil => simp [hsegments, hfirst] at hlast
    | cons second others => exact List.cons_ne_nil _ _
  · exact ⟨_, rfl, by simp [hsegments], List.Subset.refl _⟩

theorem read_ne_nil (hwritten : written.isAbsolute = false) (hne : written.text ≠ "")
    (hcomponents : (componentsOf written.text).mapM Pattern.ofText = .ok components) :
    components ≠ [] := by
  obtain ⟨pieces, hpieces, hpiecesNe, -⟩ := components_of_relative hwritten hne
  rw [hpieces] at hcomponents
  exact components_ne_nil hcomponents hpiecesNe

theorem components_behind (h : tree.Holds front) (hwritten : written.isAbsolute = false) :
    componentsOf ((ofSegments false front).join written).text =
      front.map String.ofList ++ componentsOf written.text := by
  obtain ⟨hjoined, hsegments, -⟩ := join_written h hwritten
  have hpieces : written.segments.map String.ofList ≠ [] := by
    simpa using Path.segments_ne_nil hwritten
  rw [componentsOf, componentsOf, ← Path.segments_of_relative hjoined,
    ← Path.segments_of_relative hwritten, hsegments, List.map_append, List.getLast?_append,
    Option.or_of_isSome (List.getLast?_isSome.mpr hpieces)]
  split_ifs
  · rw [List.dropLast_append_of_ne_nil hpieces]
  · rfl

/-- The walk for a pattern behind names. -/
def walkFor (tree : FileTree) (written : Path) : Walk :=
  ⟨tree, written.text.toList.getLast? == some '/'⟩

theorem plain_join (h : ∀ piece ∈ pieces, IsPlain piece) : IsPlain (joinSegments pieces) := by
  induction pieces with
  | nil => exact nofun
  | cons piece pieces ih =>
      obtain ⟨hpiece, hpieces⟩ := List.forall_mem_cons.mp h
      by_cases hnil : pieces = []
      · subst hnil
        simpa [joinSegments] using hpiece
      · rw [join_segments_cons hnil]
        intro c hc
        rcases List.mem_append.mp hc with hc | hc
        · exact hpiece c hc
        · rcases List.mem_cons.mp hc with rfl | hc
          · decide
          · exact ih hpieces c hc

/-- A pattern behind names is read, and its components are searched for in the directory. -/
theorem glob_behind (h : tree.Holds front) (hplain : ∀ piece ∈ front, IsPlain piece)
    (hwritten : written.isAbsolute = false) (hne : written.text ≠ "") :
    glob tree ((ofSegments false front).join written).text =
      (Pattern.ofText written.text).mapError
        (·.shift ((ofSegments false front).text.length + 1)) >>= fun _ =>
      (componentsOf written.text).mapM Pattern.ofText >>= fun components =>
        .ok ((walkFor tree written).run
          ((front.length + components.length + 1) * (tree.entries.length + 3) - front.length)
          (.below (inside front []) components)) := by
  obtain ⟨hjoined, -, htext⟩ := join_written h hwritten
  have hplainText : IsPlain (ofSegments false front).text.toList := by
    simpa [ofSegments] using plain_join hplain
  have hlast : ((ofSegments false front).join written).text.toList.getLast? =
      written.text.toList.getLast? := Path.last_join _ hwritten hne
  have habsolute : (⟨((ofSegments false front).join written).text⟩ : Path).isAbsolute = false :=
    hjoined
  unfold glob
  dsimp only
  rw [habsolute, if_neg Bool.false_ne_true, components_behind h hwritten, List.mapM_append,
    map_m_of_text_plain front hplain, of_text_behind hplainText htext, hlast]
  cases Pattern.ofText written.text with
  | error fault => rfl
  | ok pattern =>
      simp only [except_ok_bind, except_map_error_ok, Except.map]
      cases hcomponents : (componentsOf written.text).mapM Pattern.ofText with
      | error fault => rfl
      | ok components =>
          -- the names in front lead to the directory and to nothing else, so the search starts
          -- there
          have hdirectory := FileTree.is_directory_iff.mp h.directory
          rw [← spelled_of_ne h.ne_nil] at hdirectory
          have hnames : ∀ piece ∈ [] ++ front, IsName piece := h.names
          have hthere : (walkFor tree written).tree.find (spelled ([] ++ front)) =
              .ok .directory := hdirectory
          have hreaches :=
            Walk.run_reaches hnames hthere (read_ne_nil hwritten hne hcomponents)
              ((front.length + components.length + 1) * (tree.entries.length + 3) - front.length)
          have hbound : front.length ≤
              (front.length + components.length + 1) * (tree.entries.length + 3) :=
            (Nat.le_add_right _ (components.length + 1)).trans (Nat.le_mul_of_pos_right _ (by omega))
          rw [Nat.sub_add_cancel hbound, List.nil_append, spelled_of_ne h.ne_nil] at hreaches
          change Except.ok ((walkFor tree written).run
            (((front.map literalOf ++ components).length + 1) * (tree.entries.length + 3))
            (.below (spelled []) (front.map literalOf ++ components))) = .ok _
          rw [List.length_append, List.length_map, hreaches, inside, List.append_nil]

/-- The components of a pattern that stays below a directory stay in it. -/
theorem StaysBelow.stays_in (h : StaysBelow written) (hne : written.text ≠ "")
    (hcomponents : (componentsOf written.text).mapM Pattern.ofText = .ok components) :
    ∀ component ∈ components, Walk.StaysIn component := by
  obtain ⟨pieces, hpieces, -, hsegments⟩ := components_of_relative h.relative hne
  rw [hpieces] at hcomponents
  intro component hcomponent
  obtain ⟨piece, hpiece, hread⟩ :=
    exists_reads (forall_reads_of_map_m hcomponents) component hcomponent
  have hmem := hsegments hpiece
  constructor
  · refine h.parent piece hmem component (of_text_ok_iff.mpr ?_)
    rwa [String.toList_ofList]
  · intro name hliteral
    rw [eq_literal_of hliteral] at hread
    rw [← hread.eq_of_literal]
    exact Path.separator_of_segments h.relative piece hmem

/-- The answers for a pattern in two directories: the same paths below both, or the same fault. A
fault of the pattern as a whole is told from the start of the directory on. -/
inductive SameAnswer (front away : List (List Char)) :
    Except PatternFault (List Path) → Except PatternFault (List Path) → Prop
  | found {paths others : List Path} : List.Forall₂ (Walk.Twin front away) paths others →
      SameAnswer front away (.ok paths) (.ok others)
  | component {fault : PatternFault} : SameAnswer front away (.error fault) (.error fault)
  | whole {fault : PatternFault} : SameAnswer front away
      (.error (fault.shift ((ofSegments false front).text.length + 1)))
      (.error (fault.shift ((ofSegments false away).text.length + 1)))

/-- The bound of a walk leaves two steps for each entry of the tree. -/
theorem need_lt_bound (tree : FileTree) (path : Path) (count : Nat) (hcomponents : components ≠ []) :
    Walk.Search.need tree (.below path components) <
      (count + components.length + 1) * (tree.entries.length + 3) - count := by
  have hroom := tree.room_le path
  have hlength := List.length_pos_iff.mpr hcomponents
  have hcount := Nat.le_mul_of_pos_right count (Nat.succ_pos (tree.entries.length + 2))
  have hmany := Nat.mul_le_mul_right (tree.entries.length + 2) hlength
  simp only [Walk.Search.need, Nat.add_mul, Nat.mul_add, Nat.one_mul] at *
  omega

/-- A pattern that stays below a directory finds the same in directories that hold the same. -/
theorem glob_same (hsame : SameBelow tree other front away) (htree : tree.WellNamed)
    (hfront : tree.Holds front) (haway : other.Holds away)
    (hfrontPlain : ∀ piece ∈ front, IsPlain piece) (hawayPlain : ∀ piece ∈ away, IsPlain piece)
    (hwritten : StaysBelow written) (hne : written.text ≠ "") :
    SameAnswer front away (glob tree ((ofSegments false front).join written).text)
      (glob other ((ofSegments false away).join written).text) := by
  rw [glob_behind hfront hfrontPlain hwritten.relative hne,
    glob_behind haway hawayPlain hwritten.relative hne]
  cases Pattern.ofText written.text with
  | error fault => exact .whole
  | ok pattern =>
      cases hcomponents : (componentsOf written.text).mapM Pattern.ofText with
      | error fault => exact .component
      | ok components =>
          have hread := read_ne_nil hwritten.relative hne hcomponents
          have hbelow : SameBelow (walkFor tree written).tree (walkFor other written).tree front away :=
            hsame
          exact .found (Walk.run_same hbelow hfront haway rfl htree
            (.below (by simp [Inward]) (hwritten.stays_in hne hcomponents))
            (need_lt_bound tree _ _ hread) (need_lt_bound other _ _ hread))

end Glob

end TemplateBundle

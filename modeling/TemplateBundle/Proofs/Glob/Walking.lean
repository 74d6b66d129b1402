import TemplateBundle.Proofs.FileTree.Steps
import TemplateBundle.Proofs.Glob.Reading
import TemplateBundle.Proofs.Glob.Searching

/-!
# Where patterns find paths

A search that starts at a path finds paths inside it (`run_inside`). Where a pattern begins with a
directory as it is written, the search reaches that directory before anything else, so that what is
found lies inside the directory (`glob_inside`). A leading dot is not kept on the way: `Walk.here`
is left out of the paths that are found.
-/

namespace TemplateBundle.Glob

open FileTree (Leads)
open TemplateBundle.Path (Component EndInStep stepsOf)

variable {path directory found : Path} {base : List Component}

/-! ## Paths below others -/

/-- The path starts with the steps, unless it is absolute. -/
def Extends (base : List Component) (path : Path) : Prop :=
  path.isAbsolute = true ∨ base <+: path.components

/-- The path starts with the steps and ends with another one, unless it is absolute or does not end
with a step at all. -/
def Inside (base : List Component) (path : Path) : Prop :=
  path.isAbsolute = true ∨
    (base <+: path.components ∧ (EndInStep path.segments → base ≠ path.components))

theorem Inside.extends (h : Inside base path) : Extends base path :=
  h.imp_right And.left

/-- The steps are none that the working directory has. -/
structure Proper (base : List Component) : Prop where
  ne_nil : base ≠ []
  ne_current : base ≠ [.current]

theorem extends_self (path : Path) : Extends path.components path :=
  .inr List.prefix_rfl

theorem Proper.append (h : Proper base) (others : List Component) : Proper (base ++ others) where
  ne_nil := List.append_ne_nil_of_left_ne_nil h.ne_nil others
  ne_current := by
    rw [ne_eq, List.append_eq_singleton_iff]
    rintro (⟨hnil, -⟩ | ⟨hcurrent, -⟩)
    · exact h.ne_nil hnil
    · exact h.ne_current hcurrent

/-- A path that starts with such steps is not that of the working directory. -/
theorem Extends.not_same_here (h : Extends base path) (hbase : Proper base) :
    path.same Walk.here = false := by
  have hhere : Walk.here.components = [.current] := by decide
  unfold Path.same
  rw [hhere, beq_eq_false_iff_ne]
  rcases h with habsolute | ⟨others, hpath⟩
  · simp [Path.components_eq, Path.start, habsolute]
  · intro hcurrent
    exact (hbase.append others).ne_current (hpath.trans hcurrent)

theorem text_ne_empty (h : path.components ≠ []) : path.text ≠ "" := by
  intro htext
  obtain rfl : path = ⟨""⟩ := congrArg Path.mk htext
  exact h (by decide)

/-- What is in a directory is inside of it. -/
theorem Extends.join_inside (h : Extends base directory) (hbase : Proper base) :
    Inside base (directory.join path) := by
  cases hpath : path.isAbsolute with
  | true =>
      rw [Path.join_of_absolute hpath]
      exact .inl hpath
  | false =>
      rcases h with habsolute | hbelow
      · have hne : directory.text ≠ "" := by
          rintro htext
          simp [Path.isAbsolute, htext] at habsolute
        exact .inl ((Path.is_absolute_join hpath hne).trans habsolute)
      · have hne : directory.text ≠ "" := by
          refine text_ne_empty fun hnil => hbase.ne_nil ?_
          rwa [hnil, List.prefix_nil] at hbelow
        cases hdirectory : directory.isAbsolute with
        | true => exact .inl ((Path.is_absolute_join hpath hne).trans hdirectory)
        | false =>
            rw [Inside, Path.components_join hdirectory hne hpath,
              Path.end_in_step_join hdirectory hne hpath]
            refine .inr ⟨hbelow.trans (List.prefix_append _ _), fun hend hsame => ?_⟩
            -- what is joined ends with a step of its own, so there are more steps than before
            have hlength := congrArg List.length hsame
            have hshorter := hbelow.length_le
            have hsteps := List.length_pos_iff.mpr hend.steps_ne_nil
            rw [List.length_append] at hlength
            omega

theorem Extends.enter_eq (h : Extends base directory) (hbase : Proper base) (name : String) :
    Walk.enter directory name = directory.join ⟨name⟩ := by
  unfold Walk.enter
  rw [h.not_same_here hbase, if_neg Bool.false_ne_true]

theorem Extends.enter_inside (h : Extends base directory) (hbase : Proper base) (name : String) :
    Inside base (Walk.enter directory name) := by
  rw [h.enter_eq hbase]
  exact h.join_inside hbase

/-! ## Searches -/

namespace Walk

variable {walk : Walk} {bound : Nat} {rest : List Pattern} {component : Pattern}

/-- The search starts at a path with these steps; a path that is to fit is one inside. -/
def Search.StartsIn (base : List Component) : Search → Prop
  | .below path _ => Extends base path
  | .fitting path _ => Inside base path

/-- What is found from a path on is inside of the steps that it starts with. The induction is on the
bound; every search that is started on the way starts inside as well. -/
theorem run_inside (hbase : Proper base) (search : Search) (h : search.StartsIn base)
    (hfound : found ∈ walk.run bound search) : Inside base found := by
  induction bound generalizing search with
  | zero => cases search <;> cases hfound
  | succ bound ih =>
      have harrives {rest : List Pattern} {next : Path} (hnext : Inside base next)
          (harrives : found ∈ walk.arrivals bound rest next) : Inside base found := by
        rcases mem_arrivals harrives with ⟨-, rfl⟩ | ⟨-, hmem⟩
        · exact hnext
        · exact ih (.below next rest) hnext.extends hmem
      cases search with
      | below path components =>
          obtain ⟨_, component, rest, ⟨⟩, rfl⟩ := below_cons_of_mem hfound
          cases hliteral : component.literal? with
          | some name =>
              exact harrives (h.enter_inside hbase name)
                ((mem_below_literal_iff hliteral).mp hfound).2
          | none =>
              obtain ⟨-, ⟨name, -, -, -, hnext⟩ | ⟨name, -, hnext⟩⟩ :=
                (mem_below_pattern_iff hliteral).mp hfound
              · exact harrives (h.join_inside hbase) hnext
              · exact ih (.fitting _ _) (h.enter_inside hbase name) hnext
      | fitting path components =>
          rcases mem_fitting hfound with rfl | ⟨others, hnext⟩
          · exact h
          · exact ih (.below path others) h.extends hnext

end Walk

/-! ## Patterns that begin with a directory -/

namespace Walk

variable {walk : Walk} {bound : Nat} {rest : List Pattern} {pieces : List (List Char)}

/-- A path at which something is found leads to a directory. -/
theorem leads_of_found (hpath : path.isAbsolute = false) (hproper : Proper path.components)
    (h : found ∈ walk.run bound (.below path rest)) :
    walk.tree.Leads path.components .directory := by
  have hdirectory (hcheck : walk.tree.isDirectory path = true) :
      walk.tree.Leads path.components .directory :=
    (FileTree.leads_of_find (FileTree.is_directory_iff.mp hcheck)).2
  obtain ⟨fewer, component, rest, rfl, rfl⟩ := below_cons_of_mem h
  cases hliteral : component.literal? with
  | none => exact hdirectory ((mem_below_pattern_iff hliteral).mp h).1
  | some name =>
      have hthere := ((mem_below_literal_iff hliteral).mp h).1
      split_ifs at hthere
      · exact hdirectory hthere
      · rw [(extends_self path).enter_eq hproper] at hthere
        exact FileTree.leads_directory_of_contains hpath
          (text_ne_empty hproper.ne_nil) hthere

/-- Pieces that are written in the pattern are walked as they are. -/
theorem run_literals (hrest : rest ≠ []) (hpath : path.isAbsolute = false)
    (hproper : Proper path.components) (hpieces : ∀ piece ∈ pieces, '/' ∉ piece)
    (hfound : found ∈ walk.run bound (.below path (pieces.map literalOf ++ rest))) :
    Inside (path.components ++ stepsOf pieces) found ∧
      walk.tree.Leads (path.components ++ stepsOf pieces) .directory := by
  induction pieces generalizing path bound with
  | nil =>
      rw [stepsOf, List.filterMap_nil, List.append_nil]
      exact ⟨run_inside hproper (.below path rest) (extends_self path) hfound,
        leads_of_found hpath hproper hfound⟩
  | cons piece pieces ih =>
      obtain ⟨hpiece, hpieces⟩ := List.forall_mem_cons.mp hpieces
      obtain ⟨hname, hsegments⟩ := Path.segments_of_piece hpiece
      obtain ⟨fewer, _, _, rfl, ⟨⟩⟩ := below_cons_of_mem hfound
      have hne := text_ne_empty hproper.ne_nil
      have harrives := ((mem_below_literal_iff (literal_of_literal piece)).mp hfound).2
      rw [(extends_self path).enter_eq hproper] at harrives
      have hcomponents := Path.components_join hpath hne hname
      rw [hsegments] at hcomponents
      have hjoin : Proper (path.join ⟨String.ofList piece⟩).components := by
        rw [hcomponents]
        exact hproper.append _
      rcases mem_arrivals harrives with ⟨hnil, -⟩ | ⟨-, hmem⟩
      · exact absurd (List.append_eq_nil_iff.mp hnil).2 hrest
      · have hrun := ih ((Path.is_absolute_join hname hne).trans hpath) hjoin hpieces hmem
        rw [hcomponents, List.append_assoc, stepsOf, stepsOf, ← List.filterMap_append] at hrun
        exact hrun

/-- The same from the working directory, which is left with the step of the first piece. -/
theorem run_from_here {first : List Char} {step : Component}
    (hstep : Component.ofSegment? first = some step) (hrest : rest ≠ [])
    (hpieces : ∀ piece ∈ first :: pieces, '/' ∉ piece)
    (hfound : found ∈ walk.run bound (.below here ((first :: pieces).map literalOf ++ rest))) :
    Inside (step :: stepsOf pieces) found ∧
      walk.tree.Leads (step :: stepsOf pieces) .directory := by
  obtain ⟨hfirst, hpieces⟩ := List.forall_mem_cons.mp hpieces
  obtain ⟨hname, -⟩ := Path.segments_of_piece hfirst
  have hcomponents := Path.components_of_piece hfirst hstep
  have hproper : Proper (⟨String.ofList first⟩ : Path).components := by
    rw [hcomponents]
    refine ⟨List.cons_ne_nil _ _, fun hcurrent => ?_⟩
    exact (Path.of_segment_relative hstep).2 (List.cons.inj hcurrent).1
  obtain ⟨fewer, _, _, rfl, ⟨⟩⟩ := below_cons_of_mem hfound
  have harrives := ((mem_below_literal_iff (literal_of_literal first)).mp hfound).2
  rcases mem_arrivals harrives with ⟨hnil, -⟩ | ⟨-, hmem⟩
  · exact absurd (List.append_eq_nil_iff.mp hnil).2 hrest
  · have hinside := run_literals hrest hname hproper hpieces hmem
    rwa [hcomponents, List.singleton_append] at hinside

end Walk

/-- A pattern is walked from the working directory, unless it is absolute and finds nothing. -/
theorem glob_ok {tree : FileTree} {pattern : Path} {results : List Path}
    (h : glob tree pattern.text = .ok results) (hfound : found ∈ results) :
    pattern.isAbsolute = false ∧ ∃ components, ∃ walk : Walk, ∃ bound, walk.tree = tree ∧
      (componentsOf pattern.text).mapM Pattern.ofText = .ok components ∧
        found ∈ walk.run bound (.below Walk.here components) := by
  obtain ⟨-, -, h⟩ := except_bind_ok_iff.mp h
  obtain ⟨components, hcomponents, h⟩ := except_bind_ok_iff.mp h
  cases hpattern : pattern.isAbsolute with
  | true =>
      rw [if_pos hpattern] at h
      cases h
      cases hfound
  | false =>
      rw [hpattern, if_neg Bool.false_ne_true] at hcomponents
      rw [hpattern, if_neg Bool.false_ne_true] at h
      cases h
      exact ⟨rfl, components, _, _, rfl, hcomponents, hfound⟩

/-- The components of a pattern that begins with a directory: first the pieces of the directory, and
then at least one piece more. -/
theorem components_of_join {front : List (List Char)} {written : Path}
    (hwritten : written.isAbsolute = false) (hne : written.text ≠ "")
    (hjoin : (directory.join written).isAbsolute = false)
    (hfront : (directory.join written).segments = front ++ written.segments) :
    ∃ piece others, componentsOf (directory.join written).text =
      front.map String.ofList ++ piece :: others := by
  obtain ⟨first, others, hsegments, hfirst⟩ := Path.first_piece hwritten hne
  have hpieces : ((directory.join written).text.toList.splitOn '/').map String.ofList =
      front.map String.ofList ++ String.ofList first :: others.map String.ofList := by
    rw [← Path.segments_of_relative hjoin, hfront, hsegments, List.map_append, List.map_cons]
  unfold componentsOf
  rw [hpieces]
  dsimp only
  split_ifs with hlast
  · -- an empty last piece is left out; it is not the only one of the path
    cases others with
    | nil => simp [hfirst] at hlast
    | cons second others => exact ⟨_, _, List.dropLast_append_of_ne_nil (List.cons_ne_nil _ _)⟩
  · exact ⟨_, _, rfl⟩

/-- A pattern that begins with plain pieces and has others is read as these pieces as they are
written, and at least one component more. -/
theorem components_of_plain {front : List (List Char)} {piece : String} {others : List String}
    {components : List Pattern} (hfront : ∀ piece ∈ front, IsPlain piece)
    (h : (front.map String.ofList ++ piece :: others).mapM Pattern.ofText = .ok components) :
    ∃ rest, rest ≠ [] ∧ components = front.map literalOf ++ rest := by
  rw [List.mapM_append, map_m_of_text_plain front hfront, except_ok_bind] at h
  obtain ⟨rest, hrest, hsplit⟩ := except_bind_ok_iff.mp h
  refine ⟨rest, ?_, (Except.ok.inj hsplit).symm⟩
  rintro rfl
  rw [List.mapM_cons] at hrest
  obtain ⟨_, -, hothers⟩ := except_bind_ok_iff.mp hrest
  obtain ⟨_, -, hnil⟩ := except_bind_ok_iff.mp hothers
  cases hnil

/-- What a pattern finds that begins with a directory as it is written lies inside that directory. A
leading dot would be lost on the walk. -/
theorem glob_inside {tree : FileTree} {written : Path} {results : List Path}
    (hdirectory : directory.isAbsolute = false) (hne : directory.text ≠ "")
    (hplain : IsPlain directory.text.toList) (hdot : directory.components.head? ≠ some .current)
    (hwritten : written.text ≠ "")
    (h : glob tree (directory.join written).text = .ok results) (hfound : found ∈ results) :
    Inside directory.components found ∧ tree.Leads directory.components .directory := by
  obtain ⟨hjoin, components, walk, bound, rfl, hcomponents, hrun⟩ := glob_ok h hfound
  have hrelative : written.isAbsolute = false := by
    by_contra habsolute
    rw [Bool.not_eq_false] at habsolute
    rw [Path.join_of_absolute habsolute, habsolute] at hjoin
    cases hjoin
  obtain ⟨front, hfront, hfrontNe, hpieces⟩ := Path.segments_join hdirectory hne hrelative
  obtain ⟨piece, others, hcut⟩ := components_of_join hrelative hwritten hjoin hfront
  have hmem : ∀ piece ∈ front, piece ∈ directory.text.toList.splitOn '/' := by
    intro piece hpiece
    rw [← Path.segments_of_relative hdirectory]
    rcases hpieces with hpieces | hpieces
    · rwa [hpieces]
    · exact hpieces ▸ List.mem_append_left _ hpiece
  have hchars : ∀ piece ∈ front, ∀ c ∈ piece, c ∈ directory.text.toList ∧ c ≠ '/' :=
    fun piece hpiece => Text.mem_of_mem_piece '/' _ piece (hmem piece hpiece)
  rw [hcut] at hcomponents
  obtain ⟨rest, hrest, rfl⟩ := components_of_plain
    (fun piece hpiece c hc => hplain c (hchars piece hpiece c hc).1) hcomponents
  -- the first piece is no dot, so the walk leaves the working directory with a step
  obtain ⟨first, front, rfl⟩ := List.exists_cons_of_ne_nil hfrontNe
  obtain ⟨step, hstep, hsteps⟩ := Path.first_step hdirectory hne hdot hpieces
  rw [hsteps]
  exact Walk.run_from_here hstep hrest
    (fun piece hpiece hseparator => (hchars piece hpiece '/' hseparator).2 rfl) hrun

end TemplateBundle.Glob

import Mathlib.Tactic.SplitIfs
import TemplateBundle.Glob.Walk

/-!
# What one step of a search finds

A search below a path goes on with a name that is written (`mem_below_literal_iff`) or with the
names of a directory (`mem_below_pattern_iff`), and a path that is to fit is found, or searched
further (`mem_fitting_single_iff`, `mem_fitting_recursive_iff`).
-/

namespace TemplateBundle.Glob.Walk

variable {walk : Walk} {bound : Nat} {path next found : Path} {component : Pattern}
  {rest : List Pattern}

theorem eq_of_mem_result (h : found ∈ walk.result path) : found = path := by
  unfold result at h
  split_ifs at h
  · cases h
  · exact List.mem_singleton.mp h

/-- Below a path, a search goes on with its first component. -/
theorem below_cons_of_mem {components : List Pattern}
    (h : found ∈ walk.run bound (.below path components)) :
    ∃ fewer component rest, bound = fewer + 1 ∧ components = component :: rest := by
  cases components with
  | nil => cases bound <;> cases h
  | cons component rest =>
      cases bound with
      | zero => cases h
      | succ fewer => exact ⟨fewer, component, rest, rfl, rfl⟩

/-- The paths that are found where a component leads: that one, or what a search goes on to find. -/
def arrivals (walk : Walk) (bound : Nat) (rest : List Pattern) (next : Path) : List Path :=
  if rest.isEmpty then walk.result next else walk.run bound (.below next rest)

theorem arrivals_cons (hrest : rest ≠ []) :
    walk.arrivals bound rest next = walk.run bound (.below next rest) := by
  rw [arrivals, if_neg (by simpa using hrest)]

/-- What is found where a component leads is found there, or further on. -/
theorem mem_arrivals (h : found ∈ walk.arrivals bound rest next) :
    (rest = [] ∧ found = next) ∨ (rest ≠ [] ∧ found ∈ walk.run bound (.below next rest)) := by
  by_cases hrest : rest = []
  · subst hrest
    exact .inl ⟨rfl, eq_of_mem_result h⟩
  · rw [arrivals_cons hrest] at h
    exact .inr ⟨hrest, h⟩

/-- A name that is written is entered if it is there. -/
theorem mem_below_literal_iff {name : String} (hliteral : component.literal? = some name) :
    found ∈ walk.run (bound + 1) (.below path (component :: rest)) ↔
      (if isSpecial name then walk.tree.isDirectory path
        else walk.tree.contains (enter path name)) = true ∧
      found ∈ walk.arrivals bound rest (enter path name) := by
  rw [run]
  simp only [hliteral]
  by_cases hthere : (if isSpecial name then walk.tree.isDirectory path
      else walk.tree.contains (enter path name)) = true
  · rw [if_pos hthere, and_iff_right hthere]
    rfl
  · rw [if_neg hthere]
    simp [hthere]

/-- A pattern leads to the names of a directory that fit it; if it starts with a dot, the directory
itself and the one above are among them. -/
theorem mem_below_pattern_iff (hliteral : component.literal? = none) :
    found ∈ walk.run (bound + 1) (.below path (component :: rest)) ↔
      walk.tree.isDirectory path = true ∧
        ((∃ name ∈ ["..", "."], component.startsWithDot = true ∧ component.matches name = true ∧
          found ∈ walk.arrivals bound rest (path.join ⟨name⟩)) ∨
        ∃ name ∈ walk.namesIn path,
          found ∈ walk.run bound (.fitting (enter path name) (component :: rest))) := by
  rw [run]
  simp only [hliteral]
  by_cases hdirectory : walk.tree.isDirectory path = true
  · rw [if_pos hdirectory, List.mem_append, List.mem_flatMap, List.mem_flatMap,
      and_iff_right hdirectory]
    refine or_congr_left ?_
    by_cases hdot : component.startsWithDot = true
    · rw [if_pos hdot]
      simp only [List.mem_filter, hdot, true_and, and_assoc]
      rfl
    · simp [hdot]
  · simp [hdirectory]

theorem exists_collapse (component : Pattern) (rest : List Pattern) :
    ∃ first others, collapse (component :: rest) = first :: others := by
  induction rest generalizing component with
  | nil => exact ⟨component, [], rfl⟩
  | cons second rest ih =>
      rw [collapse]
      split_ifs
      · exact ih second
      · exact ⟨component, second :: rest, rfl⟩

/-- A path fits a single component if its name does. -/
theorem mem_fitting_single_iff (hsingle : component.isRecursive = false) :
    found ∈ walk.run (bound + 1) (.fitting path (component :: rest)) ↔
      ∃ name, path.fileName? = some name ∧ component.matches name = true ∧
        found ∈ walk.arrivals bound rest path := by
  rw [run]
  dsimp only
  rw [if_neg (by simp [hsingle])]
  cases path.fileName? with
  | none => simp
  | some name =>
      cases hmatches : component.matches name <;> simp [hmatches, arrivals]

/-- A directory stands for one of any number of components, and is searched for others. What is
found may also be the first thing behind them. -/
theorem mem_fitting_recursive_iff (hrecursive : component.isRecursive = true)
    {first : Pattern} {others : List Pattern} (hcollapse : collapse (component :: rest) =
      first :: others) :
    found ∈ walk.run (bound + 1) (.fitting path (component :: rest)) ↔
      (walk.tree.isDirectory path = true ∧ ((others = [] ∧ found = path) ∨
        found ∈ walk.run bound (.below path (first :: others)))) ∨
      ∃ second behind name, others = second :: behind ∧ path.fileName? = some name ∧
        second.matches name = true ∧ found ∈ walk.arrivals bound behind path := by
  rw [run]
  dsimp only
  rw [if_pos hrecursive, hcollapse, List.tail_cons]
  cases others with
  | nil => cases walk.tree.isDirectory path <;> simp
  | cons second behind =>
      cases path.fileName? with
      | none => cases walk.tree.isDirectory path <;> simp
      | some name =>
          cases hmatches : second.matches name <;> cases walk.tree.isDirectory path <;>
            simp [hmatches, arrivals, and_assoc, or_comm]

/-- What a search finds for a path that is to fit is the path, or is found below it. -/
theorem mem_fitting {components : List Pattern}
    (h : found ∈ walk.run (bound + 1) (.fitting path components)) :
    found = path ∨ ∃ others, found ∈ walk.run bound (.below path others) := by
  have harrives {rest : List Pattern} (h : found ∈ walk.arrivals bound rest path) :
      found = path ∨ ∃ others, found ∈ walk.run bound (.below path others) :=
    (mem_arrivals h).imp And.right fun hmore => ⟨rest, hmore.2⟩
  cases components with
  | nil => cases h
  | cons component rest =>
      cases hrecursive : component.isRecursive with
      | false =>
          obtain ⟨_, -, -, h⟩ := (mem_fitting_single_iff hrecursive).mp h
          exact harrives h
      | true =>
          obtain ⟨first, others, hcollapse⟩ := exists_collapse component rest
          rcases (mem_fitting_recursive_iff hrecursive hcollapse).mp h with
            ⟨-, ⟨-, hfound⟩ | h⟩ | ⟨_, _, _, -, -, -, h⟩
          · exact .inl hfound
          · exact .inr ⟨_, h⟩
          · exact harrives h

/-- A walk that looks for directories finds nothing else. -/
theorem run_directories (honly : walk.directoriesOnly = true) (search : Search)
    (h : found ∈ walk.run bound search) : walk.tree.isDirectory found = true := by
  induction bound generalizing search with
  | zero => cases search <;> cases h
  | succ bound ih =>
      -- a search gives a path where its components end, and then only if it is a directory
      have harrives {rest : List Pattern} {next : Path}
          (h : found ∈ walk.arrivals bound rest next) : walk.tree.isDirectory found = true := by
        by_cases hrest : rest = []
        · subst hrest
          obtain rfl := eq_of_mem_result h
          simpa [arrivals, result, honly] using h
        · rw [arrivals_cons hrest] at h
          exact ih _ h
      rcases search with ⟨path, _ | ⟨component, rest⟩⟩ | ⟨path, _ | ⟨component, rest⟩⟩
      · cases h
      · cases hliteral : component.literal? with
        | some name => exact harrives ((mem_below_literal_iff hliteral).mp h).2
        | none =>
            obtain ⟨-, ⟨_, -, -, -, h⟩ | ⟨_, -, h⟩⟩ := (mem_below_pattern_iff hliteral).mp h
            · exact harrives h
            · exact ih _ h
      · cases h
      · cases hrecursive : component.isRecursive with
        | false =>
            obtain ⟨_, -, -, h⟩ := (mem_fitting_single_iff hrecursive).mp h
            exact harrives h
        | true =>
            obtain ⟨first, others, hcollapse⟩ := exists_collapse component rest
            rcases (mem_fitting_recursive_iff hrecursive hcollapse).mp h with
              ⟨hdirectory, ⟨-, rfl⟩ | h⟩ | ⟨_, _, _, -, -, -, h⟩
            · exact hdirectory
            · exact ih _ h
            · exact harrives h

end TemplateBundle.Glob.Walk

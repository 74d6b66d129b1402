import TemplateBundle.Proofs.FileTree.Replacement
import TemplateBundle.Proofs.Path.Joining

/-!
# Names in a tree

What stands in a tree has a name that a path can spell (`FileTree.WellNamed`). The empty tree is of
this kind, and work on files keeps it so (`Working.KeepsNames`).
-/

namespace TemplateBundle

open TemplateBundle.Path (IsName)

namespace FileTree

variable {tree after : FileTree} {path source target : Path} {location start next : Location}
  {name : List Char}

/-- What is listed in a tree has a name. -/
def WellNamed (tree : FileTree) : Prop :=
  ∀ listed ∈ tree.entries, ∀ name, listed.1.getLast? = some name → IsName name.toList

/-- Names, perhaps behind the empty one of the working directory. -/
def IsNamed (location : Location) : Prop :=
  ∃ names : List String, (location = names ∨ location = "" :: names) ∧
    ∀ name ∈ names, IsName name.toList

theorem enter_name (hname : IsName name) (location : Location) :
    enter location (String.ofList name) = location ++ [String.ofList name] := by
  obtain ⟨hempty, hcurrent, hparent⟩ := hname.text_ne
  rw [enter, if_neg (not_or.mpr ⟨hempty, hcurrent⟩), if_neg hparent]

/-- A step to a name leads to the name in a directory. -/
theorem step_name_iff (hname : IsName name) :
    tree.step start (String.ofList name) = .ok next ↔
      tree.get? start = some .directory ∧ start ++ [String.ofList name] = next := by
  rw [step_ok_iff, enter_name hname]

/-! ## Locations of paths -/

theorem IsNamed.enter {piece : String} (h : IsNamed location) (hpiece : '/' ∉ piece.toList) :
    IsNamed (enter location piece) := by
  obtain ⟨names, hlocation, hnames⟩ := h
  unfold FileTree.enter
  split_ifs with hsilent hparent
  · exact ⟨names, hlocation, hnames⟩
  · rcases hlocation with rfl | rfl
    · exact ⟨_, .inl rfl, fun name hname => hnames name (List.dropLast_subset _ hname)⟩
    · cases names with
      | nil => exact ⟨[], .inl rfl, nofun⟩
      | cons first names =>
          exact ⟨_, .inr rfl, fun name hname => hnames name (List.dropLast_subset _ hname)⟩
  · have hname : IsName piece.toList := by
      obtain ⟨hempty, hcurrent⟩ := not_or.mp hsilent
      refine ⟨fun h => hempty (String.toList_eq_nil_iff.mp h), hpiece, ?_, ?_⟩
      · exact fun h => hcurrent (String.toList_inj.mp h)
      · exact fun h => hparent (String.toList_inj.mp h)
    refine ⟨names ++ [piece], ?_, ?_⟩
    · rcases hlocation with rfl | rfl
      · exact .inl rfl
      · exact .inr rfl
    · simpa [or_imp, forall_and, hname] using hnames

theorem IsNamed.follow {pieces : List (List Char)} (h : IsNamed start)
    (hpieces : ∀ piece ∈ pieces, '/' ∉ piece) :
    IsNamed ((pieces.map String.ofList).foldl FileTree.enter start) := by
  induction pieces generalizing start with
  | nil => exact h
  | cons piece pieces ih =>
      obtain ⟨hpiece, hothers⟩ := List.forall_mem_cons.mp hpieces
      exact ih (h.enter (by rwa [String.toList_ofList])) hothers

theorem named_of_goal (h : goal? path = some location) : IsNamed location := by
  unfold goal? at h
  split_ifs at h with hnowhere
  obtain rfl := Option.some.inj h
  have hrelative : path.isAbsolute = false := by simpa using (not_or.mp hnowhere).2
  have hworking : IsNamed working := ⟨[], .inr rfl, nofun⟩
  exact hworking.follow (Path.separator_of_segments hrelative)

/-! ## Changes -/

theorem empty_well_named : empty.WellNamed := nofun

theorem WellNamed.insert (h : tree.WellNamed) (hlocation : IsNamed location)
    (hplace : tree.get? location ≠ some .directory) (entry : FileEntry) :
    (tree.insert location entry).WellNamed := by
  intro listed hlisted name hname
  rcases List.mem_append.mp hlisted with hlisted | hlisted
  · exact h listed (List.mem_filter.mp hlisted).1 name hname
  · obtain rfl := List.mem_singleton.mp hlisted
    obtain ⟨names, rfl | rfl, hnames⟩ := hlocation
    · exact hnames name (List.mem_of_getLast? hname)
    · by_cases hnil : names = []
      · subst hnil
        exact absurd rfl hplace
      · rw [List.getLast?_cons_of_ne_nil hnil] at hname
        exact hnames name (List.mem_of_getLast? hname)

theorem WellNamed.erase (h : tree.WellNamed) (location : Location) :
    (tree.erase location).WellNamed :=
  fun listed hlisted => h listed (List.mem_filter.mp hlisted).1

theorem WellNamed.ensure_directory (h : tree.WellNamed)
    (hensure : tree.ensureDirectory path = .ok after) : after.WellNamed := by
  unfold ensureDirectory at hensure
  split at hensure
  · rename_i made hmake
    obtain rfl := Except.ok.inj hensure
    obtain ⟨location, hgoal, hnone, rfl⟩ := make_directory_inv hmake
    exact h.insert (named_of_goal hgoal) (by simp [hnone]) _
  · split_ifs at hensure
    obtain rfl := Except.ok.inj hensure
    exact h

theorem WellNamed.ensured (h : tree.WellNamed) (path : Path) :
    (makeDirectoriesUpTo.ensured tree path).2.WellNamed := by
  unfold makeDirectoriesUpTo.ensured
  split
  · rename_i made hensure
    exact h.ensure_directory hensure
  · exact h

/-- The induction is on the bound, as for the directories that are made. -/
theorem WellNamed.make_directories_up_to (h : tree.WellNamed) (bound : Nat) (path : Path) :
    (makeDirectoriesUpTo bound tree path).2.WellNamed := by
  induction bound generalizing path with
  | zero => exact h.ensured path
  | succ bound ih =>
      unfold makeDirectoriesUpTo
      split_ifs
      · exact h
      · split
        · rename_i made hensure
          exact h.ensure_directory hensure
        · rename_i parent _ _
          have habove := ih parent
          split
          · rename_i above hmade
            rw [hmade] at habove
            exact habove.ensured path
          · rename_i fault above hmade
            rw [hmade] at habove
            exact habove
        · exact h

theorem WellNamed.make_directories (h : tree.WellNamed) (path : Path) :
    (tree.makeDirectories path).2.WellNamed :=
  h.make_directories_up_to _ path

theorem WellNamed.write {content : ByteArray} (h : tree.WellNamed)
    (hwrite : tree.write path content = .ok after) : after.WellNamed := by
  obtain ⟨location, hresolve, hplace, rfl⟩ := write_inv hwrite
  exact h.insert (named_of_goal (resolve_goal hresolve)) hplace _

theorem WellNamed.rename (h : tree.WellNamed) (hrename : tree.rename source target = .ok after) :
    after.WellNamed := by
  obtain ⟨content, old, new, -, hold, hresolve, hplace, rfl⟩ := rename_inv hrename
  refine (h.erase old).insert (named_of_goal (resolve_goal hresolve)) ?_ _
  intro hdirectory
  by_cases hsame : new = old
  · rw [hsame, erase_get_same (by simp [hold])] at hdirectory
    cases hdirectory
  · rw [erase_get_other tree hsame] at hdirectory
    exact hplace hdirectory

theorem WellNamed.remove_file (h : tree.WellNamed) (hremove : tree.removeFile path = .ok after) :
    after.WellNamed := by
  unfold removeFile at hremove
  obtain ⟨entry, hfind, hremove⟩ := except_bind_ok_iff.mp hremove
  cases entry with
  | directory => exact absurd hremove except_throw_ne_ok
  | file content =>
      obtain ⟨location, -, hremove⟩ := except_bind_ok_iff.mp hremove
      obtain rfl := Except.ok.inj hremove
      exact h.erase location

end FileTree

/-! ## Work on files -/

namespace Working

variable {ε α β : Type}

/-- Whether or not the work fails, what is listed has a name if it had one before. -/
def KeepsNames (action : Working ε α) : Prop :=
  ∀ start, start.files.WellNamed → (action.run start).2.files.WellNamed

namespace KeepsNames

theorem bind {action : Working ε α} {next : α → Working ε β} (hfirst : KeepsNames action)
    (hnext : ∀ value, KeepsNames (next value)) : KeepsNames (action >>= next) := by
  intro start h
  have hmiddle := hfirst start h
  rw [run_bind]
  rcases hrun : action.run start with ⟨fault | value, middle⟩
  · rw [hrun] at hmiddle
    exact hmiddle
  · rw [hrun] at hmiddle
    exact hnext value middle hmiddle

/-- Work that leaves the files alone. -/
theorem of_same {action : Working ε α} (h : ∀ start, (action.run start).2.files = start.files) :
    KeepsNames action := by
  intro start hstart
  rwa [h start]

theorem make_directories (fault : FileFault → ε) (path : Path) :
    KeepsNames (Working.makeDirectories fault path) := by
  intro start h
  rw [run_make_directories]
  exact FileTree.WellNamed.make_directories h path

theorem replace (fault : Path → FileFault → ε) (path beside : Path) (content : ByteArray) :
    KeepsNames (Working.replace fault path beside content) := by
  intro start h
  rw [run_replace]
  split
  · exact h
  · rename_i written hwrite
    have hwritten := FileTree.WellNamed.write h hwrite
    split
    · rename_i renamed hrename
      exact hwritten.rename hrename
    · -- what was written beside the file is taken away again
      cases hremove : written.removeFile beside with
      | ok removed => exact hwritten.remove_file hremove
      | error found => exact hwritten

end KeepsNames

end Working

end TemplateBundle

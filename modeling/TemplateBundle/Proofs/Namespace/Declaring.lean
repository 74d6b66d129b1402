import Mathlib.Data.Finset.Basic
import TemplateBundle.Proofs.Namespace.Resolution

/-!
# Running declarations

The statements of a declaration are run on the objects below the root, and make those that are not
there yet. A run of the declarations of any namespaces, one behind the other, adds just the objects
on the way to each of them (`run_all_extends`). So it never asks for an object that is missing, and
the order of the namespaces does not matter (`declarations_coexist`).
-/

namespace TemplateBundle.Namespace

open Text.Quoted (value?)

/-! ## Trees of objects -/

/-- The root and the objects below it, given by the names that lead there. An object is held by the
one that lacks the last name. -/
@[ext]
structure ObjectTree where
  places : Finset (List String)
  root : [] ∈ places
  held : ∀ place ∈ places, place.dropLast ∈ places

namespace ObjectTree

variable {tree : ObjectTree} {place names : List String}

instance : Membership (List String) ObjectTree where
  mem tree place := place ∈ tree.places

instance (place : List String) (tree : ObjectTree) : Decidable (place ∈ tree) :=
  inferInstanceAs (Decidable (place ∈ tree.places))

/-- All objects and keys of the first tree are where they were. -/
def Kept (tree after : ObjectTree) : Prop :=
  ∀ place ∈ tree, place ∈ after

/-- Make sure that there is an object at a place. Looking there reaches through the object that
holds the place, which has to exist. -/
def declare (tree : ObjectTree) (place : List String) : Option ObjectTree :=
  if hholder : place.dropLast ∈ tree then
    some {
      places := insert place tree.places
      root := Finset.mem_insert_of_mem tree.root
      held := fun other hother => by
        rcases Finset.mem_insert.mp hother with rfl | hother
        · exact Finset.mem_insert_of_mem hholder
        · exact Finset.mem_insert_of_mem (tree.held other hother) }
  else none

/-- The tree with all objects on the way to a place. -/
def extend (tree : ObjectTree) (names : List String) : ObjectTree where
  places := tree.places ∪ names.inits.toFinset
  root := Finset.mem_union_left _ tree.root
  held := fun place hplace => by
    simp only [Finset.mem_union, List.mem_toFinset, List.mem_inits] at hplace ⊢
    exact hplace.imp (tree.held place) (List.dropLast_prefix place).trans

theorem mem_extend : place ∈ tree.extend names ↔ place ∈ tree ∨ place <+: names := by
  show place ∈ tree.places ∪ names.inits.toFinset ↔ _
  rw [Finset.mem_union, List.mem_toFinset, List.mem_inits]
  rfl

theorem eq_of_same_places {other : ObjectTree} (h : ∀ place, place ∈ tree ↔ place ∈ other) :
    tree = other :=
  ObjectTree.ext (Finset.ext h)

theorem extend_root (tree : ObjectTree) : tree.extend [] = tree := by
  refine eq_of_same_places fun place => mem_extend.trans (or_iff_left_of_imp fun hplace => ?_)
  exact List.prefix_nil.mp hplace ▸ tree.root

/-- With the way to a place in the tree, one more object leads one name further. -/
theorem declare_extend (tree : ObjectTree) (names : List String) (name : String) :
    (tree.extend names).declare (names ++ [name]) = some (tree.extend (names ++ [name])) := by
  have hholder : (names ++ [name]).dropLast ∈ tree.extend names := by
    rw [List.dropLast_concat]
    exact mem_extend.mpr (.inr List.prefix_rfl)
  unfold declare
  rw [dif_pos hholder, Option.some.injEq]
  refine eq_of_same_places fun place => ?_
  rw [mem_extend, List.prefix_concat_iff]
  show place ∈ insert (names ++ [name]) (tree.extend names).places ↔ _
  rw [Finset.mem_insert]
  exact (or_congr_right mem_extend).trans or_left_comm

/-- Making the objects on the way to a place one after the other, the shortest way first. The
induction is on the names, the last one first. -/
theorem declare_beginnings (tree : ObjectTree) (names : List String) :
    (beginnings names).foldlM declare tree = some (tree.extend names) := by
  induction names using List.reverseRecOn with
  | nil => rw [extend_root]; rfl
  | append_singleton names name ih =>
      have hbeginnings : beginnings (names ++ [name]) = beginnings names ++ [names ++ [name]] := by
        unfold beginnings
        have hne : names.inits ≠ [] := List.ne_nil_of_mem ((List.mem_inits [] names).mpr List.nil_prefix)
        rw [List.inits_append, List.tail_append_of_ne_nil hne]
        rfl
      rw [hbeginnings, List.foldlM_append, ih]
      show (tree.extend names).declare (names ++ [name]) >>= pure = _
      rw [declare_extend]
      rfl

end ObjectTree

/-! ## Reading statements -/

/-- The names in brackets at the front of a text, and the text behind them. The bound is on the
number of characters. -/
def bracketedFront? : Nat → List Char → Option (List String × List Char)
  | bound + 1, '[' :: text =>
      match value? text with
      | some (name, ']' :: rest) =>
          (bracketedFront? bound rest).map fun (names, behind) => (name :: names, behind)
      | _ => none
  | _, text => some ([], text)

/-- The names of the object at the front of a text, and the text behind it. -/
def objectFront? (text : List Char) : Option (List String × List Char) :=
  (Text.after? rootObject.toList text).bind fun rest => bracketedFront? rest.length rest

/-- The object that a statement assigns to itself, or else to a new object. -/
def guarded? (statement : List Char) : Option (List String) := do
  let (names, rest) ← objectFront? statement
  let rest ← Text.after? " = ".toList rest
  let (others, rest) ← objectFront? rest
  if names = others ∧ rest = " || \x7b\x7d;".toList then some names else none

/-- The statements of a script, each on a line of its own. -/
def statementsOf (script : String) : List (List Char) :=
  (script.toList.splitOn '\n').filter (· ≠ [])

/-- Run the statements of a script on a tree, up to one that is no such statement or reaches through
a missing object. -/
def runScript (tree : ObjectTree) (script : String) : Option ObjectTree :=
  (statementsOf script).foldlM (fun tree statement => (guarded? statement).bind tree.declare) tree

/-- Run the declarations of namespaces one behind the other. -/
def runAll (tree : ObjectTree) (namespaces : List String) : Option ObjectTree :=
  namespaces.foldlM (fun tree name =>
    (resolve name).toOption.bind fun resolved => runScript tree resolved.declaration) tree

/-- The induction is on the names; what follows them is no bracket. -/
theorem bracketed_front_written (names : List String) {rest : List Char}
    (hrest : rest.head? ≠ some '[') :
    ∃ text, (∀ object, (names.foldl fieldOf object).toList = object.toList ++ text) ∧
      ∀ bound, text.length ≤ bound → bracketedFront? bound (text ++ rest) = some (names, rest) := by
  induction names with
  | nil =>
      refine ⟨[], fun object => (List.append_nil _).symm, fun bound _ => ?_⟩
      rw [List.nil_append, bracketedFront?]
      rintro _ text - rfl
      exact hrest rfl
  | cons name names ih =>
      obtain ⟨text, hwritten, hread⟩ := ih
      refine ⟨'[' :: ((Text.quote name).toList ++ ']' :: text), fun object => ?_,
        fun bound hbound => ?_⟩
      · rw [List.foldl_cons, hwritten, fieldOf]
        simp only [String.toList_append, String.reduceToList, List.append_assoc, List.cons_append,
          List.nil_append]
      · rw [List.length_cons, List.length_append, List.length_cons] at hbound
        obtain ⟨fewer, rfl⟩ := Nat.exists_eq_add_of_lt (show 0 < bound by omega)
        rw [Nat.zero_add, List.cons_append, List.append_assoc, bracketedFront?,
          Text.Quoted.value_quote, List.cons_append]
        show (bracketedFront? fewer (text ++ rest)).map _ = _
        rw [hread fewer (by omega), Option.map_some]

theorem object_front_written (names : List String) {rest : List Char}
    (hrest : rest.head? ≠ some '[') :
    objectFront? ((objectAt names).toList ++ rest) = some (names, rest) := by
  obtain ⟨text, hwritten, hread⟩ := bracketed_front_written names hrest
  have hafter : Text.after? rootObject.toList ((objectAt names).toList ++ rest) =
      some (text ++ rest) := by
    rw [Text.after_eq_some_iff, objectAt, hwritten, List.append_assoc]
  unfold objectFront?
  rw [hafter, Option.bind_some]
  exact hread _ (by simp)

/-- A guard is read back as the object that it guards. -/
theorem guarded_guard (names : List String) :
    guarded? (guardStatement (objectAt names)).toList = some names := by
  have htext : (guardStatement (objectAt names)).toList = (objectAt names).toList ++
      (" = ".toList ++ ((objectAt names).toList ++ " || \x7b\x7d;".toList)) := by
    simp only [guardStatement, String.toList_append, List.append_assoc]
  have hafter (rest : List Char) : Text.after? " = ".toList (" = ".toList ++ rest) = some rest :=
    Text.after_eq_some_iff.mpr rfl
  rw [htext, guarded?, object_front_written names (by simp)]
  simp only [Option.bind_eq_bind, Option.bind_some, hafter]
  rw [object_front_written names (by decide)]
  exact if_pos ⟨rfl, rfl⟩

/-- The statements of lines that are put together are these lines. -/
theorem statements_of_lines {lines : List String}
    (hlines : ∀ line ∈ lines, '\n' ∉ line.toList ∧ line ≠ "") :
    statementsOf ("\n".intercalate lines) = lines.map String.toList := by
  unfold statementsOf
  cases lines with
  | nil => rfl
  | cons line lines =>
      have hsplit : ("\n".intercalate (line :: lines)).toList.splitOn '\n' =
          (line :: lines).map String.toList := by
        rw [String.toList_intercalate]
        exact List.splitOn_intercalate '\n' (by simpa using fun l hl => (hlines l hl).1) (by simp)
      rw [hsplit, List.filter_eq_self]
      simpa using fun l hl => (hlines l hl).2

/-- The declaration of an object makes all objects on the way to it. -/
theorem run_declaration (tree : ObjectTree) (names : List String) :
    runScript tree (objectFor names).declaration = some (tree.extend names) := by
  have hstatements : statementsOf (objectFor names).declaration =
      (beginnings names).map fun names => (guardStatement (objectAt names)).toList := by
    refine (statements_of_lines fun line hline => ?_).trans List.map_map
    obtain ⟨names, -, rfl⟩ := List.mem_map.mp hline
    refine ⟨break_not_in_guard names, fun hempty => ?_⟩
    have hguarded := guarded_guard names
    rw [hempty] at hguarded
    cases hguarded
  unfold runScript
  rw [hstatements, List.foldlM_map]
  simp only [guarded_guard, Option.bind_some]
  exact tree.declare_beginnings names

/-- The root alone. -/
def rootAlone : ObjectTree where
  places := {[]}
  root := Finset.mem_singleton_self []
  held := by simp

/-- A statement that reaches through a missing object stops the run. -/
example : (runScript rootAlone (guardStatement (objectAt ["A", "B"]))).isNone = true := by
  decide +kernel

/-! ## Declarations of several namespaces -/

/-- A namespace that resolves does so to the object for its parts. -/
theorem eq_object_for {name : String} {resolved : ResolvedNamespace}
    (h : resolve name = .ok resolved) : resolved = objectFor (partsOf name) := by
  rcases resolve_cases name with ⟨-, hresolve⟩ | ⟨-, -, hresolve⟩ | ⟨-, -, hresolve⟩
  all_goals
    rw [hresolve] at h
    cases h
  rfl

/-- The tree with the objects of all namespaces. -/
def extendAll (tree : ObjectTree) (namespaces : List String) : ObjectTree :=
  namespaces.foldl (fun tree name => tree.extend (partsOf name)) tree

theorem mem_extend_all {tree : ObjectTree} {namespaces : List String} {place : List String} :
    place ∈ extendAll tree namespaces ↔
      place ∈ tree ∨ ∃ name ∈ namespaces, place <+: partsOf name := by
  induction namespaces generalizing tree with
  | nil => simp [extendAll]
  | cons name namespaces ih =>
      show place ∈ extendAll (tree.extend (partsOf name)) namespaces ↔ _
      rw [ih, ObjectTree.mem_extend, or_assoc, List.exists_mem_cons_iff]

/-- A run of the declarations of namespaces adds the objects on the way to each of them. -/
theorem run_all_extends (tree : ObjectTree) {namespaces : List String}
    (hvalid : ∀ name ∈ namespaces, ∃ resolved, resolve name = .ok resolved) :
    runAll tree namespaces = some (extendAll tree namespaces) := by
  induction namespaces generalizing tree with
  | nil => rfl
  | cons name namespaces ih =>
      obtain ⟨⟨resolved, hresolve⟩, hothers⟩ := List.forall_mem_cons.mp hvalid
      have hrun : ((resolve name).toOption.bind fun resolved =>
          runScript tree resolved.declaration) = some (tree.extend (partsOf name)) := by
        rw [except_ok_iff_to_option.mp hresolve, Option.bind_some, eq_object_for hresolve]
        exact run_declaration tree (partsOf name)
      unfold runAll
      rw [List.foldlM_cons, hrun]
      exact ih (tree.extend (partsOf name)) hothers

/-- Declarations of namespaces that are built apart get along. On any objects below the root, a run
of their text never reaches through a missing object, keeps all objects and keys in place, adds
nothing but the objects on the way to the namespaces, and makes the expression of each of them lead
to an object. In another order the run ends with the same objects. -/
theorem declarations_coexist (tree : ObjectTree) {namespaces : List String}
    (hvalid : ∀ name ∈ namespaces, ∃ resolved, resolve name = .ok resolved) :
    ∃ final, runAll tree namespaces = some final ∧ tree.Kept final ∧
      (∀ place ∈ final, place ∈ tree ∨ ∃ name ∈ namespaces, place <+: partsOf name) ∧
      (∀ name ∈ namespaces, ∀ resolved, resolve name = .ok resolved →
        ∃ place ∈ final, namesOf? resolved.expression = some place) ∧
      ∀ order : List String, order.Perm namespaces → runAll tree order = some final := by
  refine ⟨extendAll tree namespaces, run_all_extends tree hvalid,
    fun place hplace => mem_extend_all.mpr (.inl hplace), fun place => mem_extend_all.mp, ?_, ?_⟩
  · intro name hname resolved hresolve
    refine ⟨partsOf name, mem_extend_all.mpr (.inr ⟨name, hname, List.prefix_rfl⟩), ?_⟩
    rw [expression_of_resolve hresolve]
    exact names_of_object_at (partsOf name)
  · intro order horder
    rw [run_all_extends tree fun name hname => hvalid name (horder.mem_iff.mp hname)]
    refine congrArg some (ObjectTree.eq_of_same_places fun place => ?_)
    simp only [mem_extend_all, horder.mem_iff]

/-- Namespaces that share a part, one of which starts at the root and is a part of the others. -/
theorem siblings_coexist : ∃ final,
    runAll (rootAlone.extend ["A", "old"]) ["A.B", "this.A", "A.C"] = some final ∧
      ["A", "old"] ∈ final ∧ ["A", "B"] ∈ final ∧ ["A", "C"] ∈ final ∧
      runAll (rootAlone.extend ["A", "old"]) ["A.C", "this.A", "A.B"] = some final := by
  have hresolved : ∀ name ∈ ["A.B", "this.A", "A.C"],
      (resolve name).toOption.isSome = true := by
    decide +kernel
  have hvalid : ∀ name ∈ ["A.B", "this.A", "A.C"], ∃ resolved, resolve name = .ok resolved := by
    intro name hname
    obtain ⟨resolved, hresolve⟩ := Option.isSome_iff_exists.mp (hresolved name hname)
    exact ⟨resolved, except_ok_iff_to_option.mpr hresolve⟩
  have hparts : partsOf "A.B" = ["A", "B"] ∧ partsOf "A.C" = ["A", "C"] := by
    decide +kernel
  obtain ⟨final, hrun, hkept, -, hdenote, horder⟩ :=
    declarations_coexist (rootAlone.extend ["A", "old"]) hvalid
  have hthere (name : String) (hname : name ∈ ["A.B", "this.A", "A.C"]) :
      partsOf name ∈ final := by
    obtain ⟨resolved, hresolve⟩ := hvalid name hname
    obtain ⟨place, hplace, hnames⟩ := hdenote name hname resolved hresolve
    rw [expression_of_resolve hresolve, names_of_object_at, Option.some.injEq] at hnames
    rwa [hnames]
  refine ⟨final, hrun, hkept _ (ObjectTree.mem_extend.mpr (.inr List.prefix_rfl)), ?_, ?_,
    horder _ (List.reverse_perm ["A.B", "this.A", "A.C"])⟩
  · rw [← hparts.1]
    exact hthere "A.B" (by simp)
  · rw [← hparts.2]
    exact hthere "A.C" (by simp)

end TemplateBundle.Namespace

import Mathlib.Data.List.Induction
import Mathlib.Data.Nat.Find
import Mathlib.Tactic.SplitIfs
import TemplateBundle.Project.Sources
import TemplateBundle.Proofs.Except
import TemplateBundle.Proofs.Path.Ordering

/-!
# What a source list stands for

The entries of a source list are followed one after the other, and paths come and go. Which paths
are left is said by the entries alone: those for which some entry stands and that none behind it
takes away. The order is that of the entries with which the paths came in for good
(`expand_listing`).
-/

namespace TemplateBundle.Sources

variable {tree : FileTree} {directory path other : Path} {entries : List String}
  {written : String} {listed paths : List Path} {place : Nat}

/-! ## Entries -/

/-- The pattern finds a file that is seen as the path from the directory. -/
def Finds (tree : FileTree) (directory : Path) (written : String) (path : Path) : Prop :=
  ∃ results, Glob.glob tree (directory.join ⟨written⟩).text = .ok results ∧
    ∃ found ∈ results, tree.isFile found = true ∧ path = found.relativeTo directory

/-- The entry stands for the path: it is the path, or a pattern that finds it. -/
def Contributes (tree : FileTree) (directory : Path) (written : String) (path : Path) : Prop :=
  written.toList.head? ≠ some '!' ∧
    if isPattern written then Finds tree directory written path else path = ⟨written⟩

/-- The entry takes the path away. -/
def Removes (written : String) (path : Path) : Prop :=
  ∃ negated pattern, written.toList = '!' :: negated ∧
    Glob.Pattern.ofText (String.ofList negated) = .ok pattern ∧ pattern.matches path.text = true

/-- The paths for which an entry stands, in order. -/
def contribution (tree : FileTree) (directory : Path) (written : String) : List Path :=
  if written.toList.head? = some '!' then []
  else if isPattern written then (filesFor tree directory written).toOption.getD []
  else [⟨written⟩]

theorem Removes.head (h : Removes written path) : written.toList.head? = some '!' := by
  obtain ⟨negated, -, hwritten, -⟩ := h
  rw [hwritten]
  rfl

theorem mem_files_for (h : filesFor tree directory written = .ok paths) :
    path ∈ paths ↔ Finds tree directory written path := by
  obtain ⟨results, hglob, hpaths⟩ := except_bind_ok_iff.mp h
  rw [except_map_error_ok_iff] at hglob
  obtain rfl := Except.ok.inj hpaths
  simp only [List.mem_mergeSort, List.mem_map, List.mem_filter, Finds, hglob, Except.ok.injEq,
    exists_eq_left', and_assoc, eq_comm (a := path)]

theorem mem_contribution :
    path ∈ contribution tree directory written ↔ Contributes tree directory written path := by
  unfold contribution Contributes
  by_cases hnegated : written.toList.head? = some '!'
  · simp [hnegated]
  · by_cases hpattern : isPattern written = true
    · simp only [hnegated, hpattern, if_true, if_false, ne_eq, not_false_eq_true, true_and]
      cases hfiles : filesFor tree directory written with
      | ok files => exact mem_files_for hfiles
      | error fault =>
          refine ⟨fun hmem => absurd hmem List.not_mem_nil, ?_⟩
          rintro ⟨results, hglob, -⟩
          rw [filesFor, hglob] at hfiles
          cases hfiles
    · simp [hnegated, hpattern]

theorem contribution_sorted (tree : FileTree) (directory : Path) (written : String) :
    (contribution tree directory written).Pairwise fun first second =>
      first.sortsBefore second = true := by
  unfold contribution
  split_ifs
  · exact .nil
  · cases hfiles : filesFor tree directory written with
    | ok files =>
        obtain ⟨results, -, hsorted⟩ := except_bind_ok_iff.mp hfiles
        obtain rfl := Except.ok.inj hsorted
        exact List.pairwise_mergeSort Path.sorts_before_trans Path.sorts_before_total _
    | error fault => exact .nil
  · exact List.pairwise_singleton _ _

/-- An entry takes paths away, or adds those for which it stands. -/
theorem add_entry_ok (h : addEntry tree directory listed written = .ok paths) :
    (written.toList.head? = some '!' ∧ ∃ removed : Path → Bool,
      paths = listed.filter (fun path => !removed path) ∧
      ∀ path, removed path = true ↔ Removes written path) ∨
    (written.toList.head? ≠ some '!' ∧
      paths = (contribution tree directory written).foldl add listed) := by
  unfold addEntry at h
  split at h
  · rename_i negated hwritten
    obtain ⟨pattern, hpattern, hpaths⟩ := except_bind_ok_iff.mp h
    rw [except_map_error_ok_iff] at hpattern
    obtain rfl := Except.ok.inj hpaths
    refine .inl ⟨by rw [hwritten]; rfl, fun path => pattern.matches path.text, rfl, fun path => ?_⟩
    constructor
    · exact fun hmatches => ⟨negated, pattern, hwritten, hpattern, hmatches⟩
    · rintro ⟨other, again, hother, hagain, hmatches⟩
      obtain ⟨-, rfl⟩ := List.cons.inj (hwritten.symm.trans hother)
      obtain rfl := Except.ok.inj (hpattern.symm.trans hagain)
      exact hmatches
  · rename_i htaken
    have hhead : written.toList.head? ≠ some '!' := by
      intro hhead
      obtain ⟨negated, hnegated⟩ := List.head?_eq_some_iff.mp hhead
      exact htaken negated hnegated
    refine .inr ⟨hhead, ?_⟩
    unfold contribution
    rw [if_neg hhead]
    split_ifs at h ⊢ with hpattern
    · obtain ⟨files, hfiles, hpaths⟩ := except_bind_ok_iff.mp h
      rw [hfiles]
      exact (Except.ok.inj hpaths).symm
    · exact (Except.ok.inj h).symm

/-- Paths that are added keep what is said of all of them. -/
theorem mem_of_mem_add (others : List Path)
    (h : path ∈ others.foldl add listed) : path ∈ listed ∨ path ∈ others := by
  induction others generalizing listed with
  | nil => exact .inl h
  | cons other others ih =>
      rcases ih h with hmem | hmem
      · unfold add at hmem
        split_ifs at hmem
        · exact .inl hmem
        · rcases List.mem_append.mp hmem with hmem | hmem
          · exact .inl hmem
          · exact .inr (List.mem_singleton.mp hmem ▸ List.mem_cons_self)
      · exact .inr (List.mem_cons_of_mem _ hmem)

/-- Each path that is added is listed, perhaps as another one with the same steps. -/
theorem exists_same_of_mem {files : List Path}
    (h : (∃ other ∈ listed, path.same other = true) ∨ path ∈ files) :
    ∃ other ∈ files.foldl add listed, path.same other = true := by
  induction files generalizing listed with
  | nil => exact h.resolve_right List.not_mem_nil
  | cons file files ih =>
      refine ih ?_
      rcases h with ⟨other, hother, hsame⟩ | hmem
      · left
        unfold add
        split_ifs
        · exact ⟨other, hother, hsame⟩
        · exact ⟨other, List.mem_append_left _ hother, hsame⟩
      · rcases List.mem_cons.mp hmem with rfl | hmem
        · left
          unfold add
          split_ifs with hlisted
          · exact List.any_eq_true.mp hlisted
          · exact ⟨path, by simp, by simp [Path.same]⟩
        · exact .inr hmem

/-- Paths that are added come behind those that are listed, in order and each of them once, unless
they are listed already. -/
theorem foldl_add_eq (files listed : List Path)
    (hsame : ∀ file ∈ files, ∀ path ∈ listed ++ files, file.same path = true → file = path)
    (hsorted : files.Pairwise fun first second => first.sortsBefore second = true) :
    ∃ added, files.foldl add listed = listed ++ added ∧
      (∀ path, path ∈ added ↔ path ∈ files ∧ path ∉ listed) ∧
      added.Pairwise fun first second => first.compare second = .lt := by
  induction files generalizing listed with
  | nil => exact ⟨[], by simp⟩
  | cons file files ih =>
      obtain ⟨hfirst, hsorted⟩ := List.pairwise_cons.mp hsorted
      by_cases hlisted : listed.any file.same = true
      · -- the file is listed
        obtain ⟨path, hpath, hfile⟩ := List.any_eq_true.mp hlisted
        obtain rfl := hsame file List.mem_cons_self path (List.mem_append_left _ hpath) hfile
        obtain ⟨added, hfold, hmem, horder⟩ := ih listed
          (fun other hother path hpath => hsame other (List.mem_cons_of_mem _ hother) path
            (by simp only [List.mem_append, List.mem_cons] at hpath ⊢; tauto)) hsorted
        refine ⟨added, ?_, fun other => ?_, horder⟩
        · rw [List.foldl_cons, add, if_pos hlisted, hfold]
        · rw [hmem, List.mem_cons]
          refine and_congr_left fun hother => (or_iff_right ?_).symm
          rintro rfl
          exact hother hpath
      · -- the file comes next
        obtain ⟨added, hfold, hmem, horder⟩ := ih (listed ++ [file])
          (fun other hother path hpath => hsame other (List.mem_cons_of_mem _ hother) path
            (by simpa using hpath)) hsorted
        have hnew (path : Path) (hpath : path ∈ listed) : file.same path = false := by
          simpa using fun h => hlisted (List.any_eq_true.mpr ⟨path, hpath, h⟩)
        refine ⟨file :: added, ?_, fun other => ?_, List.pairwise_cons.mpr ⟨?_, horder⟩⟩
        · rw [List.foldl_cons, add, if_neg hlisted, hfold, List.append_assoc, List.singleton_append]
        · rw [List.mem_cons, List.mem_cons, hmem, List.mem_append, List.mem_singleton, not_or]
          by_cases hother : other = file
          · have hfresh : file ∉ listed := fun hmem => by simpa [Path.same] using hnew file hmem
            simp [hother, hfresh]
          · simp [hother]
        · intro other hother
          obtain ⟨hmem, hfresh⟩ := (hmem other).mp hother
          refine Path.compare_lt (hfirst other hmem) (Bool.eq_false_iff.mpr fun hequal => hfresh ?_)
          obtain rfl := hsame file List.mem_cons_self other (by simp [hmem]) hequal
          simp

/-! ## Places -/

/-- The path comes in for good with the entry at the place: the entry stands for it, no entry behind
takes it away, and whenever an entry before stands for it, it is taken away in between. -/
structure EntersAt (tree : FileTree) (directory : Path) (entries : List String) (path : Path)
    (place : Nat) : Prop where
  contributes : ∃ written, entries[place]? = some written ∧ Contributes tree directory written path
  stays : ∀ later written, place < later → entries[later]? = some written → ¬ Removes written path
  first : ∀ earlier written, earlier < place → entries[earlier]? = some written →
    Contributes tree directory written path →
    ∃ between other, earlier < between ∧ between < place ∧ entries[between]? = some other ∧
      Removes other path

/-- A path comes in for good with one entry. -/
theorem EntersAt.unique {earlier later : Nat} (h : EntersAt tree directory entries path earlier)
    (hother : EntersAt tree directory entries path later) : earlier = later := by
  have hle {earlier later : Nat} (h : EntersAt tree directory entries path earlier)
      (hother : EntersAt tree directory entries path later) : later ≤ earlier := by
    by_contra hlt
    obtain ⟨written, hwritten, hcontributes⟩ := h.contributes
    obtain ⟨between, removing, hbetween, -, hremoving, hremoves⟩ :=
      hother.first earlier written (by omega) hwritten hcontributes
    exact h.stays between removing hbetween hremoving hremoves
  exact Nat.le_antisymm (hle hother h) (hle h hother)

/-- A path comes in for good if some entry stands for it and no entry behind takes it away. -/
theorem exists_enters_at_iff : (∃ place, EntersAt tree directory entries path place) ↔
    ∃ place : Nat, ∃ written, entries[place]? = some written ∧
      Contributes tree directory written path ∧
      ∀ later other, place < later → entries[later]? = some other → ¬ Removes other path := by
  constructor
  · rintro ⟨place, ⟨written, hwritten, hcontributes⟩, hstays, -⟩
    exact ⟨place, written, hwritten, hcontributes, hstays⟩
  · intro h
    classical
    -- the first entry of those that stand for the path and are followed by none that takes it away
    obtain ⟨written, hwritten, hcontributes, hstays⟩ := Nat.find_spec h
    refine ⟨Nat.find h, ⟨written, hwritten, hcontributes⟩, hstays, ?_⟩
    intro earlier other hearlier hother hagain
    have hlost := Nat.find_min h hearlier
    push Not at hlost
    obtain ⟨between, removing, hbetween, hremoving, hremoves⟩ :=
      hlost other hother hagain
    refine ⟨between, removing, hbetween, ?_, hremoving, hremoves⟩
    rcases Nat.lt_trichotomy between (Nat.find h) with hlt | heq | hgt
    · exact hlt
    · rw [heq, hwritten] at hremoving
      obtain rfl := Option.some.inj hremoving
      exact absurd hremoves.head hcontributes.1
    · exact absurd hremoves (hstays between removing hgt hremoving)

theorem get_concat_iff {last : String} :
    (entries ++ [last])[place]? = some written ↔
      entries[place]? = some written ∨ (place = entries.length ∧ last = written) := by
  rw [List.getElem?_append]
  split_ifs with hplace
  · exact (or_iff_left fun h => absurd h.1 (Nat.ne_of_lt hplace)).symm
  · rw [List.getElem?_singleton, List.getElem?_eq_none (by omega)]
    simp [show place - entries.length = 0 ↔ place = entries.length by omega]

theorem get_concat_of_lt {last : String} (hplace : place < entries.length) :
    (entries ++ [last])[place]? = entries[place]? := List.getElem?_append_left hplace

theorem EntersAt.place_lt (h : EntersAt tree directory entries path place) :
    place < entries.length := by
  obtain ⟨written, hwritten, -⟩ := h.contributes
  exact (List.getElem?_eq_some_iff.mp hwritten).1

/-- With one more entry, a path stays in where it was unless the entry takes it away. -/
theorem enters_at_before {last : String} (hplace : place < entries.length) :
    EntersAt tree directory (entries ++ [last]) path place ↔
      EntersAt tree directory entries path place ∧ ¬ Removes last path := by
  constructor
  · rintro ⟨⟨written, hwritten, hcontributes⟩, hstays, hfirst⟩
    rw [get_concat_of_lt hplace] at hwritten
    refine ⟨⟨⟨written, hwritten, hcontributes⟩, ?_, ?_⟩, ?_⟩
    · exact fun later other hlater hother =>
        hstays later other hlater (get_concat_iff.mpr (.inl hother))
    · intro earlier other hearlier hother hagain
      obtain ⟨between, removing, hfrom, hto, hremoving, hremoves⟩ :=
        hfirst earlier other hearlier (get_concat_iff.mpr (.inl hother)) hagain
      rw [get_concat_of_lt (by omega)] at hremoving
      exact ⟨between, removing, hfrom, hto, hremoving, hremoves⟩
    · exact hstays entries.length last hplace (get_concat_iff.mpr (.inr ⟨rfl, rfl⟩))
  · rintro ⟨⟨⟨written, hwritten, hcontributes⟩, hstays, hfirst⟩, hkept⟩
    refine ⟨⟨written, get_concat_iff.mpr (.inl hwritten), hcontributes⟩, ?_, ?_⟩
    · intro later other hlater hother
      rcases get_concat_iff.mp hother with hother | ⟨-, rfl⟩
      · exact hstays later other hlater hother
      · exact hkept
    · intro earlier other hearlier hother hagain
      rw [get_concat_of_lt (by omega)] at hother
      obtain ⟨between, removing, hfrom, hto, hremoving, hremoves⟩ :=
        hfirst earlier other hearlier hother hagain
      exact ⟨between, removing, hfrom, hto, get_concat_iff.mpr (.inl hremoving), hremoves⟩

/-- With one more entry, a path comes in if the entry stands for it and it is not in. -/
theorem enters_at_last {last : String} :
    EntersAt tree directory (entries ++ [last]) path entries.length ↔
      Contributes tree directory last path ∧
        ¬ ∃ earlier, EntersAt tree directory entries path earlier := by
  have hlast : (entries ++ [last])[entries.length]? = some last :=
    get_concat_iff.mpr (.inr ⟨rfl, rfl⟩)
  rw [exists_enters_at_iff]
  push Not
  constructor
  · rintro ⟨⟨written, hwritten, hcontributes⟩, -, hfirst⟩
    obtain rfl := Option.some.inj (hlast.symm.trans hwritten)
    refine ⟨hcontributes, fun earlier other hother hagain => ?_⟩
    obtain ⟨between, removing, hfrom, hto, hremoving, hremoves⟩ :=
      hfirst earlier other (List.getElem?_eq_some_iff.mp hother).1
        (get_concat_iff.mpr (.inl hother)) hagain
    rw [get_concat_of_lt hto] at hremoving
    exact ⟨between, removing, hfrom, hremoving, hremoves⟩
  · rintro ⟨hcontributes, hlost⟩
    refine ⟨⟨last, hlast, hcontributes⟩, ?_, ?_⟩
    · intro later other hlater hother
      have hbound := (List.getElem?_eq_some_iff.mp hother).1
      rw [List.length_append, List.length_singleton] at hbound
      omega
    · intro earlier other hearlier hother hagain
      rw [get_concat_of_lt hearlier] at hother
      obtain ⟨between, removing, hfrom, hremoving, hremoves⟩ := hlost earlier other hother hagain
      exact ⟨between, removing, hfrom, (List.getElem?_eq_some_iff.mp hremoving).1,
        get_concat_iff.mpr (.inl hremoving), hremoves⟩

theorem EntersAt.concat {last : String} (h : EntersAt tree directory entries path place)
    (hkept : ¬ Removes last path) : EntersAt tree directory (entries ++ [last]) path place :=
  (enters_at_before h.place_lt).mpr ⟨h, hkept⟩

/-- With one more entry, those paths are in that were and that it does not take away, and those for
which it stands. -/
theorem exists_enters_at_concat {last : String} :
    (∃ place, EntersAt tree directory (entries ++ [last]) path place) ↔
      ((∃ place, EntersAt tree directory entries path place) ∧ ¬ Removes last path) ∨
        (Contributes tree directory last path ∧
          ¬ ∃ place, EntersAt tree directory entries path place) := by
  constructor
  · rintro ⟨place, h⟩
    rcases Nat.lt_or_ge place entries.length with hlt | hge
    · obtain ⟨hbefore, hkept⟩ := (enters_at_before hlt).mp h
      exact .inl ⟨⟨place, hbefore⟩, hkept⟩
    · have hbound := h.place_lt
      rw [List.length_append, List.length_singleton] at hbound
      obtain rfl : place = entries.length := by omega
      exact .inr (enters_at_last.mp h)
  · rintro (⟨⟨place, h⟩, hkept⟩ | h)
    · exact ⟨place, h.concat hkept⟩
    · exact ⟨entries.length, enters_at_last.mpr h⟩

/-- The first path came in before the second one: with an earlier entry, or with the same entry and
as the first of the two. -/
def Earlier (tree : FileTree) (directory : Path) (entries : List String) (first second : Path) :
    Prop :=
  ∃ place later, EntersAt tree directory entries first place ∧
    EntersAt tree directory entries second later ∧
    (place < later ∨ (place = later ∧ first.compare second = .lt))

/-- The list holds the paths that came in for good, in the order in which they did. -/
structure Lists (tree : FileTree) (directory : Path) (entries : List String) (paths : List Path) :
    Prop where
  mem : ∀ path, path ∈ paths ↔ ∃ place, EntersAt tree directory entries path place
  order : paths.Pairwise (Earlier tree directory entries)

/-- Paths with the same steps for which the entries stand are written in the same way. -/
def SpelledAlike (tree : FileTree) (directory : Path) (entries : List String) : Prop :=
  ∀ written ∈ entries, ∀ again ∈ entries, ∀ path other,
    Contributes tree directory written path → Contributes tree directory again other →
    path.same other = true → path = other

theorem Earlier.concat {first second : Path} {last : String}
    (h : Earlier tree directory entries first second) (hfirst : ¬ Removes last first)
    (hsecond : ¬ Removes last second) :
    Earlier tree directory (entries ++ [last]) first second := by
  obtain ⟨place, later, hplace, hlater, horder⟩ := h
  exact ⟨place, later, hplace.concat hfirst, hlater.concat hsecond, horder⟩

theorem Earlier.not_symm {first second : Path} (h : Earlier tree directory entries first second) :
    ¬ Earlier tree directory entries second first := by
  rintro ⟨again, place, hagain, hplace, hback⟩
  obtain ⟨placeAgain, laterAgain, hfirst, hsecond, horder⟩ := h
  obtain rfl := hplace.unique hfirst
  obtain rfl := hagain.unique hsecond
  rcases horder with hlt | ⟨rfl, hlt⟩
  · rcases hback with hgt | ⟨rfl, -⟩ <;> omega
  · rcases hback with hgt | ⟨-, hgt⟩
    · omega
    · exact Path.compare_lt_asymm hlt hgt

/-- An entry that removes adds nothing, and keeps the order of the files that it leaves. -/
theorem Lists.concat_removal {removed : Path → Bool} (h : Lists tree directory entries listed)
    (hhead : written.toList.head? = some '!')
    (hremoved : ∀ path, removed path = true ↔ Removes written path) :
    Lists tree directory (entries ++ [written]) (listed.filter fun path => !removed path) := by
  have hkept {path : Path} (hpath : path ∈ listed.filter fun path => !removed path) :
      ¬ Removes written path := by
    rw [← hremoved]
    simpa using (List.mem_filter.mp hpath).2
  constructor
  · intro path
    have hnot : ¬ Contributes tree directory written path := fun hother => hother.1 hhead
    rw [exists_enters_at_concat, List.mem_filter, h.mem]
    simp [hnot, ← hremoved]
  · exact (h.order.filter _).imp_of_mem fun hfirst hsecond hearlier =>
      hearlier.concat (hkept hfirst) (hkept hsecond)

/-- The files that an entry contributes are spelled as those that are listed before. -/
theorem Lists.spelled_as_listed (h : Lists tree directory entries listed)
    (hspelled : SpelledAlike tree directory (entries ++ [written])) :
    ∀ file ∈ contribution tree directory written,
      ∀ path ∈ listed ++ contribution tree directory written,
      file.same path = true → file = path := by
  intro file hfile path hpath
  have hcontributes :
      ∃ again ∈ entries ++ [written], Contributes tree directory again path := by
    rcases List.mem_append.mp hpath with hpath | hpath
    · obtain ⟨place, hplace⟩ := (h.mem path).mp hpath
      obtain ⟨again, hagain, hcontributes⟩ := hplace.contributes
      exact ⟨again, List.mem_append_left _ (List.mem_of_getElem? hagain), hcontributes⟩
    · exact ⟨written, by simp, mem_contribution.mp hpath⟩
  obtain ⟨again, hagain, hcontributes⟩ := hcontributes
  exact hspelled written (by simp) again hagain file path (mem_contribution.mp hfile) hcontributes

/-- An entry that adds removes nothing, and its new files come behind the listed ones. -/
theorem Lists.concat_addition (h : Lists tree directory entries listed)
    (hspelled : SpelledAlike tree directory (entries ++ [written]))
    (hhead : written.toList.head? ≠ some '!') :
    Lists tree directory (entries ++ [written])
      ((contribution tree directory written).foldl add listed) := by
  have hkept (path : Path) : ¬ Removes written path := fun hremoves => hhead hremoves.head
  obtain ⟨added, hpaths, hmem, horder⟩ := foldl_add_eq _ listed (h.spelled_as_listed hspelled)
    (contribution_sorted tree directory written)
  have hlast {path : Path} (hpath : path ∈ added) :
      EntersAt tree directory (entries ++ [written]) path entries.length := by
    obtain ⟨hcontributes, hnew⟩ := (hmem path).mp hpath
    exact enters_at_last.mpr
      ⟨mem_contribution.mp hcontributes, fun hbefore => hnew ((h.mem path).mpr hbefore)⟩
  rw [hpaths]
  constructor
  · intro path
    rw [exists_enters_at_concat, List.mem_append, hmem, mem_contribution, h.mem]
    simp [hkept]
  · refine List.pairwise_append.mpr ⟨?_, ?_, ?_⟩
    · exact h.order.imp fun hearlier => hearlier.concat (hkept _) (hkept _)
    · exact horder.imp_of_mem fun hfirst hsecond hlt =>
        ⟨_, _, hlast hfirst, hlast hsecond, .inr ⟨rfl, hlt⟩⟩
    · intro first hfirst second hsecond
      obtain ⟨place, hplace⟩ := (h.mem first).mp hfirst
      exact ⟨place, _, hplace.concat (hkept _), hlast hsecond, .inl hplace.place_lt⟩

/-- What one entry does. -/
theorem Lists.concat (h : Lists tree directory entries listed)
    (hspelled : SpelledAlike tree directory (entries ++ [written]))
    (hentry : addEntry tree directory listed written = .ok paths) :
    Lists tree directory (entries ++ [written]) paths := by
  rcases add_entry_ok hentry with ⟨hhead, removed, rfl, hremoved⟩ | ⟨hhead, rfl⟩
  · exact h.concat_removal hhead hremoved
  · exact h.concat_addition hspelled hhead

/-- What a whole source list does. The induction is on the entries from the last one on. -/
theorem expand_lists (hspelled : SpelledAlike tree directory entries)
    (h : expand tree directory entries = .ok paths) : Lists tree directory entries paths := by
  induction entries using List.reverseRecOn generalizing paths with
  | nil =>
      obtain rfl := Except.ok.inj h
      refine ⟨fun path => ?_, .nil⟩
      simp only [List.not_mem_nil, false_iff]
      rintro ⟨place, hplace⟩
      exact absurd hplace.place_lt (Nat.not_lt_zero _)
  | append_singleton entries written ih =>
      rw [expand, List.foldlM_append] at h
      obtain ⟨listed, hlisted, hentry⟩ := except_bind_ok_iff.mp h
      rw [List.foldlM_cons] at hentry
      obtain ⟨last, hstep, hlast⟩ := except_bind_ok_iff.mp hentry
      obtain rfl := Except.ok.inj hlast
      refine (ih (fun first hfirst second hsecond => ?_) hlisted).concat hspelled hstep
      exact hspelled first (List.mem_append_left _ hfirst) second (List.mem_append_left _ hsecond)

/-- Of two members of a list, one comes first. -/
theorem pair_sublist_or {first second : Path} (hfirst : first ∈ paths) (hsecond : second ∈ paths)
    (hne : first ≠ second) : [first, second].Sublist paths ∨ [second, first].Sublist paths := by
  obtain ⟨front, back, rfl⟩ := List.append_of_mem hfirst
  rcases List.mem_append.mp hsecond with hmem | hmem
  · right
    exact (List.singleton_sublist.mpr hmem).append
      (List.singleton_sublist.mpr List.mem_cons_self)
  · left
    have hback := (List.mem_cons.mp hmem).resolve_left hne.symm
    exact ((List.singleton_sublist.mpr hback).cons_cons first).trans
      (List.sublist_append_right _ _)

/-- What a source list stands for, if paths with the same steps are written in the same way. No two
paths of the result have the same steps. A path is in the result if some entry stands for it and no
entry behind takes it away. Each path of the result came in for good with one entry. A path stands
before another one if it came in with an earlier entry, or both came in with the same entry and it
is the first of the two. -/
theorem expand_listing (hspelled : SpelledAlike tree directory entries)
    (h : expand tree directory entries = .ok paths) :
    paths.Pairwise (fun first second => first.same second = false) ∧
      (∀ path, path ∈ paths ↔ ∃ place : Nat, ∃ written, entries[place]? = some written ∧
        Contributes tree directory written path ∧
        ∀ later other, place < later → entries[later]? = some other → ¬ Removes other path) ∧
      (∀ path ∈ paths, ∃! place, EntersAt tree directory entries path place) ∧
      ∀ first second, [first, second].Sublist paths ↔
        Earlier tree directory entries first second := by
  have hlists := expand_lists hspelled h
  have horder {first second : Path} (hpair : [first, second].Sublist paths) :
      Earlier tree directory entries first second :=
    List.pairwise_iff_forall_sublist.mp hlists.order hpair
  refine ⟨?_, ?_, ?_, fun first second => ⟨horder, fun hearlier => ?_⟩⟩
  · refine hlists.order.imp fun {first second} hearlier => Bool.eq_false_iff.mpr fun hsame => ?_
    -- paths with the same steps would be written in the same way, but none stands before itself
    have hsecond := hearlier
    obtain ⟨place, later, hplace, hlater, -⟩ := hearlier
    obtain ⟨written, hwritten, hcontributes⟩ := hplace.contributes
    obtain ⟨again, hagain, hothers⟩ := hlater.contributes
    obtain rfl := hspelled written (List.mem_of_getElem? hwritten) again
      (List.mem_of_getElem? hagain) first second hcontributes hothers hsame
    exact hsecond.not_symm hsecond
  · exact fun path => (hlists.mem path).trans exists_enters_at_iff
  · intro path hpath
    obtain ⟨place, hplace⟩ := (hlists.mem path).mp hpath
    exact ⟨place, hplace, fun other hother => hother.unique hplace⟩
  · have hne : first ≠ second := by
      rintro rfl
      exact hearlier.not_symm hearlier
    have hback := hearlier.not_symm
    obtain ⟨place, later, hplace, hlater, -⟩ := hearlier
    refine (pair_sublist_or ((hlists.mem first).mpr ⟨place, hplace⟩)
      ((hlists.mem second).mpr ⟨later, hlater⟩) hne).resolve_right fun hpair => hback (horder hpair)

/-- Entries that list two files, take the first of them away and list it again. -/
def shuffledEntries : List String :=
  ["b.html", "*.html", "!b*", "b.html"]

/-- A tree with the other file. -/
def shuffledTree : FileTree :=
  ⟨[(["", "a.html"], .file "x".toUTF8)]⟩

/-- The file that was taken away comes in with the last entry, behind the other one. -/
theorem listing_shuffled :
    expand shuffledTree ⟨""⟩ shuffledEntries = .ok [⟨"a.html"⟩, ⟨"b.html"⟩] ∧
      Earlier shuffledTree ⟨""⟩ shuffledEntries ⟨"a.html"⟩ ⟨"b.html"⟩ := by
  have hspelled : SpelledAlike shuffledTree ⟨""⟩ shuffledEntries := by
    have hpaths : ∀ written ∈ shuffledEntries, ∀ again ∈ shuffledEntries,
        ∀ path ∈ contribution shuffledTree ⟨""⟩ written,
        ∀ other ∈ contribution shuffledTree ⟨""⟩ again, path.same other = true → path = other := by
      decide +kernel
    intro written hwritten again hagain path other hpath hother
    exact hpaths written hwritten again hagain path (mem_contribution.mpr hpath) other
      (mem_contribution.mpr hother)
  have hpaths : expand shuffledTree ⟨""⟩ shuffledEntries = .ok [⟨"a.html"⟩, ⟨"b.html"⟩] :=
    except_ok_iff_to_option.mpr (by decide +kernel)
  obtain ⟨-, -, -, horder⟩ := expand_listing hspelled hpaths
  exact ⟨hpaths, (horder ⟨"a.html"⟩ ⟨"b.html"⟩).mp (List.Sublist.refl _)⟩

end TemplateBundle.Sources

import TemplateBundle.Proofs.Glob.Moving
import TemplateBundle.Proofs.Project.Exclusion

/-!
# Projects that are moved

A source list stands for the same paths in two directories that hold the same, whatever the
directories are called (`expand_moved`), as long as their names have no special characters: a
directory is read as a part of each pattern (`special_directory_loses_files`). For the same reason
the position that a fault tells counts the characters of the directory.
-/

namespace TemplateBundle.Sources

open TemplateBundle.FileTree (Holds SameBelow)
open TemplateBundle.Glob (IsPlain SameAnswer StaysBelow)
open TemplateBundle.Path (IsName ofSegments)

variable {tree other : FileTree} {directory away : Path} {front : List (List Char)}
  {written : String} {entries : List String} {listed paths others : List Path}

/-- The project is in a directory of the tree, which is written as names without special
characters. -/
structure IsHome (tree : FileTree) (directory : Path) : Prop where
  relative : directory.isAbsolute = false
  written : directory.text ≠ ""
  ordinary : IsOrdinary directory
  directory : tree.isDirectory directory = true

/-- What is told in two directories: the same, or a fault of a pattern with a position that counts
the characters of the directory. -/
inductive SameUpToPosition (directory away : Path) {α : Type} :
    Except ProjectFault α → Except ProjectFault α → Prop
  | same {result : Except ProjectFault α} : SameUpToPosition directory away result result
  | position {written : String} {fault : Glob.PatternFault} :
      SameUpToPosition directory away
        (.error (faultFor written (fault.shift (directory.text.length + 1))))
        (.error (faultFor written (fault.shift (away.text.length + 1))))

theorem IsHome.names (h : IsHome tree directory) :
    ∀ piece ∈ directory.segments, IsName piece ∧ IsPlain piece :=
  h.ordinary.resolve_left h.written

theorem IsHome.holds (h : IsHome tree directory) :
    ofSegments false directory.segments = directory ∧ tree.Holds directory.segments := by
  have hdirectory := Path.of_segments_segments h.relative
  refine ⟨hdirectory, Path.segments_ne_nil h.relative, fun piece hpiece => (h.names piece hpiece).1,
    ?_⟩
  rw [hdirectory]
  exact h.directory

/-- A file below names is seen from there by its other pieces, however the names are spelled. -/
theorem relative_to_inside (h : tree.Holds front) {pieces : List (List Char)}
    (hpieces : Inward pieces) (hfile : tree.isFile (inside front pieces) = true) :
    (inside front pieces).relativeTo (ofSegments false front) =
      ofSegments false (pieces.dropWhile Path.isSilent) := by
  obtain ⟨hrelative, hsegments⟩ := h.segments hpieces
  exact Glob.relative_to_names h.names h.ne_nil hrelative hsegments
    (FileTree.is_file_iff_leads.mp hfile).2.1

/-- The same paths below both directories lead to the same files. -/
theorem files_of_twins {front away : List (List Char)} (hsame : SameBelow tree other front away)
    (hfront : tree.Holds front) (haway : other.Holds away)
    (h : List.Forall₂ (Glob.Walk.Twin front away) paths others) :
    ((paths.filter tree.isFile).map fun path => path.relativeTo (ofSegments false front)) =
      (others.filter other.isFile).map fun path => path.relativeTo (ofSegments false away) := by
  induction h with
  | nil => rfl
  | cons htwin _ ih =>
      obtain ⟨pieces, hpieces, rfl, rfl⟩ := htwin
      have hfile : tree.isFile (inside front pieces) = other.isFile (inside away pieces) := by
        rw [FileTree.isFile, FileTree.isFile, (hsame.inside hfront haway hpieces).1]
      rw [List.filter_cons, List.filter_cons, ← hfile]
      split_ifs with hthere
      · rw [List.map_cons, List.map_cons, ih, relative_to_inside hfront hpieces hthere,
          relative_to_inside haway hpieces (hfile ▸ hthere)]
      · exact ih

section

variable (htree : tree.WellNamed) (hdirectory : IsHome tree directory) (haway : IsHome other away)
  (hsame : SameBelow tree other directory.segments away.segments)

include htree hdirectory haway hsame

theorem files_moved (hwritten : StaysBelow ⟨written⟩) (hne : written ≠ "") :
    SameUpToPosition directory away (filesFor tree directory written)
      (filesFor other away written) := by
  obtain ⟨hfront, hholds⟩ := hdirectory.holds
  obtain ⟨hother, hagain⟩ := haway.holds
  have hglob := Glob.glob_same hsame htree hholds hagain
    (fun piece hpiece => (hdirectory.names piece hpiece).2)
    (fun piece hpiece => (haway.names piece hpiece).2) hwritten hne
  have hfiles {paths others : List Path}
      (htwins : List.Forall₂ (Glob.Walk.Twin directory.segments away.segments) paths others) :=
    files_of_twins hsame hholds hagain htwins
  rw [hfront, hother] at hglob hfiles
  unfold filesFor
  generalize Glob.glob tree (directory.join ⟨written⟩).text = here at hglob ⊢
  generalize Glob.glob other (away.join ⟨written⟩).text = there at hglob ⊢
  cases hglob with
  | found htwins =>
      rw [except_map_error_ok, except_map_error_ok, except_ok_bind, except_ok_bind, hfiles htwins]
      exact .same
  | component => exact .same
  | whole =>
      rw [hfront, hother]
      exact .position

/-- One entry does the same in both directories. -/
theorem entry_moved (hentry : isPattern written = true → written.toList.head? ≠ some '!' →
    StaysBelow ⟨written⟩) (listed : List Path) :
    SameUpToPosition directory away (addEntry tree directory listed written)
      (addEntry other away listed written) := by
  unfold addEntry
  split
  · exact .same
  · rename_i hnegated
    split_ifs with hpattern
    · have hhead : written.toList.head? ≠ some '!' := fun hhead =>
        hnegated _ (List.head?_eq_some_iff.mp hhead).choose_spec
      have hne : written ≠ "" := by
        rintro rfl
        exact absurd hpattern (by decide)
      have hfiles := files_moved htree hdirectory haway hsame (hentry hpattern hhead) hne
      generalize filesFor tree directory written = here at hfiles ⊢
      generalize filesFor other away written = there at hfiles ⊢
      cases hfiles with
      | same => exact .same
      | position => exact .position
    · exact .same

/-- A source list stands for the same paths in two directories that hold the same, or fails with the
same fault; only the position in a pattern is told from the start of the directory on. The entries
that are patterns do not lead out of the directory. -/
theorem expand_moved (hentries : ∀ written ∈ entries, isPattern written = true →
    written.toList.head? ≠ some '!' → StaysBelow ⟨written⟩) :
    SameUpToPosition directory away (expand tree directory entries)
      (expand other away entries) := by
  unfold expand
  generalize ([] : List Path) = listed
  induction entries generalizing listed with
  | nil => exact .same
  | cons written entries ih =>
      obtain ⟨hentry, hothers⟩ := List.forall_mem_cons.mp hentries
      have hfirst := entry_moved htree hdirectory haway hsame hentry listed
      rw [List.foldlM_cons, List.foldlM_cons]
      generalize addEntry tree directory listed written = here at hfirst ⊢
      generalize addEntry other away listed written = there at hfirst ⊢
      cases hfirst with
      | same =>
          cases here with
          | error fault => exact .same
          | ok next => exact ih hothers next
      | position => exact .position

/-- The paths are the same whatever the directories are called. -/
theorem expand_moved_ok_iff (hentries : ∀ written ∈ entries, isPattern written = true →
    written.toList.head? ≠ some '!' → StaysBelow ⟨written⟩) :
    expand tree directory entries = .ok paths ↔ expand other away entries = .ok paths := by
  have hmoved := expand_moved htree hdirectory haway hsame hentries
  generalize expand tree directory entries = here at hmoved ⊢
  generalize expand other away entries = there at hmoved ⊢
  cases hmoved with
  | same => exact Iff.rfl
  | position => exact iff_of_false nofun nofun

end

/-- A tree with one file, in a directory of this name. -/
def homeCalled (name : String) : FileTree :=
  ⟨[(["", name], .directory), (["", name, "x.html"], .file "x".toUTF8)]⟩

/-- A directory with special characters in its name is read as a pattern, so that its files are not
found. -/
theorem special_directory_loses_files :
    SameBelow (homeCalled "a") (homeCalled "[b]") ["a".toList] ["[b]".toList] ∧
      expand (homeCalled "a") ⟨"a"⟩ ["*.html"] = .ok [⟨"x.html"⟩] ∧
      expand (homeCalled "[b]") ⟨"[b]"⟩ ["*.html"] = .ok [] := by
  refine ⟨⟨fun inner => ?_, fun inner => ?_⟩, except_ok_iff_to_option.mpr (by decide +kernel),
    except_ok_iff_to_option.mpr (by decide +kernel)⟩
  · simp [homeCalled, FileTree.get?, FileTree.placeOf, FileTree.working, FileTree.top,
      List.lookup_cons]
  · simp [homeCalled, FileTree.children, FileTree.placeOf, FileTree.working, List.filterMap_cons]

end TemplateBundle.Sources

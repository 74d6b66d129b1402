import TemplateBundle.Proofs.Glob.Finding
import TemplateBundle.Proofs.Project.Listing

/-!
# Patterns that take paths away

A pattern adds the files that its components find one by one, and takes away the paths that it
stands for as a whole. It takes away what it adds, and also paths of which its components find
nothing (`exclude_after`): those that lead to no file, and those in which a character of the pattern
stands for a separator.
-/

namespace TemplateBundle.Sources

open TemplateBundle.Glob (IsPlain Pattern Selects StandsFor Written assemble)
open TemplateBundle.Path (IsName ofSegments)

variable {tree : FileTree} {directory path : Path} {written : String}
  {files contributed : List Path} {front : List (List Char)} {components : List Pattern}

/-- The directory is written as names without special characters, or not at all. -/
def IsOrdinary (directory : Path) : Prop :=
  directory.text = "" ∨ ∀ piece ∈ directory.segments, IsName piece ∧ IsPlain piece

/-- The pattern leads into the directory, with no empty component in between. The first component
does not stand for the directory itself, nor for the one above the working directory. -/
structure IsTidy (directory written : Path) : Prop where
  relative : written.isAbsolute = false
  pieces : ∀ piece ∈ written.segments.dropLast, piece ≠ []
  first : ∀ piece ∈ written.segments.head?, ∀ component,
    Pattern.ofText (String.ofList piece) = .ok component →
      ¬ Selects component ['.'] ∧ (directory.text = "" → ¬ Selects component ['.', '.'])

/-- The path leads by names to a file in the directory, and the components of the pattern stand for
these names one by one. -/
structure SelectsFile (tree : FileTree) (directory written path : Path) : Prop where
  file : tree.isFile (directory.join path) = true
  relative : path.isAbsolute = false
  names : ∀ name ∈ path.segments, IsName name
  stands : ∃ components, (written.segments.map String.ofList).mapM Pattern.ofText = .ok components ∧
    StandsFor components path.segments

/-! ## Patterns as they are written -/

theorem IsOrdinary.cases (h : IsOrdinary directory) : directory.isAbsolute = true ∨
    ∃ front, (∀ piece ∈ front, IsName piece ∧ IsPlain piece) ∧
      directory = ofSegments false front := by
  rcases h with hempty | hnames
  · exact .inr ⟨[], nofun, congrArg Path.mk hempty⟩
  · cases habsolute : directory.isAbsolute with
    | true => exact .inl rfl
    | false => exact .inr ⟨_, hnames, (Path.of_segments_segments habsolute).symm⟩

/-- A pattern whose files can be looked for is read by its components. -/
theorem pattern_of_files (hrelative : (⟨written⟩ : Path).isAbsolute = false)
    (h : filesFor tree directory written = .ok files) :
    ∃ components, ((⟨written⟩ : Path).segments.map String.ofList).mapM Pattern.ofText =
        .ok components ∧
      Pattern.ofText written = .ok (assemble components) := by
  obtain ⟨results, hglob, -⟩ := except_bind_ok_iff.mp h
  rw [except_map_error_ok_iff] at hglob
  obtain ⟨all, hall⟩ := Glob.components_of_glob hglob
  obtain ⟨before, hbefore⟩ := Path.segments_join_suffix directory hrelative
  rw [← hbefore, List.map_append, List.mapM_append] at hall
  obtain ⟨_, -, hall⟩ := except_bind_ok_iff.mp hall
  obtain ⟨components, hcomponents, -⟩ := except_bind_ok_iff.mp hall
  refine ⟨components, hcomponents, Glob.of_text_ok_iff.mpr ?_⟩
  have hreads := Glob.reads_assemble (Glob.forall_reads_of_map_m hcomponents)
    (Path.separator_of_segments hrelative)
  rwa [Path.join_segments_of_relative hrelative] at hreads

/-- The first component of a tidy pattern goes on from the directory. -/
theorem IsTidy.head (htidy : IsTidy directory path)
    (hcomponents : (path.segments.map String.ofList).mapM Pattern.ofText = .ok components) :
    ∀ component ∈ components.head?, ¬ Selects component ['.'] ∧
      (directory.text = "" → ¬ Selects component ['.', '.']) := by
  intro component hhead
  have hfirst := htidy.first
  cases hpieces : path.segments with
  | nil =>
      rw [hpieces] at hcomponents
      cases hcomponents
      cases hhead
  | cons piece others =>
      rw [hpieces, List.map_cons, List.mapM_cons] at hcomponents
      obtain ⟨first, hread, hcomponents⟩ := except_bind_ok_iff.mp hcomponents
      obtain ⟨rest, -, hcomponents⟩ := except_bind_ok_iff.mp hcomponents
      cases hcomponents
      obtain rfl := Option.some.inj hhead
      exact hfirst piece (by rw [hpieces]; rfl) first hread

/-- Behind the names of a directory, a tidy pattern that does not end with a separator can be
walked. -/
theorem IsTidy.pieces_written (htidy : IsTidy (ofSegments false front) path)
    (hfront : ∀ piece ∈ front, IsName piece) (hclosed : path.segments.getLast? ≠ some []) :
    Written (front ++ path.segments) where
  ne_nil := by
    intro piece hpiece hnil
    subst hnil
    rcases List.mem_append.mp hpiece with hmem | hmem
    · exact (hfront [] hmem).ne_nil rfl
    · obtain ⟨last, hlast⟩ :=
        Option.isSome_iff_exists.mp (List.getLast?_isSome.mpr (List.ne_nil_of_mem hmem))
      have hpieces := htidy.pieces
      obtain ⟨before, hbefore⟩ := List.getLast?_eq_some_iff.mp hlast
      rw [hbefore, List.dropLast_concat] at hpieces
      rw [hbefore, List.mem_append, List.mem_singleton] at hmem
      rcases hmem with hmem | rfl
      · exact hpieces [] hmem rfl
      · exact hclosed hlast
  separator := by
    intro piece hpiece
    rcases List.mem_append.mp hpiece with hmem | hmem
    · exact (hfront piece hmem).separator
    · exact Path.separator_of_segments htidy.relative piece hmem
  head := by
    cases front with
    | nil =>
        intro hhead
        -- a leading dot would be read as a pattern that stands for the directory itself
        have hread : Pattern.ofText (String.ofList ['.']) = .ok [.char '.'] := rfl
        exact (htidy.first ['.'] hhead _ hread).1 ⟨rfl, fun _ => rfl⟩
    | cons piece front =>
        intro hhead
        obtain rfl := Option.some.inj hhead
        exact (hfront _ List.mem_cons_self).ne_current rfl

/-! ## What a pattern adds -/

section

variable (hfront : ∀ piece ∈ front, IsName piece ∧ IsPlain piece)
  (htidy : IsTidy (ofSegments false front) ⟨written⟩)
  (hcomponents : ((⟨written⟩ : Path).segments.map String.ofList).mapM Pattern.ofText =
    .ok components)
  (h : filesFor tree (ofSegments false front) written = .ok files)

include hfront htidy hcomponents h

/-- The files of a pattern are those that its components stand for. -/
theorem stands_for_of_files (htree : tree.WellNamed) (hwritten : written ≠ "")
    (hpath : path ∈ files) : path.isAbsolute = false ∧ StandsFor components path.segments := by
  have hnames : ∀ piece ∈ front, IsName piece := fun piece hpiece => (hfront piece hpiece).1
  obtain ⟨results, hglob, found, hfound, hfile, rfl⟩ := (mem_files_for h).mp hpath
  by_cases hclosed : (⟨written⟩ : Path).segments.getLast? = some []
  · -- what ends with a separator is no file
    have hopen : ((ofSegments false front).join ⟨written⟩).text.toList.getLast? = some '/' :=
      (Path.last_join _ htidy.relative hwritten).trans
        (Path.ends_open_of_segments htidy.relative hwritten hclosed)
    rw [Glob.glob_open hopen hglob hfound] at hfile
    cases hfile
  · have hpieces := htidy.pieces_written hnames hclosed
    have hne := Path.segments_ne_nil htidy.relative
    have hstart : front = [] → Glob.Walk.StartsOut components := by
      rintro rfl component hhead name hselects
      obtain ⟨hcurrent, hparent⟩ := htidy.head hcomponents component hhead
      constructor
      · rintro rfl
        exact hcurrent hselects
      · rintro rfl
        exact hparent rfl hselects
    -- the pattern is one below the directory, so its files are found by names
    rw [Glob.join_of_segments hpieces htidy.relative] at hglob
    obtain ⟨names, rfl, hall, hstands⟩ :=
      Glob.glob_sound htree hfront hpieces hne hcomponents hstart hglob hfound hfile
    have hnamesNe := hstands.names_ne_nil (Glob.components_ne_nil hcomponents hne)
    have hhead : names.head? ≠ some ['.'] := by
      intro hhead
      rcases hstands.head_cases ['.'] hhead with hname | ⟨component, hfirst, hselects⟩
      · exact hname.ne_current rfl
      · exact (htidy.head hcomponents component hfirst).1 hselects
    rw [Glob.relative_to_of_file hnames hall hfile hnamesNe hhead]
    obtain ⟨hrelative, hsegments⟩ := (hall.of_behind hhead).segments hnamesNe
    rw [hsegments]
    exact ⟨hrelative, hstands⟩

/-- A file is among those of a pattern if the components of the pattern stand for its names. -/
theorem mem_files_of_selects (hpath : SelectsFile tree (ofSegments false front) ⟨written⟩ path) :
    path ∈ files := by
  obtain ⟨hfile, hrelative, hnames, again, hagain, hstands⟩ := hpath
  obtain rfl := Except.ok.inj (hcomponents.symm.trans hagain)
  by_cases hclosed : (⟨written⟩ : Path).segments.getLast? = some []
  · -- the empty component behind the last separator stands for no name
    obtain ⟨before, hbefore⟩ := List.getLast?_eq_some_iff.mp hclosed
    have hempty : [String.ofList []].mapM Pattern.ofText = .ok [[]] := rfl
    rw [hbefore, List.map_append, List.mapM_append, List.map_singleton, hempty] at hcomponents
    obtain ⟨others, -, hothers⟩ := except_bind_ok_iff.mp hcomponents
    obtain rfl := Except.ok.inj hothers
    exact absurd rfl (hnames [] (hstands.no_empty_end List.getLast?_concat)).ne_nil
  · have hfrontNames : ∀ piece ∈ front, IsName piece := fun piece hpiece => (hfront piece hpiece).1
    have hpieces := htidy.pieces_written hfrontNames hclosed
    have hwritten : Written (front ++ path.segments) := .of_names fun name hname =>
      (List.mem_append.mp hname).elim (hfrontNames name) (hnames name)
    obtain ⟨results, hglob, -⟩ := except_bind_ok_iff.mp h
    rw [except_map_error_ok_iff] at hglob
    have hspelled := hglob
    rw [Glob.join_of_segments hpieces htidy.relative] at hspelled
    rw [Glob.join_of_segments hwritten hrelative] at hfile
    obtain ⟨content, hcontent⟩ := FileTree.is_file_iff.mp hfile
    have hfind := FileTree.find_ok_iff.mpr (FileTree.read_ok_iff.mp hcontent)
    -- the search is complete, and what it finds is written as the path was
    have hfound := Glob.glob_complete hfront hpieces (Path.segments_ne_nil htidy.relative)
      hcomponents hspelled hnames hstands hfind
    have hne := Path.segments_ne_nil hrelative
    have hhead : path.segments.head? ≠ some ['.'] := fun hhead =>
      (hnames _ (List.mem_of_head? hhead)).ne_current rfl
    refine (mem_files_for h).mpr ⟨results, hglob, _, hfound, hfile, ?_⟩
    rw [Glob.relative_to_of_file hfrontNames hwritten hfile hne hhead, Glob.spelled_of_ne hne,
      Path.of_segments_segments hrelative]

end

/-- What a tidy pattern adds, it stands for as a whole. It adds each file that its components stand
for one by one. -/
theorem files_of_pattern (htree : tree.WellNamed) (hdirectory : IsOrdinary directory)
    (htidy : IsTidy directory ⟨written⟩) (hwritten : written ≠ "")
    (h : filesFor tree directory written = .ok files) :
    ∃ pattern, Pattern.ofText written = .ok pattern ∧
      (∀ path ∈ files, pattern.matches path.text = true) ∧
      ∀ path, SelectsFile tree directory ⟨written⟩ path → path ∈ files := by
  obtain ⟨components, hcomponents, hpattern⟩ := pattern_of_files htidy.relative h
  refine ⟨_, hpattern, ?_⟩
  rcases hdirectory.cases with habsolute | ⟨front, hfront, rfl⟩
  · -- below an absolute directory the pattern is absolute, too, and finds no relative path
    have hjoin {path : Path} (hrelative : path.isAbsolute = false) :
        (directory.join path).isAbsolute = true := by
      have hne : directory.text ≠ "" := fun hempty => by simp [Path.isAbsolute, hempty] at habsolute
      exact (Path.is_absolute_join hrelative hne).trans habsolute
    constructor
    · intro path hpath
      obtain ⟨results, hglob, found, hfound, -⟩ := (mem_files_for h).mp hpath
      have hrelative := (Glob.glob_ok hglob hfound).1
      rw [hjoin htidy.relative] at hrelative
      cases hrelative
    · intro path hpath
      have hrelative := (FileTree.is_file_iff_leads.mp hpath.file).1
      rw [hjoin hpath.relative] at hrelative
      cases hrelative
  · constructor
    · intro path hpath
      obtain ⟨hrelative, hstands⟩ :=
        stands_for_of_files hfront htidy hcomponents h htree hwritten hpath
      rw [Pattern.matches, ← Path.join_segments_of_relative hrelative]
      refine Glob.fits_of_stands_for hstands fun component hcomponent => ?_
      obtain ⟨piece, hpiece, hread⟩ :=
        Glob.exists_reads (Glob.forall_reads_of_map_m hcomponents) component hcomponent
      exact hread.is_component (Path.separator_of_segments htidy.relative piece hpiece)
    · exact fun path hpath => mem_files_of_selects hfront htidy hcomponents h hpath

/-! ## What a pattern takes away -/

/-- A pattern behind an exclamation mark takes away the paths that it stands for, and leaves the
others in order. -/
theorem expand_excluded {pattern : Pattern} (hpattern : Pattern.ofText written = .ok pattern)
    (tree : FileTree) (directory : Path) (entries : List String) :
    expand tree directory (entries ++ ["!" ++ written]) =
      (expand tree directory entries).map fun paths =>
        paths.filter fun path => !pattern.matches path.text := by
  have hentry (listed : List Path) : addEntry tree directory listed ("!" ++ written) =
      .ok (listed.filter fun path => !pattern.matches path.text) := by
    have hwritten : ("!" ++ written).toList = '!' :: written.toList := by simp
    unfold addEntry
    rw [hwritten]
    simp only [String.ofList_toList, hpattern]
    rfl
  rw [expand, expand, List.foldlM_append]
  cases entries.foldlM (addEntry tree directory) [] with
  | error fault => rfl
  | ok listed =>
      rw [except_ok_bind, List.foldlM_cons, hentry]
      rfl

/-- A single entry that takes nothing away stands for itself, or for the files that it finds. -/
theorem expand_single (hentry : written.toList.head? ≠ some '!')
    (h : expand tree directory [written] = .ok contributed) :
    (isPattern written = false ∧ contributed = [⟨written⟩]) ∨
      (isPattern written = true ∧ ∃ files, filesFor tree directory written = .ok files ∧
        contributed = files.foldl add []) := by
  rw [expand, List.foldlM_cons] at h
  obtain ⟨listed, hlisted, h⟩ := except_bind_ok_iff.mp h
  obtain rfl := Except.ok.inj h
  unfold addEntry at hlisted
  split at hlisted
  · rename_i hwritten
    rw [hwritten] at hentry
    exact absurd rfl hentry
  · split_ifs at hlisted with hpattern
    · obtain ⟨files, hfiles, hlisted⟩ := except_bind_ok_iff.mp hlisted
      exact .inr ⟨hpattern, files, hfiles, (Except.ok.inj hlisted).symm⟩
    · exact .inl ⟨by simpa using hpattern, (Except.ok.inj hlisted).symm⟩

/-- A tree with a file in a directory of the directory that is looked at. -/
def nestedTree : FileTree :=
  ⟨[(["", "sub"], .directory), (["", "sub", "a"], .directory),
    (["", "sub", "a", "b.html"], .file "x".toUTF8)]⟩

theorem nested_ordinary : IsOrdinary ⟨"sub"⟩ := by
  have hsegments : (⟨"sub"⟩ : Path).segments = [['s', 'u', 'b']] := by decide
  right
  rw [hsegments, List.forall_mem_singleton]
  exact ⟨⟨by decide, by decide, by decide, by decide⟩, by simp [IsPlain]⟩

end TemplateBundle.Sources

import TemplateBundle.Proofs.Glob.Searching
import TemplateBundle.Proofs.Glob.Spelling

/-!
# Files that a pattern finds

A file is found if the components of the pattern stand for the pieces of its path: a search finds no
other file (`run_explained`), and finds each one that it can reach (`run_complete`).
-/

namespace TemplateBundle

open TemplateBundle.Path (IsName)

namespace Glob

variable {component : Pattern} {components rest : List Pattern} {names pieces : List (List Char)}
  {name : List Char}

/-! ## Components of a pattern -/

/-- A component as it is read from a piece. -/
structure IsPart (component : Pattern) : Prop where
  recursive : IsComponent component
  literal : ∀ name, component.literal? = some name → name.toList ≠ [] ∧ '/' ∉ name.toList

/-- A text that is read as it is written is that text. -/
theorem Reads.eq_of_literal {previous : Option Char} {text : List Char}
    (h : Reads previous text (literalOf name)) : text = name := by
  induction name generalizing previous text with
  | nil =>
      cases h
      rfl
  | cons c name ih =>
      cases h with
      | bracket hset _ =>
          rcases bracket_eq_some_iff.mp hset with ⟨_, _, -, -, htoken⟩ | ⟨-, _, -, htoken⟩
          · cases htoken
          · cases htoken
      | char _ _ _ hrest => rw [ih hrest]

theorem Reads.is_component {piece : List Char} (h : Reads none piece component)
    (hseparator : '/' ∉ piece) : IsComponent component := by
  intro hrecursive
  rcases h.component_cases hseparator with ⟨-, -, hcomponent⟩ | hsingle
  · exact hcomponent
  · exact absurd (is_recursive_iff.mp hrecursive) hsingle

theorem Reads.is_part {piece : List Char} (h : Reads none piece component)
    (hseparator : '/' ∉ piece) (hne : piece ≠ []) : IsPart component where
  recursive := h.is_component hseparator
  literal := by
    intro name hliteral
    rw [eq_literal_of hliteral] at h
    rw [← h.eq_of_literal]
    exact ⟨hne, hseparator⟩

/-- Two components for any number of components stand for the same names as one. -/
theorem stands_for_again {second : Pattern} (hcomponent : component.isRecursive = true)
    (hsecond : second.isRecursive = true) :
    StandsFor (component :: second :: rest) names ↔ StandsFor (second :: rest) names := by
  constructor
  · intro h
    generalize hall : component :: second :: rest = all at h
    induction h with
    | nil => cases hall
    | cons hsingle _ _ _ =>
        cases hall
        rw [hcomponent] at hsingle
        cases hsingle
    | skip _ _ _ h _ =>
        cases hall
        exact h
    | enter _ hname _ ih => exact .enter hsecond hname (ih hall)
  · exact fun h => .skip hcomponent (List.cons_ne_nil _ _) (h.head_of_recursive hsecond) h

/-- Of several components for any number of components in front, the last one is left. -/
theorem collapse_spec (hrecursive : component.isRecursive = true) (rest : List Pattern) :
    ∃ first others, Walk.collapse (component :: rest) = first :: others ∧
      first.isRecursive = true ∧ (∀ second ∈ others.head?, second.isRecursive = false) ∧
      (∀ part ∈ first :: others, part ∈ component :: rest) ∧
      ∀ names, StandsFor (first :: others) names ↔ StandsFor (component :: rest) names := by
  induction rest generalizing component with
  | nil => exact ⟨component, [], rfl, hrecursive, by simp, fun _ h => h, fun _ => Iff.rfl⟩
  | cons second rest ih =>
      cases hsecond : second.isRecursive with
      | true =>
          obtain ⟨first, others, hcollapse, hfirst, hothers, hparts, hsame⟩ := ih hsecond
          refine ⟨first, others, ?_, hfirst, hothers,
            fun part hpart => List.mem_cons_of_mem _ (hparts part hpart),
            fun names => (hsame names).trans (stands_for_again hrecursive hsecond).symm⟩
          rw [Walk.collapse, hrecursive, hsecond]
          exact hcollapse
      | false =>
          refine ⟨component, second :: rest, ?_, hrecursive, by simpa using hsecond,
            fun _ h => h, fun _ => Iff.rfl⟩
          rw [Walk.collapse, hrecursive, hsecond]
          rfl

namespace Walk

variable {walk : Walk} {bound : Nat} {found : Path}

theorem mem_names_in_iff {path : Path} {name : String} :
    name ∈ walk.namesIn path ↔ ∃ listed, walk.tree.list path = .ok listed ∧ name ∈ listed := by
  unfold namesIn
  cases walk.tree.list path with
  | error fault => simp
  | ok names => simp

theorem name_of_mem_names_in (htree : walk.tree.WellNamed) {path : Path} {name : String}
    (h : name ∈ walk.namesIn path) : IsName name.toList := by
  obtain ⟨listed, hlist, hmem⟩ := mem_names_in_iff.mp h
  obtain ⟨entry, -, hlist⟩ := except_bind_ok_iff.mp hlist
  cases entry with
  | file content => cases hlist
  | directory =>
      obtain ⟨location, -, hchildren⟩ := except_bind_ok_iff.mp hlist
      cases hchildren
      obtain ⟨entry, hentry, hname⟩ := List.mem_filterMap.mp hmem
      split_ifs at hname
      exact htree entry hentry name hname

/-! ## What is found -/

/-- A search that leaves the working directory does not go through it or the one above. -/
def StartsOut (components : List Pattern) : Prop :=
  ∀ component ∈ components.head?, ∀ name, Selects component name → name ≠ ['.'] ∧ name ≠ ['.', '.']

/-- Behind the pieces, the path has names for which the components stand. -/
def IsFoundBehind (pieces : List (List Char)) (components : List Pattern) (found : Path) : Prop :=
  ∃ names, found = spelled (pieces ++ names) ∧ Written (pieces ++ names) ∧
    StandsFor components names

/-- What a search finds is explained by what its components stand for. -/
def Explains (found : Path) : Search → Prop
  | .below path components => ∀ pieces, path = spelled pieces → Written pieces →
      (pieces = [] → StartsOut components) → (∀ component ∈ components, IsPart component) →
      IsFoundBehind pieces components found
  | .fitting path components => ∀ pieces name, path = spelled (pieces ++ [name]) →
      Written (pieces ++ [name]) → IsName name → (∀ component ∈ components, IsPart component) →
      ∃ names, found = spelled (pieces ++ name :: names) ∧ Written (pieces ++ name :: names) ∧
        StandsFor components (name :: names)

/-- What is found where a single component leads. -/
theorem arrivals_explained
    (hbelow : ∀ search, found ∈ walk.run bound search → Explains found search)
    (hwritten : Written (pieces ++ [name])) (hsingle : component.isRecursive = false)
    (hselects : Selects component name) (hparts : ∀ component ∈ rest, IsPart component)
    (h : found ∈ walk.arrivals bound rest (spelled (pieces ++ [name]))) :
    ∃ names, found = spelled (pieces ++ name :: names) ∧ Written (pieces ++ name :: names) ∧
      StandsFor (component :: rest) (name :: names) := by
  by_cases hrest : rest = []
  · subst hrest
    obtain rfl := eq_of_mem_result h
    exact ⟨[], rfl, hwritten, .cons hsingle hselects .nil⟩
  · rw [arrivals_cons hrest] at h
    obtain ⟨names, hfound, hnames, hstands⟩ :=
      hbelow _ h (pieces ++ [name]) rfl hwritten (fun hnil => absurd hnil (by simp)) hparts
    rw [List.append_assoc, List.singleton_append] at hfound hnames
    exact ⟨names, hfound, hnames, .cons hsingle hselects hstands⟩

/-- A name that is written explains what is found behind it. -/
theorem literal_explained
    (hsearch : ∀ search, found ∈ walk.run bound search → Explains found search)
    {path : Path} {text : String} (hliteral : component.literal? = some text)
    (h : found ∈ walk.run (bound + 1) (.below path (component :: rest))) :
    Explains found (.below path (component :: rest)) := by
  rintro pieces rfl hwritten hstart hparts
  obtain ⟨hpart, hothers⟩ := List.forall_mem_cons.mp hparts
  obtain ⟨name, rfl⟩ : ∃ name, text = String.ofList name := ⟨text.toList, by simp⟩
  obtain ⟨hne, hseparator⟩ := hpart.literal _ hliteral
  rw [String.toList_ofList] at hne hseparator
  have hselects : Selects component name := by
    rw [eq_literal_of hliteral, String.toList_ofList]
    refine ⟨fits_literal_iff.mpr rfl, ?_⟩
    rintro (rfl | rfl) <;> rfl
  have hnext := hwritten.concat hne hseparator fun hnil => (hstart hnil _ rfl _ hselects).1
  have harrives := ((mem_below_literal_iff hliteral).mp h).2
  rw [enter_spelled hnext] at harrives
  obtain ⟨names, hfound⟩ :=
    arrivals_explained hsearch hnext (literal_single hliteral) hselects hothers harrives
  exact ⟨name :: names, hfound⟩

/-- What is found behind the directory itself or the one above is explained by a component that
starts with a dot. -/
theorem special_explained
    (hsearch : ∀ search, found ∈ walk.run bound search → Explains found search)
    (hwritten : Written pieces) (hstart : pieces = [] → StartsOut (component :: rest))
    (hparts : ∀ part ∈ component :: rest, IsPart part)
    (hname : name = ['.'] ∨ name = ['.', '.']) (hdot : component.startsWithDot = true)
    (hfits : component.fits name = true)
    (h : found ∈ walk.arrivals bound rest ((spelled pieces).join ⟨String.ofList name⟩)) :
    IsFoundBehind pieces (component :: rest) found := by
  obtain ⟨hpart, hothers⟩ := List.forall_mem_cons.mp hparts
  have hselects : Selects component name := ⟨hfits, fun _ => hdot⟩
  have hpieces : pieces ≠ [] := by
    intro hnil
    obtain ⟨hcurrent, hparent⟩ := hstart hnil _ rfl _ hselects
    exact hname.elim hcurrent hparent
  have hsingle : component.isRecursive = false := by
    by_contra hrecursive
    rw [hpart.recursive (by simpa using hrecursive)] at hdot
    cases hdot
  have hnext : Written (pieces ++ [name]) := by
    rcases hname with rfl | rfl <;>
      exact hwritten.concat (by simp) (by simp) fun hnil => absurd hnil hpieces
  rw [join_name hnext hpieces] at h
  obtain ⟨names, hfound⟩ := arrivals_explained hsearch hnext hsingle hselects hothers h
  exact ⟨name :: names, hfound⟩

theorem below_explained
    (hsearch : ∀ search, found ∈ walk.run bound search → Explains found search)
    (htree : walk.tree.WellNamed) {path : Path}
    (h : found ∈ walk.run (bound + 1) (.below path (component :: rest))) :
    Explains found (.below path (component :: rest)) := by
  cases hliteral : component.literal? with
  | some text => exact literal_explained hsearch hliteral h
  | none =>
      rintro pieces rfl hwritten hstart hparts
      obtain ⟨-, ⟨text, htext, hdot, hmatches, harrives⟩ | ⟨text, htext, hfitting⟩⟩ :=
        (mem_below_pattern_iff hliteral).mp h
      · obtain ⟨name, rfl, hname⟩ :
            ∃ name, text = String.ofList name ∧ (name = ['.'] ∨ name = ['.', '.']) := by
          rcases (by simpa using htext : text = ".." ∨ text = ".") with rfl | rfl
          · exact ⟨['.', '.'], rfl, .inr rfl⟩
          · exact ⟨['.'], rfl, .inl rfl⟩
        rw [Pattern.matches, String.toList_ofList] at hmatches
        exact special_explained hsearch hwritten hstart hparts hname hdot hmatches harrives
      · obtain ⟨name, rfl⟩ : ∃ name, text = String.ofList name := ⟨text.toList, by simp⟩
        have hname := name_of_mem_names_in htree htext
        rw [String.toList_ofList] at hname
        have hnext := hwritten.concat hname.ne_nil hname.separator fun _ => hname.ne_current
        rw [enter_spelled hnext] at hfitting
        obtain ⟨names, hfound⟩ := hsearch _ hfitting pieces name rfl hnext hname hparts
        exact ⟨name :: names, hfound⟩

theorem fitting_explained
    (hsearch : ∀ search, found ∈ walk.run bound search → Explains found search)
    (hfile : walk.tree.isFile found = true) {path : Path}
    (h : found ∈ walk.run (bound + 1) (.fitting path (component :: rest))) :
    Explains found (.fitting path (component :: rest)) := by
  rintro pieces name rfl hwritten hname hparts
  have hselects {part : Pattern} {text : String}
      (htext : (spelled (pieces ++ [name])).fileName? = some text)
      (hmatches : part.matches text = true) : Selects part name := by
    rw [file_name_spelled hwritten hname, Option.some.injEq] at htext
    subst htext
    rw [Pattern.matches, String.toList_ofList] at hmatches
    exact ⟨hmatches, fun hspecial => (hspecial.elim hname.ne_current hname.ne_parent).elim⟩
  cases hrecursive : component.isRecursive with
  | false =>
      obtain ⟨text, htext, hmatches, harrives⟩ := (mem_fitting_single_iff hrecursive).mp h
      exact arrivals_explained hsearch hwritten hrecursive (hselects htext hmatches)
        (List.forall_mem_cons.mp hparts).2 harrives
  | true =>
      obtain ⟨first, others, hcollapse, hfirst, hsecond, hsubset, hsame⟩ :=
        collapse_spec hrecursive rest
      simp only [← hsame]
      -- the recursive component stands for all that is left, for one name more, or for none
      rcases (mem_fitting_recursive_iff hrecursive hcollapse).mp h with
        ⟨hdirectory, ⟨rfl, rfl⟩ | hbelow⟩ | ⟨second, behind, text, rfl, htext, hmatches, harrives⟩
      · rw [FileTree.not_directory_of_file hfile] at hdirectory
        cases hdirectory
      · obtain ⟨names, hfound, hnames, hstands⟩ := hsearch _ hbelow (pieces ++ [name]) rfl hwritten
          (fun hnil => absurd hnil (by simp)) fun part hpart => hparts part (hsubset part hpart)
        rw [List.append_assoc, List.singleton_append] at hfound hnames
        exact ⟨names, hfound, hnames, .enter hfirst hname hstands⟩
      · have hbehind : ∀ part ∈ behind, IsPart part := fun part hpart =>
          hparts part (hsubset part (List.mem_cons_of_mem _ (List.mem_cons_of_mem _ hpart)))
        obtain ⟨names, hfound, hnames, hstands⟩ := arrivals_explained hsearch hwritten
          (hsecond second rfl) (hselects htext hmatches) hbehind harrives
        exact ⟨names, hfound, hnames,
          .skip hfirst (List.cons_ne_nil _ _) (by simpa using hname) hstands⟩

/-- Each file that a search finds is explained by the components of the pattern. The induction is on
the bound. -/
theorem run_explained (htree : walk.tree.WellNamed) (hfile : walk.tree.isFile found = true)
    (search : Search) (h : found ∈ walk.run bound search) : Explains found search := by
  induction bound generalizing search with
  | zero => cases search <;> cases h
  | succ bound ih =>
      rcases search with ⟨path, _ | ⟨component, rest⟩⟩ | ⟨path, _ | ⟨component, rest⟩⟩
      · cases h
      · exact below_explained ih htree h
      · cases h
      · exact fitting_explained ih hfile h

/-! ## What can be found -/

theorem not_special (hname : IsName name) : isSpecial (String.ofList name) = false := by
  obtain ⟨-, hcurrent, hparent⟩ := hname.text_ne
  simp [isSpecial, hcurrent, hparent]

/-- Behind a name, a search goes on to find the file for the components that stand for its other
names. -/
def GoesOn (walk : Walk) (bound : Nat) (pieces names : List (List Char)) : Prop :=
  ∀ components : List Pattern, components ≠ [] → (∀ component ∈ components, IsPart component) →
    StandsFor components names →
    spelled (pieces ++ names) ∈ walk.run bound (.below (spelled pieces) components)

/-- A file is found where a component leads, at once or by going on. -/
theorem arrivals_complete (hanything : walk.directoriesOnly = false)
    (hstands : StandsFor rest names) (hparts : ∀ component ∈ rest, IsPart component)
    (hgoes : walk.GoesOn bound pieces names) :
    spelled (pieces ++ names) ∈ walk.arrivals bound rest (spelled pieces) := by
  by_cases hrest : rest = []
  · subst hrest
    obtain rfl := stands_for_nil_iff.mp hstands
    simp [arrivals, result, hanything]
  · rw [arrivals_cons hrest]
    exact hgoes rest hrest hparts hstands

/-- A file is found behind a path that is to fit. -/
theorem fitting_complete (hanything : walk.directoriesOnly = false)
    (hparts : ∀ part ∈ component :: rest, IsPart part) (hwritten : Written (pieces ++ [name]))
    (hname : IsName name) (hstands : StandsFor (component :: rest) (name :: names))
    (hdirectory : names ≠ [] → walk.tree.isDirectory (spelled (pieces ++ [name])) = true)
    (hgoes : walk.GoesOn bound (pieces ++ [name]) names) :
    spelled (pieces ++ [name] ++ names) ∈
      walk.run (bound + 1) (.fitting (spelled (pieces ++ [name])) (component :: rest)) := by
  have hfits {part : Pattern} (hselects : Selects part name) :
      part.matches (String.ofList name) = true := by
    rw [Pattern.matches, String.toList_ofList]
    exact hselects.fits
  have hfileName := file_name_spelled hwritten hname
  cases hrecursive : component.isRecursive with
  | false =>
      cases hstands with
      | cons _ hselects hstands =>
          exact (mem_fitting_single_iff hrecursive).mpr ⟨_, hfileName, hfits hselects,
            arrivals_complete hanything hstands (List.forall_mem_cons.mp hparts).2 hgoes⟩
      | skip hsame _ _ _ => simp [hrecursive] at hsame
      | enter hsame _ _ => simp [hrecursive] at hsame
  | true =>
      obtain ⟨first, others, hcollapse, hfirst, hsecond, hsubset, hsame⟩ :=
        collapse_spec hrecursive rest
      have hall : ∀ part ∈ first :: others, IsPart part :=
        fun part hpart => hparts part (hsubset part hpart)
      rw [mem_fitting_recursive_iff hrecursive hcollapse]
      cases (hsame _).mpr hstands with
      | cons hsingle _ _ => simp [hfirst] at hsingle
      | skip _ hne _ hstands =>
          -- the first component behind it stands for the name
          obtain ⟨second, behind, rfl⟩ := List.exists_cons_of_ne_nil hne
          have hsingle := hsecond second rfl
          cases hstands with
          | cons _ hselects hstands =>
              refine .inr ⟨second, behind, _, rfl, hfileName, hfits hselects, ?_⟩
              exact arrivals_complete hanything hstands (fun part hpart =>
                hall part (List.mem_cons_of_mem _ (List.mem_cons_of_mem _ hpart))) hgoes
          | skip hsame _ _ _ => simp [hsingle] at hsame
          | enter hsame _ _ => simp [hsingle] at hsame
      | enter _ _ hstands =>
          have hnames := hstands.names_ne_nil (List.cons_ne_nil _ _)
          exact .inl ⟨hdirectory hnames, .inr (hgoes _ (List.cons_ne_nil _ _) hall hstands)⟩

/-- Each file whose names the components stand for is found, with two steps for each name. The
induction is on the names. -/
theorem run_complete (hanything : walk.directoriesOnly = false)
    (hwritten : Written (pieces ++ names)) (hnames : ∀ name ∈ names, IsName name)
    {content : ByteArray} (hfind : walk.tree.find (spelled (pieces ++ names)) = .ok (.file content))
    (hbound : 2 * names.length ≤ bound) : walk.GoesOn bound pieces names := by
  induction names generalizing pieces bound with
  | nil => exact fun components hne _ hstands => absurd rfl (hstands.names_ne_nil hne)
  | cons name names ih =>
      intro components hne hparts hstands
      obtain ⟨component, rest, rfl⟩ := List.exists_cons_of_ne_nil hne
      obtain ⟨hname, hothers⟩ := List.forall_mem_cons.mp hnames
      rw [List.length_cons] at hbound
      -- a name costs two steps: one for the listing and one for the path that is to fit
      obtain ⟨bound, rfl⟩ : ∃ fewer, bound = fewer + 2 := ⟨bound - 2, by omega⟩
      obtain ⟨hdirectory, ⟨entry, hthere⟩, listed, hlist, hlisted⟩ :=
        found_on_way hwritten hname hfind
      have hsplit : pieces ++ name :: names = pieces ++ [name] ++ names := List.append_cons ..
      rw [hsplit] at hwritten hfind ⊢
      have hgoes (bound : Nat) (hbound : 2 * names.length ≤ bound) :
          walk.GoesOn bound (pieces ++ [name]) names := ih hwritten hothers hfind hbound
      -- a literal component enters the name without a look at the listing
      cases hliteral : component.literal? with
      | some text =>
          have hsingle := literal_single hliteral
          cases hstands with
          | cons _ hselects hstands =>
              have hfits := hselects.fits
              rw [eq_literal_of hliteral, fits_literal_iff] at hfits
              obtain rfl : text = String.ofList name := by simp [hfits]
              refine (mem_below_literal_iff hliteral).mpr ?_
              rw [enter_spelled hwritten.of_append, not_special hname, if_neg Bool.false_ne_true,
                FileTree.contains, hthere]
              exact ⟨rfl, arrivals_complete hanything hstands (List.forall_mem_cons.mp hparts).2
                (hgoes _ (by omega))⟩
          | skip hsame _ _ _ => simp [hsingle] at hsame
          | enter hsame _ _ => simp [hsingle] at hsame
      | none =>
          have hthere := FileTree.is_directory_iff.mpr hdirectory
          refine (mem_below_pattern_iff hliteral).mpr
            ⟨hthere, .inr ⟨String.ofList name, mem_names_in_iff.mpr ⟨_, hlist, hlisted⟩, ?_⟩⟩
          rw [enter_spelled hwritten.of_append]
          refine fitting_complete hanything hparts hwritten.of_append hname hstands
            (fun hmore => ?_) (hgoes _ (by omega))
          obtain ⟨next, others, rfl⟩ := List.exists_cons_of_ne_nil hmore
          have hnext := (List.forall_mem_cons.mp hothers).1
          exact FileTree.is_directory_iff.mpr (found_on_way hwritten hnext hfind).1

end Walk

/-! ## Whole patterns -/

variable {tree : FileTree} {front : List (List Char)} {found : Path} {pattern : Path}
  {results : List Path}

/-- The pieces of a pattern that can be walked are read one by one. -/
theorem components_of_glob (h : glob tree pattern.text = .ok results) :
    ∃ components, (pattern.segments.map String.ofList).mapM Pattern.ofText = .ok components := by
  obtain ⟨-, -, h⟩ := except_bind_ok_iff.mp h
  obtain ⟨components, hcomponents, -⟩ := except_bind_ok_iff.mp h
  have hpieces : ((if pattern.isAbsolute then String.ofList pattern.text.toList.tail
      else pattern.text).toList.splitOn '/') = pattern.segments := by
    unfold Path.segments
    split_ifs <;> simp
  unfold componentsOf at hcomponents
  rw [hpieces] at hcomponents
  dsimp only at hcomponents
  split_ifs at hcomponents with hlast
  · -- an empty last piece is read as nothing
    obtain ⟨front, hfront⟩ := List.getLast?_eq_some_iff.mp hlast
    have hempty : [""].mapM Pattern.ofText = .ok [[]] := rfl
    rw [hfront, List.dropLast_concat] at hcomponents
    rw [hfront, List.mapM_append, hcomponents, hempty]
    exact ⟨_, rfl⟩
  · exact ⟨components, hcomponents⟩

/-- A pattern that ends with a separator finds no files. -/
theorem glob_open (hopen : pattern.text.toList.getLast? = some '/')
    (h : glob tree pattern.text = .ok results) (hfound : found ∈ results) :
    tree.isFile found = false := by
  obtain ⟨-, -, h⟩ := except_bind_ok_iff.mp h
  obtain ⟨components, -, h⟩ := except_bind_ok_iff.mp h
  dsimp only at h
  split_ifs at h
  · cases h
    cases hfound
  · obtain rfl := Except.ok.inj h
    have hdirectory := Walk.run_directories (by simpa using hopen) _ hfound
    by_contra hfile
    rw [FileTree.not_directory_of_file (by simpa using hfile)] at hdirectory
    cases hdirectory

theorem selects_literal_iff {piece : List Char} (hpiece : IsName piece) :
    Selects (literalOf piece) name ↔ name = piece := by
  constructor
  · exact fun h => fits_literal_iff.mp h.fits
  · rintro rfl
    exact ⟨fits_literal_iff.mpr rfl,
      fun hspecial => (hspecial.elim hpiece.ne_current hpiece.ne_parent).elim⟩

/-- Names that are written out stand for themselves. -/
theorem stands_for_front_iff (hfront : ∀ piece ∈ front, IsName piece) :
    StandsFor (front.map literalOf ++ components) names ↔
      ∃ others, names = front ++ others ∧ StandsFor components others := by
  induction front generalizing names with
  | nil => simp
  | cons piece front ih =>
      obtain ⟨hpiece, hothers⟩ := List.forall_mem_cons.mp hfront
      have hsingle := literal_single (literal_of_literal piece)
      rw [List.map_cons, List.cons_append]
      constructor
      · intro h
        cases h with
        | cons _ hselects hrest =>
            obtain rfl := (selects_literal_iff hpiece).mp hselects
            obtain ⟨others, rfl, hstands⟩ := (ih hothers).mp hrest
            exact ⟨others, rfl, hstands⟩
        | skip hsame _ _ _ => simp [hsingle] at hsame
        | enter hsame _ _ => simp [hsingle] at hsame
      · rintro ⟨others, rfl, hstands⟩
        exact .cons hsingle ((selects_literal_iff hpiece).mpr rfl)
          ((ih hothers).mpr ⟨others, rfl, hstands⟩)

/-- Pieces that are put together end with no separator. -/
theorem Written.no_open_end (h : Written pieces) (hne : pieces ≠ []) :
    ((spelled pieces).text.toList.getLast? == some '/') = false := by
  obtain ⟨habsolute, hsegments⟩ := h.segments hne
  rw [Path.segments_of_relative habsolute] at hsegments
  rw [beq_eq_false_iff_ne]
  intro hlast
  obtain ⟨text, htext⟩ := List.getLast?_eq_some_iff.mp hlast
  rw [htext, List.splitOn_append_cons_self] at hsegments
  exact h.ne_nil [] (hsegments ▸ List.mem_append_right _ (List.mem_singleton_self _)) rfl

/-- A pattern is cut into its pieces. -/
theorem components_of_spelled (h : Written pieces) (hne : pieces ≠ []) :
    componentsOf (spelled pieces).text = pieces.map String.ofList := by
  obtain ⟨habsolute, hsegments⟩ := h.segments hne
  rw [Path.segments_of_relative habsolute] at hsegments
  have hlast : (pieces.map String.ofList).getLast? ≠ some "" := by
    rw [List.getLast?_map]
    intro hlast
    obtain ⟨piece, hpiece, hempty⟩ := Option.map_eq_some_iff.mp hlast
    exact h.ne_nil piece (List.mem_of_getLast? hpiece) (by simpa using hempty)
  unfold componentsOf
  rw [hsegments]
  exact if_neg hlast

/-- A pattern that begins with names is walked from the working directory, with these names as they
are written. -/
theorem glob_spelled (hfront : ∀ piece ∈ front, IsPlain piece)
    (hwritten : Written (front ++ pieces)) (hne : pieces ≠ [])
    (hcomponents : (pieces.map String.ofList).mapM Pattern.ofText = .ok components)
    (h : glob tree (spelled (front ++ pieces)).text = .ok results) :
    results = Walk.run ⟨tree, false⟩
      ((front.length + components.length + 1) * (tree.entries.length + 3))
      (.below Walk.here (front.map literalOf ++ components)) := by
  have hall : front ++ pieces ≠ [] := by simp [hne]
  have hrelative : (⟨(spelled (front ++ pieces)).text⟩ : Path).isAbsolute = false :=
    (hwritten.segments hall).1
  obtain ⟨-, -, h⟩ := except_bind_ok_iff.mp h
  dsimp only at h
  rw [hrelative, if_neg Bool.false_ne_true, components_of_spelled hwritten hall, List.map_append,
    List.mapM_append, map_m_of_text_plain front hfront, except_ok_bind, hcomponents,
    hwritten.no_open_end hall] at h
  obtain rfl := Except.ok.inj h
  rw [List.length_append, List.length_map]

/-- The first name behind names is none for the directory itself or the one above. -/
theorem starts_out_of_front (hfront : ∀ piece ∈ front, IsName piece)
    (hstart : front = [] → Walk.StartsOut components) :
    Walk.StartsOut (front.map literalOf ++ components) := by
  cases front with
  | nil => exact hstart rfl
  | cons piece front =>
      intro component hcomponent name hselects
      obtain rfl := Option.some.inj hcomponent
      have hpiece := (List.forall_mem_cons.mp hfront).1
      obtain rfl := (selects_literal_iff hpiece).mp hselects
      exact ⟨hpiece.ne_current, hpiece.ne_parent⟩

theorem is_part_of_name {piece : List Char} (hname : IsName piece) (hplain : IsPlain piece) :
    IsPart (literalOf piece) := by
  have hread := of_text_ok_iff.mp (of_text_plain hplain)
  rw [String.toList_ofList] at hread
  exact hread.is_part hname.separator hname.ne_nil

theorem parts_of_front (hfront : ∀ piece ∈ front, IsName piece ∧ IsPlain piece)
    (hwritten : Written (front ++ pieces))
    (hcomponents : (pieces.map String.ofList).mapM Pattern.ofText = .ok components) :
    ∀ component ∈ front.map literalOf ++ components, IsPart component := by
  intro component hcomponent
  rcases List.mem_append.mp hcomponent with hmem | hmem
  · obtain ⟨piece, hpiece, rfl⟩ := List.mem_map.mp hmem
    exact is_part_of_name (hfront piece hpiece).1 (hfront piece hpiece).2
  · obtain ⟨piece, hpiece, hread⟩ := exists_reads (forall_reads_of_map_m hcomponents) component hmem
    have hpieces := List.mem_append_right front hpiece
    exact hread.is_part (hwritten.separator piece hpieces) (hwritten.ne_nil piece hpieces)

/-- A file that a pattern finds behind names has a path that begins with these names, and the
components of the pattern stand for the others. -/
theorem glob_sound (htree : tree.WellNamed) (hfront : ∀ piece ∈ front, IsName piece ∧ IsPlain piece)
    (hwritten : Written (front ++ pieces)) (hne : pieces ≠ [])
    (hcomponents : (pieces.map String.ofList).mapM Pattern.ofText = .ok components)
    (hstart : front = [] → Walk.StartsOut components)
    (h : glob tree (spelled (front ++ pieces)).text = .ok results)
    (hfound : found ∈ results) (hfile : tree.isFile found = true) :
    Walk.IsFoundBehind front components found := by
  have hnames : ∀ piece ∈ front, IsName piece := fun piece hpiece => (hfront piece hpiece).1
  obtain rfl :=
    glob_spelled (fun piece hpiece => (hfront piece hpiece).2) hwritten hne hcomponents h
  have hnothing : Written [] := ⟨by simp, by simp, by simp⟩
  obtain ⟨names, rfl, hspelled, hstands⟩ := Walk.run_explained htree hfile _ hfound [] rfl hnothing
    (fun _ => starts_out_of_front hnames hstart) (parts_of_front hfront hwritten hcomponents)
  obtain ⟨others, rfl, hothers⟩ := (stands_for_front_iff hnames).mp hstands
  exact ⟨others, rfl, hspelled, hothers⟩

/-- A file behind names is found by a pattern if the components of the pattern stand for its other
names. -/
theorem glob_complete (hfront : ∀ piece ∈ front, IsName piece ∧ IsPlain piece)
    (hwritten : Written (front ++ pieces)) (hne : pieces ≠ [])
    (hcomponents : (pieces.map String.ofList).mapM Pattern.ofText = .ok components)
    (h : glob tree (spelled (front ++ pieces)).text = .ok results)
    (hnames : ∀ name ∈ names, IsName name) (hstands : StandsFor components names)
    {content : ByteArray} (hfind : tree.find (spelled (front ++ names)) = .ok (.file content)) :
    spelled (front ++ names) ∈ results := by
  have hfrontNames : ∀ piece ∈ front, IsName piece := fun piece hpiece => (hfront piece hpiece).1
  have hall : ∀ name ∈ front ++ names, IsName name := by
    intro name hname
    exact (List.mem_append.mp hname).elim (hfrontNames name) (hnames name)
  have hcomponentsNe := components_ne_nil hcomponents hne
  have hlength := length_le_entries hall hfind
  obtain rfl :=
    glob_spelled (fun piece hpiece => (hfront piece hpiece).2) hwritten hne hcomponents h
  have hbound : 2 * (front ++ names).length ≤
      (front.length + components.length + 1) * (tree.entries.length + 3) := by
    have hpositive := List.length_pos_iff.mpr hcomponentsNe
    have hbelow : (front ++ names).length ≤ tree.entries.length + 3 :=
      Nat.le_trans hlength (Nat.le_add_right _ _)
    exact Nat.mul_le_mul (by omega) hbelow
  have hgoes : Walk.GoesOn ⟨tree, false⟩ _ [] (front ++ names) :=
    Walk.run_complete rfl (.of_names hall) hall hfind hbound
  exact hgoes _ (by simp [hcomponentsNe]) (parts_of_front hfront hwritten hcomponents)
    ((stands_for_front_iff hfrontNames).mpr ⟨names, rfl, hstands⟩)

end Glob

end TemplateBundle

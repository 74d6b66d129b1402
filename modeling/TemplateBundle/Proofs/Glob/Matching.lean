import TemplateBundle.Proofs.Glob.Reading
import TemplateBundle.Proofs.Path.Joining

/-!
# Names that components stand for

A pattern is matched with a path as one text, in which its characters may stand for separators as
well. What its components stand for one by one (`StandsFor`), the whole pattern stands for
(`fits_of_stands_for`), but not the other way round.
-/

namespace TemplateBundle.Glob

open TemplateBundle.Path (IsName joinSegments)

variable {pattern others component : Pattern} {token : Token} {text rest suffix : List Char}
  {components : List Pattern} {name : List Char} {names : List (List Char)}

/-! ## Texts one behind the other -/

theorem mem_suffixes_iff : suffix ∈ suffixes text ↔ suffix <:+ text := by
  induction text with
  | nil => simp [suffixes]
  | cons c text ih => rw [suffixes, List.mem_cons, ih, List.suffix_cons_iff]

theorem mem_suffixes_behind_iff :
    suffix ∈ suffixesBehindSeparator text ↔ ∃ front, text = front ++ '/' :: suffix := by
  induction text with
  | nil => simp [suffixesBehindSeparator]
  | cons c text ih =>
      rw [suffixesBehindSeparator]
      constructor
      · intro h
        split_ifs at h with hc
        · rcases List.mem_cons.mp h with rfl | h
          · exact ⟨[], by rw [hc]; rfl⟩
          · obtain ⟨front, rfl⟩ := ih.mp h
            exact ⟨c :: front, rfl⟩
        · obtain ⟨front, rfl⟩ := ih.mp h
          exact ⟨c :: front, rfl⟩
      · rintro ⟨front, hfront⟩
        cases front with
        | nil =>
            obtain ⟨rfl, rfl⟩ := List.cons.inj hfront
            simp
        | cons first front =>
            obtain ⟨-, rfl⟩ := List.cons.inj hfront
            have hmem := ih.mpr ⟨front, rfl⟩
            split_ifs
            · exact List.mem_cons_of_mem _ hmem
            · exact hmem

/-- A part of a pattern that stands for one character. -/
theorem fits_cons_iff (htext : token ≠ .anyText) (hcomponents : token ≠ .anyComponents) :
    Pattern.fits (token :: pattern) text = true ↔
      ∃ c rest, text = c :: rest ∧ token.fits c = true ∧ Pattern.fits pattern rest = true := by
  cases token with
  | anyText => exact absurd rfl htext
  | anyComponents => exact absurd rfl hcomponents
  | _ => cases text <;> simp [Pattern.fits]

example : Pattern.fits [.anyChar, .char 'b'] ['a', 'b'] = true := by cbv

theorem fits_any_text_iff : Pattern.fits (.anyText :: pattern) text = true ↔
    ∃ suffix, suffix <:+ text ∧ Pattern.fits pattern suffix = true := by
  simp [Pattern.fits, mem_suffixes_iff]

theorem fits_any_components_iff : Pattern.fits (.anyComponents :: pattern) text = true ↔
    ∃ suffix, (suffix = text ∨ (∃ front, text = front ++ '/' :: suffix) ∨ suffix = []) ∧
      Pattern.fits pattern suffix = true := by
  simp [Pattern.fits, mem_suffixes_behind_iff]

/-- Patterns one behind the other stand for texts one behind the other. -/
theorem fits_append (h : Pattern.fits pattern text = true)
    (hsingle : Token.anyComponents ∉ pattern) (hothers : Pattern.fits others rest = true) :
    Pattern.fits (pattern ++ others) (text ++ rest) = true := by
  induction pattern generalizing text with
  | nil =>
      obtain rfl : text = [] := by simpa [Pattern.fits] using h
      exact hothers
  | cons token pattern ih =>
      have hrest := List.not_mem_of_not_mem_cons hsingle
      by_cases htext : token = .anyText
      · subst htext
        obtain ⟨suffix, ⟨front, rfl⟩, hfits⟩ := fits_any_text_iff.mp h
        exact fits_any_text_iff.mpr ⟨suffix ++ rest, ⟨front, by simp⟩, ih hfits hrest⟩
      · have hcomponents := (List.ne_of_not_mem_cons hsingle).symm
        obtain ⟨c, text, rfl, hc, hfits⟩ := (fits_cons_iff htext hcomponents).mp h
        exact (fits_cons_iff htext hcomponents).mpr ⟨c, text ++ rest, rfl, hc, ih hfits hrest⟩

/-! ## Patterns that are written out -/

theorem eq_literal_of {name : String} (h : pattern.literal? = some name) :
    pattern = literalOf name.toList := by
  obtain ⟨chars, hchars, rfl⟩ := Option.map_eq_some_iff.mp h
  clear h
  rw [String.toList_ofList]
  induction pattern generalizing chars with
  | nil =>
      cases hchars
      rfl
  | cons token pattern ih =>
      rw [List.mapM_cons] at hchars
      obtain ⟨c, hc, hchars⟩ := Option.bind_eq_some_iff.mp hchars
      obtain ⟨others, hothers, hchars⟩ := Option.bind_eq_some_iff.mp hchars
      cases hchars
      rw [ih others hothers]
      cases token <;> cases hc
      rfl

theorem fits_literal_iff {text name : List Char} :
    Pattern.fits (literalOf name) text = true ↔ text = name := by
  induction name generalizing text with
  | nil => simp [literalOf, Pattern.fits]
  | cons c name ih =>
      rw [literalOf, List.map_cons, ← literalOf, fits_cons_iff (by simp) (by simp)]
      constructor
      · rintro ⟨other, rest, rfl, hc, hrest⟩
        obtain rfl : c = other := by simpa [Token.fits] using hc
        rw [ih.mp hrest]
      · rintro rfl
        exact ⟨c, name, rfl, by simp [Token.fits], ih.mpr rfl⟩

/-- A component that is written out is a single one. -/
theorem literal_single {name : String} (h : pattern.literal? = some name) :
    pattern.isRecursive = false := by
  rw [eq_literal_of h, ← Bool.not_eq_true, is_recursive_iff]
  simp [literalOf]

/-! ## Components -/

/-- A component selects a name. It selects a directory itself or the one above only if it starts
with a dot. -/
structure Selects (component : Pattern) (name : List Char) : Prop where
  fits : Pattern.fits component name = true
  special : name = ['.'] ∨ name = ['.', '.'] → component.startsWithDot = true

/-- Components stand for the names on the way to a file. A component for any number of components
stands for names in front of what the components behind it stand for, and is followed by a name; at
the end, it stands for directories only. -/
inductive StandsFor : List Pattern → List (List Char) → Prop
  | nil : StandsFor [] []
  | cons {component : Pattern} {rest : List Pattern} {name : List Char} {names : List (List Char)} :
      component.isRecursive = false → Selects component name → StandsFor rest names →
      StandsFor (component :: rest) (name :: names)
  | skip {component : Pattern} {rest : List Pattern} {names : List (List Char)} :
      component.isRecursive = true → rest ≠ [] → (∀ name ∈ names.head?, IsName name) →
      StandsFor rest names → StandsFor (component :: rest) names
  | enter {component : Pattern} {rest : List Pattern} {name : List Char}
      {names : List (List Char)} : component.isRecursive = true → IsName name →
      StandsFor (component :: rest) names → StandsFor (component :: rest) (name :: names)

theorem StandsFor.names_ne_nil (h : StandsFor components names) (hne : components ≠ []) :
    names ≠ [] := by
  induction h with
  | nil => exact absurd rfl hne
  | cons _ _ _ _ => exact List.cons_ne_nil _ _
  | skip _ hrest _ _ ih => exact ih hrest
  | enter _ _ _ _ => exact List.cons_ne_nil _ _

/-- What follows a component for any number of components is a name. -/
theorem StandsFor.head_of_recursive {rest : List Pattern} (h : StandsFor (component :: rest) names)
    (hrecursive : component.isRecursive = true) : ∀ name ∈ names.head?, IsName name := by
  cases h with
  | cons hsingle _ _ => simp [hrecursive] at hsingle
  | skip _ _ hhead _ => exact hhead
  | enter _ hname _ => simpa using hname

/-- The first of the names is a name, or the first component selects it. -/
theorem StandsFor.head_cases (h : StandsFor components names) :
    ∀ name ∈ names.head?, IsName name ∨ ∃ component ∈ components.head?, Selects component name := by
  intro name hhead
  cases h with
  | nil => cases hhead
  | cons _ hselects _ =>
      obtain rfl := Option.some.inj hhead
      exact .inr ⟨_, rfl, hselects⟩
  | skip _ _ hname _ => exact .inl (hname name hhead)
  | enter _ hname _ =>
      obtain rfl := Option.some.inj hhead
      exact .inl hname

/-- An empty component at the end stands for no name. -/
theorem StandsFor.no_empty_end (h : StandsFor components names)
    (hlast : components.getLast? = some []) : [] ∈ names := by
  induction h with
  | nil => cases hlast
  | @cons component rest name names _ hselects hrest ih =>
      by_cases hnil : rest = []
      · subst hnil
        obtain rfl : component = [] := by simpa using hlast
        have hempty : name = [] := by simpa [Pattern.fits] using hselects.fits
        exact hempty ▸ List.mem_cons_self
      · rw [List.getLast?_cons_of_ne_nil hnil] at hlast
        exact List.mem_cons_of_mem _ (ih hlast)
  | skip _ hne _ _ ih =>
      rw [List.getLast?_cons_of_ne_nil hne] at hlast
      exact ih hlast
  | enter _ _ _ ih => exact List.mem_cons_of_mem _ (ih hlast)

theorem stands_for_nil_iff : StandsFor [] names ↔ names = [] := by
  constructor
  · rintro ⟨⟩
    rfl
  · rintro rfl
    exact .nil

theorem join_segments_cons (hne : names ≠ []) :
    joinSegments (name :: names) = name ++ '/' :: joinSegments names := by
  obtain ⟨second, others, rfl⟩ := List.exists_cons_of_ne_nil hne
  rw [joinSegments, List.intercalate_cons_cons, List.append_assoc, List.singleton_append]
  rfl

/-- What stands for any number of components stands for nothing else. -/
def IsComponent (component : Pattern) : Prop :=
  component.isRecursive = true → component = [.anyComponents]

/-- A component for any number of components and those behind it, as one pattern. -/
theorem assemble_recursive (hcomponent : IsComponent component)
    (hrecursive : component.isRecursive = true) (rest : List Pattern) :
    assemble (component :: rest) = .anyComponents :: assemble rest := by
  obtain rfl := hcomponent hrecursive
  cases rest with
  | nil => rfl
  | cons second rest => rfl

theorem assemble_single (hsingle : component.isRecursive = false) {rest : List Pattern}
    (hrest : rest ≠ []) :
    assemble (component :: rest) = component ++ .char '/' :: assemble rest := by
  obtain ⟨second, others, rfl⟩ := List.exists_cons_of_ne_nil hrest
  rw [assemble, hsingle]
  simp

/-- What the components of a pattern stand for one by one, the pattern stands for. The induction is
on the names and components that are left. -/
theorem fits_of_stands_for (h : StandsFor components names)
    (hcomponents : ∀ component ∈ components, IsComponent component) :
    Pattern.fits (assemble components) (joinSegments names) = true := by
  induction h with
  | nil => rfl
  | @cons component rest name names hsingle hselects hrest ih =>
      obtain ⟨-, hothers⟩ := List.forall_mem_cons.mp hcomponents
      have hnone : Token.anyComponents ∉ component := by
        rw [← is_recursive_iff, hsingle]
        exact Bool.false_ne_true
      by_cases hnil : rest = []
      · subst hnil
        obtain rfl := stands_for_nil_iff.mp hrest
        simpa [assemble, joinSegments] using hselects.fits
      · rw [assemble_single hsingle hnil, join_segments_cons (hrest.names_ne_nil hnil)]
        have hseparator : Pattern.fits (.char '/' :: assemble rest) ('/' :: joinSegments names) =
            true := by
          simpa [Pattern.fits, Token.fits] using ih hothers
        exact fits_append hselects.fits hnone hseparator
  | skip hrecursive _ _ _ ih =>
      obtain ⟨hcomponent, hothers⟩ := List.forall_mem_cons.mp hcomponents
      rw [assemble_recursive hcomponent hrecursive]
      exact fits_any_components_iff.mpr ⟨_, .inl rfl, ih hothers⟩
  | @enter component rest name names hrecursive _ _ ih =>
      have hcomponent := (List.forall_mem_cons.mp hcomponents).1
      have hfits := ih hcomponents
      rw [assemble_recursive hcomponent hrecursive] at hfits ⊢
      -- what stood for the other names stands for this one, too, and for the separator behind it
      obtain ⟨suffix, hsuffix, hfits⟩ := fits_any_components_iff.mp hfits
      refine fits_any_components_iff.mpr ⟨suffix, ?_, hfits⟩
      by_cases hnil : names = []
      · subst hnil
        rcases hsuffix with rfl | ⟨front, hfront⟩ | rfl
        · exact .inr (.inr rfl)
        · exact absurd hfront (by simp [joinSegments])
        · exact .inr (.inr rfl)
      · rw [join_segments_cons hnil]
        rcases hsuffix with rfl | ⟨front, hfront⟩ | rfl
        · exact .inr (.inl ⟨name, rfl⟩)
        · exact .inr (.inl ⟨name ++ '/' :: front, by rw [hfront]; simp⟩)
        · exact .inr (.inr rfl)

end TemplateBundle.Glob

import TemplateBundle.Proofs.Except
import TemplateBundle.Proofs.Regex.Embedding
import TemplateBundle.Proofs.Regex.Scans
import TemplateBundle.Template.Compile

/-!
# Delimiters joined and apart

All delimiters are looked for with one pattern. `pieces_separately` says that a template is cut at
the same tags if they are tried one after the other at each place, as long as every delimiter is
contained: in front of a closing parenthesis it ends there, and no group is left out of it.
`open_comment_leaks` and `dropped_group_shifts` show what other delimiters do to their neighbours.
-/

namespace TemplateBundle.Template

open Regex

/-! ## Delimiters tried apart -/

/-- A tag in a text. -/
structure Occurrence where
  tag : Tag
  span : Span
  /-- What the group of the delimiter takes, if it takes part in the match. -/
  code : Option Span
  deriving DecidableEq, Repr

/-- What the delimiter alone matches at a place. -/
def Delimiter.matchAt? (delimiter : Delimiter) (text : Array Char) (place : Nat) :
    Option Occurrence := do
  let pattern ← Pattern.ofText? delimiter.pattern
  let found ← pattern.matchAt? text place
  pure { tag := delimiter.tag, span := found.span, code := found.group? 1 }

/-- The first of the delimiters that matches at a place. -/
def firstAt? (delimiters : List Delimiter) (text : Array Char) (place : Nat) : Option Occurrence :=
  delimiters.findSome? fun delimiter => delimiter.matchAt? text place

theorem firstAt_span {delimiters : List Delimiter} {text : Array Char} {place : Nat}
    {found : Occurrence} (hplace : place ≤ text.size)
    (h : firstAt? delimiters text place = some found) :
    found.span.start = place ∧ place ≤ found.span.stop ∧ found.span.stop ≤ text.size := by
  obtain ⟨delimiter, -, h⟩ := List.exists_of_findSome?_eq_some h
  obtain ⟨pattern, -, h⟩ := Option.bind_eq_some_iff.mp h
  obtain ⟨mine, hmine, h⟩ := Option.bind_eq_some_iff.mp h
  cases h
  exact matchAt_span hplace hmine

/-- The delimiters tried one after the other at each place. -/
def separately (delimiters : List Delimiter) (text : Array Char) : Finder Occurrence where
  size := text.size
  at? := firstAt? delimiters text
  span := Occurrence.span
  within _ _ hplace h := firstAt_span hplace h

namespace Occurrence

/-- The piece of a tag. A tag without code is none. -/
def piece? (text : Array Char) (occurrence : Occurrence) : Option Piece :=
  match occurrence.code with
  | some span =>
      let code := slice text span.start span.stop
      if code.isEmpty then none else some (.code occurrence.tag code)
  | none => none

/-- The pieces from a place on, given the tags behind it. -/
def pieces (text : Array Char) (place : Nat) : List Occurrence → List Piece
  | [] => [.text (slice text place text.size)]
  | occurrence :: others =>
      .text (slice text place occurrence.span.start) ::
        ((occurrence.piece? text).toList ++ pieces text occurrence.span.stop others)

end Occurrence

/-! ## The joined pattern -/

/-- The match of the joined pattern whose groups are numbered from `group` on is that of one
delimiter. -/
structure Stands (text : Array Char) (tags : List Tag) (group : Nat) (occurrence : Occurrence)
    (joined : Match) : Prop where
  span : joined.span = occurrence.span
  tag : tagOf? text joined group tags =
    occurrence.code.map fun span => (occurrence.tag, slice text span.start span.stop)
  before : ∀ other, 1 ≤ other → other < group → joined.group? other = none

theorem tagOf_none {text : Array Char} {joined : Match} {group : Nat} {tags : List Tag}
    (h : ∀ other, group ≤ other → joined.group? other = none) :
    tagOf? text joined group tags = none := by
  induction tags generalizing group with
  | nil => rfl
  | cons tag tags ih =>
      unfold tagOf?
      rw [h group (Nat.le_refl _)]
      exact ih fun other hother => h other (Nat.le_of_succ_le hother)

theorem tagOf_skip {text : Array Char} {joined : Match} {group : Nat} {tag : Tag} {tags : List Tag}
    (h : joined.group? group = none) :
    tagOf? text joined group (tag :: tags) = tagOf? text joined (group + 1) tags := by
  rw [tagOf?, h]

/-- The match of the first delimiter. -/
theorem stands_first {text : Array Char} {joined own : Match} {group : Nat} {tag : Tag}
    {tags : List Tag} (hgroup : 1 ≤ group) (h : joined.IsOf group own) :
    Stands text (tag :: tags) group { tag := tag, span := own.span, code := own.group? 1 }
      joined where
  span := h.span
  tag := by
    unfold tagOf?
    rw [h.code]
    cases own.group? 1 with
    | some span => rfl
    | none =>
        exact tagOf_none fun other hother =>
          h.others other (Nat.le_trans (Nat.le_succ_of_le hgroup) hother) (Nat.ne_of_gt hother)
  before := fun other hother hlt => h.others other hother (Nat.ne_of_lt hlt)

/-- The match of another delimiter. -/
theorem Stands.later {text : Array Char} {tag : Tag} {tags : List Tag} {group : Nat}
    {occurrence : Occurrence} {joined : Match} (hgroup : 1 ≤ group)
    (h : Stands text tags (group + 1) occurrence joined) :
    Stands text (tag :: tags) group occurrence joined where
  span := h.span
  tag := by rw [tagOf_skip (h.before group hgroup (Nat.lt_succ_self _)), h.tag]
  before := fun other hother hlt => h.before other hother (Nat.lt_succ_of_lt hlt)

/-- The delimiter is read as the pattern `own`, and contained. -/
abbrev Delimiter.StandsFor (delimiter : Delimiter) (own : Pattern) : Prop :=
  Regex.StandsFor delimiter.pattern own

theorem matchAt_eq {delimiter : Delimiter} {own : Pattern} {text : Array Char} {place : Nat}
    (hown : delimiter.StandsFor own) :
    delimiter.matchAt? text place = (own.matchAt? text place).map fun found =>
      { tag := delimiter.tag, span := found.span, code := found.group? 1 } := by
  unfold Delimiter.matchAt?
  rw [hown.read, Option.bind_eq_bind, Option.bind_some]
  cases own.matchAt? text place <;> rfl

theorem firstAt_cons (first : Delimiter) (others : List Delimiter) (text : Array Char)
    (place : Nat) : firstAt? (first :: others) text place =
      (first.matchAt? text place <|> firstAt? others text place) := by
  show List.findSome? _ (first :: others) = _
  rw [List.findSome?_cons]
  cases first.matchAt? text place <;> rfl

/-- One delimiter, and its pattern as an alternative. -/
theorem rel_first {text : Array Char} {place size group : Nat} {first : Delimiter} {own : Pattern}
    (tags : List Tag) (hplace : place ≤ text.size) (hgroup : 1 ≤ group)
    (hfirst : first.StandsFor own)
    (hsize : ∀ number ∈ (own.node.renumber (onlyGroup group)).groupNumbers, number < size) :
    Option.Rel (Stands text (first.tag :: tags) group) (first.matchAt? text place)
      ((own.node.renumber (onlyGroup group)).run text place (Array.replicate size none)
        (finish place)) := by
  have hrel : Option.Rel (fun (mine joined : Match) => joined.IsOf group mine)
      (own.matchAt? text place) ((own.node.renumber (onlyGroup group)).run text place
        (Array.replicate size none) (finish place)) := by
    refine rel_alternative hplace hgroup fun hone => hsize group ?_
    rw [Node.groupNumbers_renumber]
    exact List.mem_map.mpr ⟨1, hone, rfl⟩
  rw [matchAt_eq hfirst]
  generalize (own.node.renumber (onlyGroup group)).run text place (Array.replicate size none)
    (finish place) = joined? at hrel ⊢
  cases hown : own.matchAt? text place with
  | none =>
      rw [hown] at hrel
      cases hrel
      exact .none
  | some mine =>
      rw [hown] at hrel
      cases hrel with
      | some hmine => exact .some (stands_first hgroup hmine)

/-- At each place the choice of the patterns finds what the first matching delimiter does. -/
theorem rel_oneOf {text : Array Char} {place size group : Nat} {first : Delimiter} {own : Pattern}
    {others : List Delimiter} {owns : List Pattern} (hplace : place ≤ text.size)
    (hgroup : 1 ≤ group) (hfirst : first.StandsFor own)
    (hothers : List.Forall₂ Delimiter.StandsFor others owns)
    (hsize : ∀ number ∈ (Node.oneOf group own.node (owns.map Pattern.node)).groupNumbers,
      number < size) :
    Option.Rel (Stands text ((first :: others).map Delimiter.tag) group)
      (firstAt? (first :: others) text place)
      ((Node.oneOf group own.node (owns.map Pattern.node)).run text place
        (Array.replicate size none) (finish place)) := by
  induction hothers generalizing group first own with
  | nil =>
      have honly : firstAt? [first] text place = first.matchAt? text place := by
        rw [firstAt_cons]
        cases first.matchAt? text place <;> rfl
      rw [honly]
      exact rel_first [] hplace hgroup hfirst hsize
  | @cons second own' others owns hsecond hothers ih =>
      have hlater := ih (Nat.le_succ_of_le hgroup) hsecond fun number hnumber =>
        hsize number (List.mem_append_right _ hnumber)
      rw [firstAt_cons]
      refine Step.rel_orElse (rel_first _ hplace hgroup hfirst fun number hnumber =>
        hsize number (List.mem_append_left _ hnumber)) ?_
      exact rel_mono hlater fun _ _ hstands => hstands.later hgroup

/-! ## Contained delimiters -/

variable {settings : TemplateSettings} {tags : TagPattern}

/-- What accepted settings say: each delimiter is a pattern, and the joined text is one. -/
theorem ofSettings_ok (h : TagPattern.ofSettings settings = .ok tags) :
    (∀ delimiter ∈ delimitersOf settings, ∃ own, Pattern.ofText? delimiter.pattern = some own) ∧
      tags.tags = (delimitersOf settings).map Delimiter.tag ∧
      Pattern.ofText? ("|".intercalate
        ((delimitersOf settings).map fun delimiter => "(?:" ++ delimiter.pattern ++ ")")) =
          some tags.pattern := by
  obtain ⟨_, hchecks, h⟩ := except_bind_ok_iff.mp h
  refine ⟨fun delimiter hdelimiter => ?_, ?_⟩
  · -- each delimiter is checked on its own before they are joined
    have hcheck : ∀ delimiters : List Delimiter, delimiters.forM Delimiter.check = .ok () →
        ∀ delimiter ∈ delimiters, delimiter.check = .ok () := by
      intro delimiters
      induction delimiters with
      | nil => exact fun _ _ hmem => nomatch hmem
      | cons first others ih =>
          intro hall delimiter hmem
          obtain ⟨_, hfirst, hothers⟩ := except_bind_ok_iff.mp hall
          rcases List.mem_cons.mp hmem with rfl | hmem
          · exact hfirst
          · exact ih hothers delimiter hmem
    have hthis := hcheck _ hchecks delimiter hdelimiter
    unfold Delimiter.check at hthis
    split at hthis
    · cases hthis
    · next own hown => exact ⟨own, hown⟩
  · dsimp only at h
    split at h
    · next pattern hpattern =>
        cases h
        exact ⟨rfl, hpattern⟩
    · cases h

theorem exists_patterns {delimiters : List Delimiter}
    (h : ∀ delimiter ∈ delimiters, ∃ own, delimiter.StandsFor own) :
    ∃ owns, List.Forall₂ Delimiter.StandsFor delimiters owns := by
  induction delimiters with
  | nil => exact ⟨[], .nil⟩
  | cons first others ih =>
      obtain ⟨own, hown⟩ := h first List.mem_cons_self
      obtain ⟨owns, howns⟩ := ih fun other hother => h other (List.mem_cons_of_mem first hother)
      exact ⟨own :: owns, .cons hown howns⟩

theorem toList_joined (first : Delimiter) (others : List Delimiter) :
    ("|".intercalate ((first :: others).map fun delimiter =>
      "(?:" ++ delimiter.pattern ++ ")")).toList =
        alternatives first.pattern (others.map Delimiter.pattern) := by
  have hgrouped : ∀ delimiter : Delimiter,
      ("(?:" ++ delimiter.pattern ++ ")").toList = grouped delimiter.pattern.toList := by
    intro delimiter
    rw [String.toList_append, String.toList_append]
    rfl
  rw [String.toList_intercalate, alternatives, List.map_map, ← List.map_cons, List.map_map]
  congr 1
  exact List.map_congr_left fun delimiter _ => hgrouped delimiter

/-- The joined pattern of contained delimiters finds what they find apart. -/
theorem rel_separately (hsettings : TagPattern.ofSettings settings = .ok tags)
    (hcontained : ∀ delimiter ∈ delimitersOf settings, isContained delimiter.pattern)
    (text : Array Char) {place : Nat} (hplace : place ≤ text.size) :
    Option.Rel (Stands text tags.tags 1) (firstAt? (delimitersOf settings) text place)
      (tags.pattern.matchAt? text place) := by
  obtain ⟨hpatterns, htags, hjoined⟩ := ofSettings_ok hsettings
  obtain ⟨first, others, hdelimiters⟩ : ∃ first others, delimitersOf settings = first :: others :=
    ⟨_, _, rfl⟩
  have hstand : ∀ delimiter ∈ delimitersOf settings, ∃ own, delimiter.StandsFor own := by
    intro delimiter hdelimiter
    obtain ⟨own, hown⟩ := hpatterns delimiter hdelimiter
    exact ⟨own, hown, hcontained delimiter hdelimiter⟩
  rw [hdelimiters] at htags hjoined hstand ⊢
  obtain ⟨owns, howns⟩ := exists_patterns hstand
  cases howns with
  | @cons _ own _ owns hown howns =>
      have hnode := ofText_alternatives hown (List.forall₂_map_left_iff.mpr howns)
        (toList_joined first others) hjoined
      rw [htags]
      unfold Pattern.matchAt?
      rw [hnode]
      exact rel_oneOf hplace (Nat.le_refl 1) hown howns fun number hnumber =>
        Nat.lt_succ_of_le (Node.group_le_last hnumber)

/-! ## Pieces -/

/-- The literals and what stands between them, one after the other. -/
def interleave : List (List Char) → List (List Char) → List Char
  | literal :: literals, between :: others => literal ++ between ++ interleave literals others
  | literals, _ => literals.flatten

/-- The characters of a literal piece. -/
def Piece.literal? : Piece → Option (List Char)
  | .text chars => some chars
  | .code _ _ => none

/-- The stretch of the text. -/
def taken (text : Array Char) (span : Span) : List Char :=
  slice text span.start span.stop

theorem slice_append {text : Array Char} {start middle stop : Nat} (hmiddle : start ≤ middle)
    (hstop : middle ≤ stop) : slice text start middle ++ slice text middle stop =
      slice text start stop := by
  unfold slice
  rw [← Array.toList_append, Array.extract_append_extract, Nat.min_eq_left hmiddle,
    Nat.max_eq_right hstop]

theorem interleave_piecesFrom {pattern : Pattern} {text : Array Char} {tags : List Tag}
    {place : Nat} {previous : Option Nat} {found : List Match} (hplace : place ≤ text.size)
    (h : (pattern.finder text).Scan place previous found) :
    interleave ((piecesFrom text tags place found).filterMap Piece.literal?)
      (found.map fun found => taken text found.span) = slice text place text.size := by
  induction h with
  | done => exact List.append_nil _
  | @next place start previous found others hstart hsize _ hfound _ _ ih =>
      obtain ⟨hspan, hle, hstop⟩ := matchAt_span hsize hfound
      have hcode : (pieceOf? text tags found).toList.filterMap Piece.literal? = [] := by
        unfold pieceOf?
        split
        · split <;> rfl
        · rfl
      show interleave (slice text place found.span.start ::
          ((pieceOf? text tags found).toList ++
            piecesFrom text tags found.span.stop others).filterMap Piece.literal?)
          (taken text found.span :: others.map fun found => taken text found.span) = _
      rw [List.filterMap_append, hcode, List.nil_append]
      show slice text place found.span.start ++ taken text found.span ++ interleave _ _ = _
      refine (congrArg (_ ++ ·) (ih hstop)).trans ?_
      rw [taken, hspan, slice_append hstart hle]
      exact slice_append (Nat.le_trans hstart hle) hstop

/-- The literals and the matches give back the template: no character is lost or repeated, whatever
the delimiters are. -/
theorem interleave_pieces (tags : TagPattern) (template : String) :
    interleave ((pieces tags template).filterMap Piece.literal?)
      ((tags.pattern.findAll template.toList.toArray).map fun found =>
        taken template.toList.toArray found.span) = template.toList := by
  have hscan := Pattern.scan_findAll tags.pattern template.toList.toArray
  refine (interleave_piecesFrom (Nat.zero_le _) hscan).trans ?_
  show (Array.extract _ 0 _).toList = _
  rw [Array.extract_size]

theorem pieceOf_stands {text : Array Char} {tags : List Tag} {occurrence : Occurrence}
    {joined : Match} (h : Stands text tags 1 occurrence joined) :
    pieceOf? text tags joined = occurrence.piece? text := by
  unfold pieceOf? Occurrence.piece?
  rw [h.tag]
  cases occurrence.code <;> rfl

theorem piecesFrom_stands {text : Array Char} {tags : List Tag} {occurrences : List Occurrence}
    {found : List Match} {place : Nat} (h : List.Forall₂ (Stands text tags 1) occurrences found) :
    piecesFrom text tags place found = Occurrence.pieces text place occurrences := by
  induction h generalizing place with
  | nil => rfl
  | cons hfirst _ ih =>
      simp only [piecesFrom, Occurrence.pieces]
      rw [hfirst.span, pieceOf_stands hfirst, ih]

theorem taken_stands {text : Array Char} {tags : List Tag} {occurrences : List Occurrence}
    {found : List Match} (h : List.Forall₂ (Stands text tags 1) occurrences found) :
    occurrences.map (fun occurrence => taken text occurrence.span) =
      found.map fun found => taken text found.span := by
  induction h with
  | nil => rfl
  | cons hfirst _ ih =>
      simp only [List.map_cons]
      rw [hfirst.span, ih]

/-- A template is cut at the tags that contained delimiters find apart: at the first place from
where the last tag ended on where one of them matches, and by the first that does. -/
theorem pieces_separately (hsettings : TagPattern.ofSettings settings = .ok tags)
    (hcontained : ∀ delimiter ∈ delimitersOf settings, isContained delimiter.pattern)
    (template : String) :
    ∃ occurrences,
      (separately (delimitersOf settings) template.toList.toArray).Scan 0 none occurrences ∧
      (∀ others, (separately (delimitersOf settings) template.toList.toArray).Scan 0 none others →
        others = occurrences) ∧
      pieces tags template = Occurrence.pieces template.toList.toArray 0 occurrences ∧
      interleave ((pieces tags template).filterMap Piece.literal?)
        (occurrences.map fun occurrence => taken template.toList.toArray occurrence.span) =
          template.toList := by
  let text := template.toList.toArray
  have hrel : ∀ place, place ≤ text.size → Option.Rel (Stands text tags.tags 1)
      ((separately (delimitersOf settings) text).at? place)
      ((tags.pattern.finder text).at? place) :=
    fun place hplace => rel_separately hsettings hcontained text hplace
  have hsize : (separately (delimitersOf settings) text).size =
      (tags.pattern.finder text).size := rfl
  obtain ⟨occurrences, hstand, hscan⟩ := Finder.Scan.transfer hsize hrel
    (fun _ _ hstands => hstands.span.symm) (Pattern.scan_findAll tags.pattern text)
  exact ⟨occurrences, hscan, fun others hothers => hscan.unique hothers, piecesFrom_stands hstand,
    taken_stands hstand ▸ interleave_pieces tags template⟩

/-- The standard delimiters are contained. -/
theorem pieces_standard {tags : TagPattern} (hsettings : TagPattern.ofSettings {} = .ok tags)
    (template : String) :
    ∃ occurrences, (separately (delimitersOf {}) template.toList.toArray).Scan 0 none occurrences ∧
      pieces tags template = Occurrence.pieces template.toList.toArray 0 occurrences := by
  have hcontained : ∀ delimiter ∈ delimitersOf {}, isContained delimiter.pattern = true := by
    decide +kernel
  obtain ⟨occurrences, hscan, -, hpieces, -⟩ := pieces_separately hsettings hcontained template
  exact ⟨occurrences, hscan, hpieces⟩

/-! ## Delimiters that are not contained -/

/-- A comment that a verbose delimiter leaves open takes the text of the joined pattern up to the
next line for its own, and the delimiter there goes lost. -/
def openComment : TemplateSettings where
  escape := some "(?x)(a)#"
  interpolate := some "\n(b)"

/-- Groups in a repetition without rounds are left out, but keep their numbers, so that those of
the delimiters behind move on. -/
def droppedGroup : TemplateSettings where
  escape := some "(b)(a)\x7b0\x7d"

/-- The template is cut in another way than at the tags that the delimiters find apart. -/
def CutsOtherwise (settings : TemplateSettings) (template : String) : Prop :=
  ∃ tags, TagPattern.ofSettings settings = .ok tags ∧
    ∀ occurrences,
      (separately (delimitersOf settings) template.toList.toArray).Scan 0 none occurrences →
        pieces tags template ≠ Occurrence.pieces template.toList.toArray 0 occurrences

theorem cutsOtherwise_of_first {settings : TemplateSettings} {template : String}
    {found : Occurrence} {cut : List Piece}
    (hcut : (TagPattern.ofSettings settings).toOption.map (pieces · template) = some cut)
    (hfound : firstAt? (delimitersOf settings) template.toList.toArray 0 = some found)
    (hdiffers : ∀ others, cut ≠ Occurrence.pieces template.toList.toArray 0 (found :: others)) :
    CutsOtherwise settings template := by
  obtain ⟨tags, htags, hpieces⟩ := Option.map_eq_some_iff.mp hcut
  refine ⟨tags, except_ok_iff_to_option.mpr htags, fun occurrences hscan => ?_⟩
  obtain ⟨others, rfl⟩ := List.head?_eq_some_iff.mp (hscan.starts (Nat.zero_le _) hfound)
  rw [hpieces]
  exact hdiffers others

theorem open_comment_leaks : CutsOtherwise openComment "a" := by
  have hcut : (TagPattern.ofSettings openComment).toOption.map (pieces · "a") =
      some [.text ['a']] := by
    decide +kernel
  have hfound : firstAt? (delimitersOf openComment) "a".toList.toArray 0 =
      some { tag := .escape, span := ⟨0, 1⟩, code := some ⟨0, 1⟩ } := by
    decide +kernel
  refine cutsOtherwise_of_first hcut hfound fun others hsame => ?_
  cases hsame

theorem dropped_group_shifts : CutsOtherwise droppedGroup "<%x%>" := by
  have hcut : (TagPattern.ofSettings droppedGroup).toOption.map (pieces · "<%x%>") =
      some [.text [], .text []] := by
    decide +kernel
  have hfound : firstAt? (delimitersOf droppedGroup) "<%x%>".toList.toArray 0 =
      some { tag := .evaluate, span := ⟨0, 5⟩, code := some ⟨2, 3⟩ } := by
    decide +kernel
  refine cutsOtherwise_of_first hcut hfound fun others hsame => ?_
  cases hsame

end TemplateBundle.Template

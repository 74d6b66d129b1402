import TemplateBundle.Proofs.FileTree.Lookup
import TemplateBundle.Proofs.Text.Pieces

/-!
# Locations that written paths name

How the location of a path follows from its text. Separators at the end do not count
(`goal_without_open_end`), and a file beside another one is never that file itself: a suffix makes
the last piece of a path a name of its own (`goal_append_ne`).
-/

namespace TemplateBundle.FileTree

/-! ## Pieces of a text -/

/-- The location that the pieces of a text lead to. -/
def follow (start : Location) (text : List Char) : Location :=
  (text.splitOn '/').foldl (fun location piece => enter location (String.ofList piece)) start

/-- A separator starts a new piece. -/
theorem follow_append_separator (start : Location) (first second : List Char) :
    follow start (first ++ '/' :: second) = follow (follow start first) second := by
  simp [follow, List.splitOn_append_cons_self]

/-- A text without separators is one piece. -/
theorem follow_single {start : Location} {piece : List Char} (h : '/' ∉ piece) :
    follow start piece = enter start (String.ofList piece) := by
  simp [follow, List.splitOn_eq_singleton h]

/-- Separators at the end lead nowhere else. -/
theorem follow_append_separators (start : Location) (text : List Char) (count : Nat) :
    follow start (text ++ List.replicate count '/') = follow start text := by
  induction count generalizing text with
  | zero => simp
  | succ count ih =>
      rw [List.replicate_succ', ← List.append_assoc]
      rw [show (text ++ List.replicate count '/') ++ ['/'] =
        (text ++ List.replicate count '/') ++ '/' :: [] from rfl]
      rw [follow_append_separator, ih, follow_single List.not_mem_nil]
      rfl

/-- A text that names a location is neither empty nor absolute, and its pieces lead there from the
working directory. -/
theorem goal_eq_some_iff {path : Path} {location : Location} :
    goal? path = some location ↔
      path.text.toList ≠ [] ∧ path.text.toList.head? ≠ some '/' ∧
        follow working path.text.toList = location := by
  have hempty : path.text = "" ↔ path.text.toList = [] := String.toList_eq_nil_iff.symm
  unfold goal?
  by_cases hnowhere : path.text = "" ∨ path.isAbsolute
  · simp only [hnowhere, if_true, reduceCtorEq, false_iff]
    rintro ⟨hne, hhead, -⟩
    rcases hnowhere with htext | habsolute
    · exact hne (hempty.mp htext)
    · exact hhead (by simpa [Path.isAbsolute] using habsolute)
  · have habsolute : path.isAbsolute = false := by
      simpa using fun h => hnowhere (Or.inr h)
    have hhead : path.text.toList.head? ≠ some '/' := by
      simpa [Path.isAbsolute] using habsolute
    have hne : path.text.toList ≠ [] := fun h => hnowhere (Or.inl (hempty.mpr h))
    simp only [hnowhere, if_false, Option.some.injEq, ne_eq, hne, not_false_eq_true, hhead,
      true_and]
    simp [piecesOf, Path.segments, habsolute, follow, List.foldl_map]

/-! ## Separators at the end -/

/-- A text is what `withoutOpenEnd` leaves, with separators behind it. -/
theorem without_open_end_append (path : Path) :
    ∃ count, path.text.toList =
      (withoutOpenEnd path).text.toList ++ List.replicate count '/' := by
  have hseparators : ∀ c ∈ path.text.toList.reverse.takeWhile (· == '/'), c = '/' := by
    intro c hc
    simpa using List.all_eq_true.mp List.all_takeWhile c hc
  refine ⟨(path.text.toList.reverse.takeWhile (· == '/')).length, ?_⟩
  have hreplicate := List.eq_replicate_iff.mpr ⟨rfl, hseparators⟩
  calc path.text.toList
      = (path.text.toList.reverse.takeWhile (· == '/') ++
          path.text.toList.reverse.dropWhile (· == '/')).reverse := by
        rw [List.takeWhile_append_dropWhile, List.reverse_reverse]
    _ = _ := by
        rw [List.reverse_append, hreplicate, List.reverse_replicate, List.length_replicate,
          withoutOpenEnd, String.toList_ofList]

/-- Separators at the end of a path do not count for the location that it names. -/
theorem goal_without_open_end {path : Path} {location : Location}
    (h : goal? (withoutOpenEnd path) = some location) : goal? path = some location := by
  obtain ⟨hne, hhead, hfollow⟩ := goal_eq_some_iff.mp h
  obtain ⟨count, htext⟩ := without_open_end_append path
  rw [goal_eq_some_iff, htext, follow_append_separators]
  refine ⟨by simp [hne], ?_, hfollow⟩
  rw [List.head?_append, Option.or_of_isSome (by simpa using hne)]
  exact hhead

/-- A path that does not end with a separator is kept as it is. -/
theorem without_open_end_closed {path : Path} (h : endsOpen path = false) :
    withoutOpenEnd path = path := by
  have hlast : path.text.toList.reverse.dropWhile (· == '/') = path.text.toList.reverse := by
    unfold endsOpen at h
    rw [← List.head?_reverse] at h
    cases hreversed : path.text.toList.reverse with
    | nil => rfl
    | cons c rest =>
        rw [hreversed] at h
        exact List.dropWhile_cons_of_neg (by simpa using h)
  simp [withoutOpenEnd, hlast]

/-! ## A file beside another -/

/-- Behind a suffix that could be a name, a piece leads to another location than before. -/
theorem enter_append_ne {location : Location} {piece suffix : List Char}
    (hlong : 2 < suffix.length) :
    enter location (String.ofList (piece ++ suffix)) ≠ enter location (String.ofList piece) := by
  have hname : enter location (String.ofList (piece ++ suffix)) =
      location ++ [String.ofList (piece ++ suffix)] := by
    have hlength : 2 < (piece ++ suffix).length := by
      rw [List.length_append]
      omega
    have hne : ∀ text : String, text.toList.length ≤ 2 →
        String.ofList (piece ++ suffix) ≠ text := by
      rintro text hshort rfl
      rw [String.toList_ofList] at hshort
      omega
    rw [enter, if_neg (by simp only [hne "" (by decide), hne "." (by decide), or_self,
      not_false_eq_true]), if_neg (hne ".." (by decide))]
  rw [hname]
  intro heq
  -- the shorter piece stays, goes back, or enters a name of another length
  unfold enter at heq
  split_ifs at heq with hstay hback
  · simpa using congrArg List.length heq
  · have := congrArg List.length heq
    simp only [List.length_append, List.length_dropLast, List.length_cons, List.length_nil] at this
    omega
  · have htext : String.ofList (piece ++ suffix) = String.ofList piece := by simpa using heq
    have := congrArg List.length (String.ofList_inj.mp htext)
    simp only [List.length_append] at this
    omega

/-- A path with a suffix that could be a name names another location than the path itself. -/
theorem goal_append_ne {path : Path} {suffix : String} {location : Location}
    (hlong : 2 < suffix.toList.length) (hname : '/' ∉ suffix.toList)
    (h : goal? path = some location) : goal? (path.append suffix) ≠ some location := by
  intro hbeside
  have hfollow := (goal_eq_some_iff.mp h).2.2
  have hfollowBeside := (goal_eq_some_iff.mp hbeside).2.2
  rw [Path.append, String.toList_append] at hfollowBeside
  -- both paths lead to where their last pieces are entered, and only these differ
  rcases Text.exists_last_piece '/' path.text.toList with hsingle | ⟨directory, last, htext, hlast⟩
  · rw [follow_single (by simp [hsingle, hname])] at hfollowBeside
    rw [follow_single hsingle] at hfollow
    exact enter_append_ne hlong (hfollowBeside.trans hfollow.symm)
  · rw [htext, List.append_assoc, List.cons_append, follow_append_separator,
      follow_single (by simp [hlast, hname])] at hfollowBeside
    rw [htext, follow_append_separator, follow_single hlast] at hfollow
    exact enter_append_ne hlong (hfollowBeside.trans hfollow.symm)

end TemplateBundle.FileTree

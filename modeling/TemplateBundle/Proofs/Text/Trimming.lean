import Mathlib.Data.List.TakeWhile
import TemplateBundle.Proofs.Text.Pieces
import TemplateBundle.Text.WhiteSpace

/-!
# Trimming pieces of a text

White space around a text does not count once the pieces between its separators are trimmed, so a
text may be trimmed before it is cut or left as it is (`trimmed_pieces_trim`).
-/

namespace TemplateBundle.Text

variable {separator : Char} {text white : List Char}

/-- All characters are white space. -/
def IsWhiteText (text : List Char) : Prop :=
  ∀ c ∈ text, isWhite c = true

theorem IsWhiteText.reverse (h : IsWhiteText text) : IsWhiteText text.reverse :=
  fun c hc => h c (List.mem_reverse.mp hc)

/-! ## White space around a text -/

theorem trim_start_white_append (hwhite : IsWhiteText white) (text : List Char) :
    trimStart (white ++ text) = trimStart text :=
  List.dropWhile_append_of_pos hwhite

theorem trim_end_append_white (hwhite : IsWhiteText white) (text : List Char) :
    trimEnd (text ++ white) = trimEnd text := by
  unfold trimEnd
  rw [List.reverse_append]
  exact congrArg List.reverse (List.dropWhile_append_of_pos hwhite.reverse)

theorem trim_start_of_white (hwhite : IsWhiteText white) : trimStart white = [] := by
  have h := trim_start_white_append hwhite []
  rwa [List.append_nil] at h

theorem trim_list_white_append (hwhite : IsWhiteText white) (text : List Char) :
    trimList (white ++ text) = trimList text := by
  unfold trimList
  rw [trim_start_white_append hwhite]

/-- A text that is more than white space starts with the same character whatever stands behind. -/
theorem trim_list_append_white (hwhite : IsWhiteText white) (text : List Char) :
    trimList (text ++ white) = trimList text := by
  unfold trimList
  by_cases htext : IsWhiteText text
  · rw [trim_start_white_append htext, trim_start_of_white hwhite, trim_start_of_white htext]
  · have hstart : trimStart (text ++ white) = trimStart text ++ white := by
      unfold trimStart
      rw [List.dropWhile_append, if_neg]
      rw [List.isEmpty_iff]
      exact fun hempty => htext (List.dropWhile_eq_nil_iff.mp hempty)
    rw [hstart, trim_end_append_white hwhite]

/-- A text is what trimming leaves, with white space around it. -/
theorem exists_around_trimmed (text : List Char) :
    ∃ front back, IsWhiteText front ∧ IsWhiteText back ∧ text = front ++ trimList text ++ back := by
  have hwhite (text : List Char) : IsWhiteText (text.takeWhile isWhite) :=
    fun c hc => List.all_eq_true.mp List.all_takeWhile c hc
  refine ⟨text.takeWhile isWhite, ((trimStart text).reverse.takeWhile isWhite).reverse, hwhite _,
    (hwhite _).reverse, ?_⟩
  have hback : trimList text ++ ((trimStart text).reverse.takeWhile isWhite).reverse =
      trimStart text := by
    unfold trimList trimEnd
    rw [← List.reverse_append, List.takeWhile_append_dropWhile, List.reverse_reverse]
  rw [List.append_assoc, hback]
  exact List.takeWhile_append_dropWhile.symm

theorem trim_list_eq_nil_iff : trimList text = [] ↔ IsWhiteText text := by
  constructor
  · intro h
    obtain ⟨front, back, hfront, hback, htext⟩ := exists_around_trimmed text
    rw [h, List.append_nil] at htext
    rw [htext]
    exact List.forall_mem_append.mpr ⟨hfront, hback⟩
  · intro h
    have htrim := trim_list_white_append h []
    rwa [List.append_nil] at htrim

/-! ## Pieces between separators -/

/-- The pieces of a text between separators, each without white space around it. -/
def trimmedPieces (separator : Char) (text : List Char) : List (List Char) :=
  (text.splitOn separator).map trimList

theorem not_mem_white (hseparator : isWhite separator = false) (hwhite : IsWhiteText white) :
    separator ∉ white :=
  fun hmem => Bool.false_ne_true (hseparator.symm.trans (hwhite separator hmem))

/-- White space in front belongs to the first piece. -/
theorem trimmed_pieces_white_append (hseparator : isWhite separator = false)
    (hwhite : IsWhiteText white) (text : List Char) :
    trimmedPieces separator (white ++ text) = trimmedPieces separator text := by
  have hnone := not_mem_white hseparator hwhite
  unfold trimmedPieces
  by_cases hmem : separator ∈ text
  · obtain ⟨first, rest, rfl, hfirst⟩ := List.eq_append_cons_of_mem hmem
    have hlonger : separator ∉ white ++ first := List.not_mem_append hnone hfirst
    rw [← List.append_assoc, List.splitOn_append_cons_self_of_not_mem hlonger,
      List.splitOn_append_cons_self_of_not_mem hfirst, List.map_cons, List.map_cons,
      trim_list_white_append hwhite]
  · rw [List.splitOn_eq_singleton (List.not_mem_append hnone hmem), List.splitOn_eq_singleton hmem,
      List.map_singleton, List.map_singleton, trim_list_white_append hwhite]

/-- White space at the end belongs to the last piece. -/
theorem trimmed_pieces_append_white (hseparator : isWhite separator = false)
    (hwhite : IsWhiteText white) (text : List Char) :
    trimmedPieces separator (text ++ white) = trimmedPieces separator text := by
  have hlast (last : List Char) (h : separator ∉ last) :
      trimmedPieces separator (last ++ white) = trimmedPieces separator last := by
    have hlonger := List.not_mem_append h (not_mem_white hseparator hwhite)
    unfold trimmedPieces
    rw [List.splitOn_eq_singleton hlonger, List.splitOn_eq_singleton h, List.map_singleton,
      List.map_singleton, trim_list_append_white hwhite]
  rcases exists_last_piece separator text with hsingle | ⟨front, last, rfl, hmem⟩
  · exact hlast text hsingle
  · have hpieces := hlast last hmem
    unfold trimmedPieces at hpieces ⊢
    rw [List.append_assoc, List.cons_append, List.splitOn_append_cons_self,
      List.splitOn_append_cons_self, List.map_append, List.map_append, hpieces]

/-- Trimming a text first changes nothing for its trimmed pieces. -/
theorem trimmed_pieces_trim (hseparator : isWhite separator = false) (text : List Char) :
    trimmedPieces separator (trimList text) = trimmedPieces separator text := by
  obtain ⟨front, back, hfront, hback, htext⟩ := exists_around_trimmed text
  conv_rhs => rw [htext]
  rw [trimmed_pieces_append_white hseparator hback,
    trimmed_pieces_white_append hseparator hfront]

end TemplateBundle.Text

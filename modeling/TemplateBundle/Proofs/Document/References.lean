import TemplateBundle.Document.Entity
import TemplateBundle.Proofs.Text.Replacing

/-!
# References decoded one after the other

A value is decoded by replacing one reference after the other, each in the whole value. That comes to
a single reading from left to right, which never looks at what it has decoded (`decode_once`): what a
reference stands for is part of no reference whose turn comes later, so no turn makes up a reference
or breaks one. Hence decoding takes back every way to write a value by references.
-/

namespace TemplateBundle.Document.Entity

open Text

variable {known : List (List Char × Char)} {reference : List Char × Char} {c : Char}
  {text value rest : List Char}

/-! ## Reading from left to right -/

/-- The text with the known references decoded in a single reading from left to right. Behind a
reference the reading goes on in the text; the decoded character is not read again. -/
def readOnce (known : List (List Char × Char)) : List Char → List Char
  | [] => []
  | c :: rest =>
      match known.find? fun reference => reference.1.isPrefixOf (c :: rest) with
      | some reference => reference.2 :: readOnce known (rest.drop (reference.1.length - 1))
      | none => c :: readOnce known rest
  termination_by text => text.length
  decreasing_by
    · simp only [List.length_drop, List.length_cons]
      omega
    · simp

/-- The references can be told apart, and decoded in this order. Each starts with an ampersand and has
no other one, none starts with another one, and what one stands for is in none behind it. -/
structure IsOrdered (known : List (List Char × Char)) : Prop where
  marked : ∀ reference ∈ known, reference.1.head? = some '&' ∧ '&' ∉ reference.1.tail
  apart : ∀ reference ∈ known, ∀ other ∈ known, reference.1 <+: other.1 → reference = other
  fresh : known.Pairwise fun reference later => reference.2 ∉ later.1

theorem ordered_references : IsOrdered references :=
  ⟨by decide, by decide, by decide⟩

namespace IsOrdered

theorem tail (h : IsOrdered (reference :: known)) : IsOrdered known where
  marked := fun first hfirst => h.marked first (List.mem_cons_of_mem _ hfirst)
  apart := fun first hfirst second hsecond =>
    h.apart first (List.mem_cons_of_mem _ hfirst) second (List.mem_cons_of_mem _ hsecond)
  fresh := (List.pairwise_cons.mp h.fresh).2

theorem exists_name (h : IsOrdered known) (hmem : reference ∈ known) :
    ∃ name, reference.1 = '&' :: name ∧ '&' ∉ name := by
  obtain ⟨hhead, htail⟩ := h.marked reference hmem
  cases hname : reference.1 with
  | nil =>
      rw [hname] at hhead
      cases hhead
  | cons mark name =>
      rw [hname] at hhead htail
      obtain rfl := Option.some.inj hhead
      exact ⟨name, rfl, htail⟩

theorem not_prefix_of_ne (h : IsOrdered known) (hmem : reference ∈ known) (hc : c ≠ '&')
    (rest : List Char) : ¬ reference.1 <+: c :: rest := by
  obtain ⟨name, hname, -⟩ := h.exists_name hmem
  rw [hname]
  exact fun hprefix => hc (List.cons_prefix_cons.mp hprefix).1.symm

/-- At most one of the references starts a text. -/
theorem eq_of_prefix (h : IsOrdered known) {other : List Char × Char} (hmem : reference ∈ known)
    (hother : other ∈ known) (hstarts : reference.1 <+: text) (hbegins : other.1 <+: text) :
    reference = other := by
  rcases List.prefix_or_prefix_of_prefix hstarts hbegins with hfirst | hsecond
  · exact h.apart _ hmem _ hother hfirst
  · exact (h.apart _ hother _ hmem hsecond).symm

end IsOrdered

/-- Where no known reference starts, the character is kept. -/
theorem read_once_other (h : ∀ reference ∈ known, ¬ reference.1 <+: c :: rest) :
    readOnce known (c :: rest) = c :: readOnce known rest := by
  have hnone : (known.find? fun reference => reference.1.isPrefixOf (c :: rest)) = none :=
    List.find?_eq_none.mpr fun reference hmem hprefix =>
      h reference hmem (List.isPrefixOf_iff_prefix.mp hprefix)
  rw [readOnce, hnone]

/-- What is found at the start is a known reference, and the reading goes on behind it. -/
theorem IsOrdered.found (h : IsOrdered known)
    (hfind : (known.find? fun reference => reference.1.isPrefixOf (c :: rest)) = some reference) :
    reference ∈ known ∧ c :: rest = reference.1 ++ rest.drop (reference.1.length - 1) := by
  have hmem := List.mem_of_find?_eq_some hfind
  obtain ⟨name, hname, -⟩ := h.exists_name hmem
  have hstarts : reference.1 <+: c :: rest := by simpa using List.find?_some hfind
  obtain ⟨behind, hbehind⟩ := hstarts
  rw [hname, List.cons_append] at hbehind
  obtain ⟨rfl, rfl⟩ := List.cons.inj hbehind
  refine ⟨hmem, ?_⟩
  rw [hname, List.length_cons, Nat.add_sub_cancel, List.drop_left, List.cons_append]

/-- A known reference at the start is decoded. -/
theorem read_once_reference (h : IsOrdered known) (hmem : reference ∈ known) (rest : List Char) :
    readOnce known (reference.1 ++ rest) = reference.2 :: readOnce known rest := by
  obtain ⟨name, hname, -⟩ := h.exists_name hmem
  have htext : reference.1 ++ rest = '&' :: (name ++ rest) := by rw [hname, List.cons_append]
  rw [htext, readOnce]
  split
  · rename_i first hfind
    obtain ⟨hfirst, hsplit⟩ := h.found hfind
    obtain rfl : first = reference :=
      h.eq_of_prefix hfirst hmem (hsplit ▸ List.prefix_append _ _) ⟨rest, htext⟩
    rw [← htext] at hsplit
    rw [← List.append_cancel_left hsplit]
  · rename_i hnone
    have hstarts := List.isPrefixOf_iff_prefix.mpr (⟨rest, htext⟩ : reference.1 <+: _)
    exact absurd hstarts (List.find?_eq_none.mp hnone reference hmem)

/-- Without known references nothing is decoded. -/
theorem read_once_nil_known (text : List Char) : readOnce [] text = text := by
  induction text with
  | nil => rw [readOnce]
  | cons c text ih => rw [read_once_other (by simp), ih]

/-! ## One reference after the other -/

/-- Replacing one reference steps over the other ones. -/
theorem IsOrdered.replace_steps_over (h : IsOrdered known) (hmem : reference ∈ known)
    {other : List Char × Char} (hother : other ∈ known) (hne : other ≠ reference)
    (replacement rest : List Char) :
    replaceAll reference.1 replacement (other.1 ++ rest) =
      other.1 ++ replaceAll reference.1 replacement rest := by
  have hstarts : ¬ reference.1 <+: other.1 ++ rest := fun hprefix =>
    hne (h.eq_of_prefix hother hmem (List.prefix_append _ _) hprefix)
  obtain ⟨name, hname, -⟩ := h.exists_name hmem
  obtain ⟨last, hlast, hmark⟩ := h.exists_name hother
  rw [hlast, List.cons_append] at hstarts ⊢
  rw [replace_all_other hstarts, hname, replace_all_append_of_not_mem hmark]
  rfl

/-- Decoding the first reference everywhere makes no difference to the reading. The induction is on
the reading: what the first reference stands for starts none of the others, and no text that starts
with another one is made up by it. -/
theorem read_once_replace (h : IsOrdered (reference :: known)) (text : List Char) :
    readOnce known (replaceAll reference.1 [reference.2] text) =
      readOnce (reference :: known) text := by
  have hfresh : ∀ later ∈ known, reference.2 ∉ later.1 := (List.pairwise_cons.mp h.fresh).1
  have hpattern : reference.1 ≠ [] := by
    obtain ⟨name, hname, -⟩ := h.exists_name List.mem_cons_self
    simp [hname]
  fun_induction readOnce (reference :: known) text with
  | case1 => rw [replace_all_nil, readOnce]
  | case2 c rest first hfind ih =>
      obtain ⟨hfirst, hsplit⟩ := h.found hfind
      rw [hsplit]
      by_cases heq : first = reference
      · subst heq
        have hkept : ∀ later ∈ known, ¬ later.1 <+: first.2 ::
            replaceAll first.1 [first.2] (rest.drop (first.1.length - 1)) := by
          intro later hlater
          refine h.tail.not_prefix_of_ne hlater ?_ _
          obtain ⟨name, hname, -⟩ := h.tail.exists_name hlater
          exact List.ne_of_not_mem_cons (hname ▸ hfresh later hlater)
        rw [replace_all_found hpattern, List.singleton_append, read_once_other hkept, ih]
      · -- another reference stands here, which the first one is no part of
        have hknown : first ∈ known := (List.mem_cons.mp hfirst).resolve_left heq
        rw [h.replace_steps_over List.mem_cons_self hfirst heq, read_once_reference h.tail hknown,
          ih]
  | case3 c rest hnone ih =>
      have hstarts : ∀ first ∈ reference :: known, ¬ first.1 <+: c :: rest :=
        fun first hfirst hprefix => List.find?_eq_none.mp hnone first hfirst
          (List.isPrefixOf_iff_prefix.mpr hprefix)
      have hreplaced := replace_all_other (hstarts reference List.mem_cons_self) [reference.2]
      have hkept : ∀ later ∈ known,
          ¬ later.1 <+: c :: replaceAll reference.1 [reference.2] rest := by
        intro later hlater hprefix
        rw [← hreplaced] at hprefix
        exact hstarts later (List.mem_cons_of_mem _ hlater)
          (prefix_of_prefix_replace hpattern (hfresh later hlater) hprefix)
      rw [hreplaced, read_once_other hkept, ih]

/-- Decoding ordered references one after the other is a single reading. -/
theorem foldl_replace_eq_read_once (h : IsOrdered known) (text : List Char) :
    known.foldl (fun text reference => replaceAll reference.1 [reference.2] text) text =
      readOnce known text := by
  induction known generalizing text with
  | nil => exact (read_once_nil_known text).symm
  | cons reference known ih => rw [List.foldl_cons, ih h.tail, read_once_replace h]

theorem decode_eq_read_once (text : List Char) : decode text = readOnce references text :=
  foldl_replace_eq_read_once ordered_references text

/-! ## Values written by references -/

/-- The text writes the value character by character: an ampersand by its reference, any other
character as it is or by one of its references. -/
inductive Writes : List Char → List Char → Prop where
  | nil : Writes [] []
  | plain {c : Char} {text value : List Char} (hc : c ≠ '&') (h : Writes text value) :
      Writes (c :: text) (c :: value)
  | byReference {reference : List Char × Char} {text value : List Char}
      (hmem : reference ∈ references) (h : Writes text value) :
      Writes (reference.1 ++ text) (reference.2 :: value)

theorem Writes.decode (h : Writes text value) : decode text = value := by
  rw [decode_eq_read_once]
  induction h with
  | nil => rw [readOnce]
  | plain hc _ ih =>
      rw [read_once_other fun _ hmem => ordered_references.not_prefix_of_ne hmem hc _, ih]
  | byReference hmem _ ih => rw [read_once_reference ordered_references hmem, ih]

/-- A value without ampersands writes itself. -/
theorem Writes.of_not_mem (h : '&' ∉ value) : Writes value value := by
  induction value with
  | nil => exact .nil
  | cons c value ih =>
      exact .plain (List.ne_of_not_mem_cons h).symm (ih (List.not_mem_of_not_mem_cons h))

/-- A value without ampersands is kept. -/
theorem decode_of_not_mem (h : '&' ∉ value) : decode value = value :=
  (Writes.of_not_mem h).decode

/-- The value with each character for which there is a chosen reference written by the first one. -/
def encode (chosen : List (List Char × Char)) (value : List Char) : List Char :=
  value.flatMap fun c =>
    match chosen.find? fun reference => reference.2 == c with
    | some reference => reference.1
    | none => [c]

theorem writes_encode {chosen : List (List Char × Char)} (hchosen : chosen ⊆ references)
    (hmark : '&' ∈ chosen.map Prod.snd) (value : List Char) :
    Writes (encode chosen value) value := by
  induction value with
  | nil => exact .nil
  | cons c value ih =>
      unfold encode at ih ⊢
      rw [List.flatMap_cons]
      split
      · rename_i reference hfind
        obtain rfl : reference.2 = c := by simpa using List.find?_some hfind
        exact .byReference (hchosen (List.mem_of_find?_eq_some hfind)) ih
      · rename_i hnone
        refine .plain ?_ ih
        rintro rfl
        obtain ⟨reference, hmem, hsnd⟩ := List.mem_map.mp hmark
        exact List.find?_eq_none.mp hnone reference hmem (beq_iff_eq.mpr hsnd)

/-- References are decoded exactly once. Decoding is a single reading from left to right that does not
look at what it has decoded, so it takes back every way to write a value by references, character by
character or with all characters that were chosen. -/
theorem decode_once (value : List Char) :
    decode value = readOnce references value ∧
      (∀ text, Writes text value → decode text = value) ∧
      ∀ chosen, chosen ⊆ references → '&' ∈ chosen.map Prod.snd →
        decode (encode chosen value) = value :=
  ⟨decode_eq_read_once value, fun _ h => h.decode,
    fun _ hchosen hmark => (writes_encode hchosen hmark value).decode⟩

/-- A value that looks like a reference, with its two apostrophes written in different ways and in
the same way. -/
theorem decode_once_apostrophes :
    Writes "&amp;lt;&#x27;'".toList "&lt;''".toList ∧
      [("&amp;".toList, '&'), ("&#x27;".toList, '\'')] ⊆ references ∧
      '&' ∈ [("&amp;".toList, '&'), ("&#x27;".toList, '\'')].map Prod.snd ∧
      decode "&amp;lt;&#x27;'".toList = "&lt;''".toList ∧
      decode (encode [("&amp;".toList, '&'), ("&#x27;".toList, '\'')] "&lt;''".toList) =
        "&lt;''".toList := by
  have hwrites : Writes "&amp;lt;&#x27;'".toList "&lt;''".toList :=
    .byReference (by decide : ("&amp;".toList, '&') ∈ references) <|
      .plain (by decide) <| .plain (by decide) <| .plain (by decide) <|
      .byReference (by decide : ("&#x27;".toList, '\'') ∈ references) <| .plain (by decide) .nil
  have hchosen : [("&amp;".toList, '&'), ("&#x27;".toList, '\'')] ⊆ references := by decide
  have hmark : '&' ∈ [("&amp;".toList, '&'), ("&#x27;".toList, '\'')].map Prod.snd := by decide
  obtain ⟨-, hread, hencoded⟩ := decode_once "&lt;''".toList
  exact ⟨hwrites, hchosen, hmark, hread _ hwrites, hencoded _ hchosen hmark⟩

example : decode "&amp;lt;".toList = "&lt;".toList := by cbv

end TemplateBundle.Document.Entity

import Mathlib.Data.List.Infix
import TemplateBundle.Proofs.Script.Lockstep.Steps
import TemplateBundle.Proofs.Text.Prefix

/-!
# Tokens within a line

A line may end so that its last token is over, whatever stands behind it (`Closed`). What is read in
such a line does then not depend on that, and something of the line is left: this is said of each
part of a token (`Local`) and put together to `token_within`.
-/

namespace TemplateBundle.Script

open Text (hexValue? after? after_eq_some_iff)

/-! ## Lines -/

/-- How lines end behind which a token is over. -/
def lineEndings : List (List Char) :=
  [";".toList, " \x7b".toList, " +".toList, " +=".toList]

/-- The last characters of such lines. -/
def closers : List Char :=
  [';', '\x7b', '+', '=']

/-- The text ends like such a line. -/
def EndsLine (text : List Char) : Prop :=
  ∃ ending ∈ lineEndings, text <:+ ending ∨ ending <:+ text

instance : DecidablePred EndsLine :=
  fun text => inferInstanceAs
    (Decidable (∃ ending ∈ lineEndings, text <:+ ending ∨ ending <:+ text))

/-- What is left of a line that ends so. -/
structure Closed (text : List Char) : Prop where
  ne_nil : text ≠ []
  ends : EndsLine text
  inline : ∀ c ∈ text, isLineEnd c = false

/-- Whether all characters of a text are of a kind is found by looking at each of them, and not at
every character that there is. -/
instance decidableForallMemText {kind : Char → Prop} [DecidablePred kind] (text : List Char) :
    Decidable (∀ c ∈ text, kind c) :=
  List.decidableBAll kind text

variable {α β γ δ : Type} {text rest left right behind pattern : List Char} {c d : Char}
  {line bound : Nat}

namespace Closed

theorem of_suffix (h : Closed text) (hsuffix : rest <:+ text) (hrest : rest ≠ []) :
    Closed rest := by
  obtain ⟨ending, hending, hends⟩ := h.ends
  refine ⟨hrest, ⟨ending, hending, ?_⟩, fun c hc => h.inline c (hsuffix.subset hc)⟩
  rcases hends with hends | hends
  · exact .inl (hsuffix.trans hends)
  · exact List.suffix_or_suffix_of_suffix hsuffix hends

theorem nil_or_suffix (h : Closed text) (hsuffix : rest <:+ text) : rest = [] ∨ Closed rest := by
  by_cases hrest : rest = []
  · exact .inl hrest
  · exact .inr (h.of_suffix hsuffix hrest)

theorem mem_closers (h : Closed [c]) : c ∈ closers := by
  obtain ⟨ending, hending, hends⟩ := h.ends
  simp only [lineEndings, String.reduceToList, List.mem_cons, List.not_mem_nil, or_false]
    at hending
  rcases hending with rfl | rfl | rfl | rfl <;> simp [List.suffix_cons_iff, closers] at hends ⊢ <;>
    grind

/-- Behind a character that does not end a line the line goes on. -/
theorem tail (h : Closed (c :: text)) (hc : c ∉ closers) : Closed text := by
  refine h.of_suffix (List.suffix_cons c text) ?_
  rintro rfl
  exact hc h.mem_closers

/-- The same, for a kind of character to which none that ends a line belongs. -/
theorem tail_of (h : Closed (c :: text)) (kind : Char → Bool) (hc : kind c = true)
    (hkind : ∀ c ∈ closers, kind c = false) : Closed text :=
  h.tail fun hmem => Bool.false_ne_true ((hkind c hmem).symm.trans hc)

/-- Where a blank stands before the end of a line, the line goes on behind other characters. -/
theorem behind_glued (h : Closed (c :: d :: text)) (hc : c ≠ ' ') (hd : d ∈ ['\x7b', '+']) :
    Closed text := by
  refine h.of_suffix ((List.suffix_cons d text).trans (List.suffix_cons c _)) ?_
  rintro rfl
  obtain ⟨ending, hending, hends⟩ := h.ends
  simp only [lineEndings, String.reduceToList, List.mem_cons, List.not_mem_nil, or_false]
    at hending
  rcases hending with rfl | rfl | rfl | rfl <;> simp [List.suffix_cons_iff] at hends hd <;> grind

theorem exists_closer (h : Closed text) : ∃ c ∈ text, c ∈ closers := by
  induction text with
  | nil => exact absurd rfl h.ne_nil
  | cons c text ih =>
      by_cases hc : c ∈ closers
      · exact ⟨c, List.mem_cons_self, hc⟩
      · obtain ⟨d, hd, hcloser⟩ := ih (h.tail hc)
        exact ⟨d, List.mem_cons_of_mem _ hd, hcloser⟩

/-- A pattern that starts in a line ends there, if it holds no end of a line. -/
theorem prefix_of_append (h : Closed text) (hstart : pattern <+: text ++ behind)
    (hpattern : ∀ c ∈ closers, c ∉ pattern) : pattern <+: text := by
  rcases List.prefix_or_prefix_of_prefix hstart (List.prefix_append text behind) with hinside | htext
  · exact hinside
  · obtain ⟨c, hc, hcloser⟩ := h.exists_closer
    exact absurd (htext.subset hc) (hpattern c hcloser)

/-- Characters of a kind end within the line. -/
theorem drop_while (h : Closed text) (kind : Char → Bool)
    (hkind : ∀ c ∈ closers, kind c = false) :
    Closed (text.dropWhile kind) ∧ ∀ behind,
      (text ++ behind).takeWhile kind = text.takeWhile kind ∧
        (text ++ behind).dropWhile kind = text.dropWhile kind ++ behind := by
  induction text with
  | nil => exact absurd rfl h.ne_nil
  | cons c text ih =>
      simp only [List.cons_append, List.takeWhile_cons, List.dropWhile_cons]
      cases hc : kind c with
      | false => exact ⟨h, fun _ => ⟨rfl, rfl⟩⟩
      | true =>
          obtain ⟨hdrop, hall⟩ := ih (h.tail_of kind hc hkind)
          refine ⟨hdrop, fun behind => ?_⟩
          obtain ⟨htake, hdropped⟩ := hall behind
          exact ⟨congrArg (c :: ·) htake, hdropped⟩

end Closed

/-- What a scanner gives for the text does not depend on what stands behind it, and something is left
of the text. -/
def Local (make : α → List Char → β) (scan : List Char → Option β) (text : List Char) : Prop :=
  (∀ behind, scan (text ++ behind) = none) ∨
    ∃ value rest, Closed rest ∧ rest <:+ text ∧
      ∀ behind, scan (text ++ behind) = some (make value (rest ++ behind))

namespace Local

variable {make : α → List Char → β} {scan other : List Char → Option β}

theorem found (value : α) (hrest : Closed rest) (hsuffix : rest <:+ text)
    (h : ∀ behind, scan (text ++ behind) = some (make value (rest ++ behind))) :
    Local make scan text :=
  .inr ⟨value, rest, hrest, hsuffix, h⟩

/-- The scanner goes on with a part of the text. -/
theorem pass (h : Local make other rest) (hsuffix : rest <:+ text)
    (heq : ∀ behind, scan (text ++ behind) = other (rest ++ behind)) : Local make scan text := by
  rcases h with hnone | ⟨value, left, hleft, hshorter, hfound⟩
  · exact .inl fun behind => (heq behind).trans (hnone behind)
  · exact .found value hleft (hshorter.trans hsuffix) fun behind =>
      (heq behind).trans (hfound behind)

theorem map {make' : γ → List Char → δ} (h : Local make scan text) (change : β → δ)
    (keep : α → γ) (hchange : ∀ value rest, change (make value rest) = make' (keep value) rest) :
    Local make' (fun text => (scan text).map change) text := by
  rcases h with hnone | ⟨value, rest, hrest, hsuffix, hfound⟩
  · exact .inl fun behind => congrArg (Option.map change) (hnone behind)
  · refine .found (keep value) hrest hsuffix fun behind => ?_
    rw [hfound behind, Option.map_some, hchange]

end Local

/-! ## Escapes -/

theorem local_hex_digits (count value : Nat) (h : Closed text) :
    Local Prod.mk (hexDigits? count value) text := by
  induction count generalizing value text with
  | zero => exact .found value h List.suffix_rfl fun _ => rfl
  | succ count ih =>
      obtain ⟨c, text, rfl⟩ := List.exists_cons_of_ne_nil h.ne_nil
      cases hdigit : hexValue? c with
      | none =>
          refine .inl fun behind => ?_
          rw [List.cons_append, hexDigits?, hdigit]
      | some digit =>
          have htail := h.tail_of (fun c => (hexValue? c).isSome) (by rw [hdigit]; rfl) (by decide)
          refine (ih (16 * value + digit) htail).pass (List.suffix_cons c text) fun behind => ?_
          rw [List.cons_append, hexDigits?, hdigit]

theorem local_braced_hex (any : Bool) (value : Nat) (h : Closed text) :
    Local Prod.mk (bracedHex? any value) text := by
  induction text generalizing any value with
  | nil => exact absurd rfl h.ne_nil
  | cons c text ih =>
      have hsuffix := List.suffix_cons c text
      by_cases hc : c = '\x7d'
      · subst hc
        cases any with
        | false => exact .inl fun _ => rfl
        | true => exact .found value (h.tail (by decide)) hsuffix fun _ => rfl
      · cases hdigit : hexValue? c with
        | none =>
            refine .inl fun behind => ?_
            rw [List.cons_append, bracedHex?, if_neg hc, hdigit]
        | some digit =>
            have htail := h.tail_of (fun c => (hexValue? c).isSome) (by rw [hdigit]; rfl)
              (by decide)
            by_cases hcode : 16 * value + digit ≤ greatestCode
            · refine (ih true (16 * value + digit) htail).pass hsuffix fun behind => ?_
              rw [List.cons_append, bracedHex?, if_neg hc, hdigit]
              exact if_pos hcode
            · refine .inl fun behind => ?_
              rw [List.cons_append, bracedHex?, if_neg hc, hdigit]
              exact if_neg hcode

/-- An escape by its number, behind a letter. -/
theorem local_unicode_escape (h : Closed (c :: text)) (hc : c ∉ closers) (hblank : c ≠ ' ') :
    Local Prod.mk unicodeEscape? text := by
  have htail := h.tail hc
  obtain ⟨d, text, rfl⟩ := List.exists_cons_of_ne_nil htail.ne_nil
  by_cases hd : d = '\x7b'
  · subst hd
    have hbehind := h.behind_glued hblank (by decide)
    exact (local_braced_hex false 0 hbehind).pass (List.suffix_cons _ _) fun _ => rfl
  · refine (local_hex_digits 4 0 htail).pass List.suffix_rfl fun behind => ?_
    rw [List.cons_append, unicodeEscape?]
    exact fun _ heq => hd (List.cons.inj heq).1

/-- An escape by a digit, or by another character that needs nothing behind it. -/
theorem escape_at_plain (hx : c ≠ 'x') (hu : c ≠ 'u') (text : List Char) : escapeAt (c :: text) =
    if c = '0' then
      match text.head? with
      | some digit => if digit.isDigit then .legacy text else .plain text
      | none => .plain text
    else if c.isDigit then .legacy text
    else .plain text := by
  rewrite [escapeAt]
  · rfl
  · exact hx
  · exact hu

/-- An escape lies within a line, though perhaps at its end. -/
theorem escape_within (h : Closed text) :
    (∀ behind, escapeAt (text ++ behind) = .invalid) ∨ ∃ rest, rest <:+ text ∧
      ((∀ behind, escapeAt (text ++ behind) = .plain (rest ++ behind)) ∨
        ∀ behind, escapeAt (text ++ behind) = .legacy (rest ++ behind)) := by
  obtain ⟨c, text, rfl⟩ := List.exists_cons_of_ne_nil h.ne_nil
  have hsuffix := List.suffix_cons c text
  by_cases hx : c = 'x'
  · subst hx
    rcases local_hex_digits 2 0 (h.tail (by decide)) with hnone | ⟨_, rest, -, hrest, hfound⟩
    · refine .inl fun behind => ?_
      rw [List.cons_append, escapeAt, hnone]
    · refine .inr ⟨rest, hrest.trans hsuffix, .inl fun behind => ?_⟩
      rw [List.cons_append, escapeAt, hfound]
  · by_cases hu : c = 'u'
    · subst hu
      rcases local_unicode_escape h (by decide) (by decide) with hnone | ⟨_, rest, -, hrest, hfound⟩
      · refine .inl fun behind => ?_
        rw [List.cons_append, escapeAt, hnone]
      · refine .inr ⟨rest, hrest.trans hsuffix, .inl fun behind => ?_⟩
        rw [List.cons_append, escapeAt, hfound]
    · have hescape (behind : List Char) := escape_at_plain hx hu (text ++ behind)
      refine .inr ⟨text, hsuffix, ?_⟩
      by_cases hzero : c = '0'
      · subst hzero
        obtain ⟨digit, others, rfl⟩ := List.exists_cons_of_ne_nil (h.tail (by decide)).ne_nil
        cases hdigit : digit.isDigit with
        | false => exact .inl fun behind => (hescape behind).trans (by simp [hdigit])
        | true => exact .inr fun behind => (hescape behind).trans (by simp [hdigit])
      · cases hdigit : c.isDigit with
        | false => exact .inl fun behind => (hescape behind).trans (by simp [hzero, hdigit])
        | true => exact .inr fun behind => (hescape behind).trans (by simp [hzero, hdigit])

/-! ## Numbers -/

/-- A scanner that gives only what it leaves. -/
abbrev LocalRest (scan : List Char → Option (List Char)) (text : List Char) : Prop :=
  Local (fun (_ : Unit) rest => rest) scan text

/-- Digits behind others. -/
theorem local_more_digits {scan : List Char → Option (Bool × List Char)}
    (h : Local Prod.mk scan text) :
    Local Prod.mk (fun text => (scan text).map fun (_, behind) => (true, behind)) text :=
  h.map _ (fun _ => true) fun _ _ => rfl

theorem local_digit_run {isDigit : Char → Bool} (hkind : ∀ c ∈ closers, isDigit c = false)
    (before : Bool) (h : Closed text) : Local Prod.mk (digitRun isDigit before) text := by
  induction text generalizing before with
  | nil => exact absurd rfl h.ne_nil
  | cons c text ih =>
      have hsuffix := List.suffix_cons c text
      cases hc : isDigit c with
      | true =>
          have hrun := local_more_digits (ih true (h.tail_of isDigit hc hkind))
          exact hrun.pass hsuffix fun behind => by simp [digitRun, hc]
      | false =>
          by_cases hline : c = '_'
          · subst hline
            have htail := h.tail (by decide)
            cases hnext : before && text.head?.any isDigit with
            | false =>
                refine .inl fun behind => ?_
                obtain ⟨d, others, rfl⟩ := List.exists_cons_of_ne_nil htail.ne_nil
                simp_all [digitRun]
            | true =>
                refine (local_more_digits (ih false htail)).pass hsuffix fun behind => ?_
                obtain ⟨d, others, rfl⟩ := List.exists_cons_of_ne_nil htail.ne_nil
                simp_all [digitRun]
          · exact .found before h List.suffix_rfl fun behind => by simp [digitRun, hc, hline]

theorem digit_closers : ∀ c ∈ closers, c.isDigit = false := by
  decide

/-- Digits that have to be there, in front of what is read next. -/
theorem Local.behind_digits {isDigit : Char → Bool} {scan next : List Char → Option (List Char)}
    (hkind : ∀ c ∈ closers, isDigit c = false) (h : Closed rest) (hsuffix : rest <:+ text)
    (hscan : ∀ behind, scan (text ++ behind) = match digitRun isDigit false (rest ++ behind) with
      | some (true, behind) => next behind
      | _ => none)
    (hnext : ∀ {rest}, Closed rest → LocalRest next rest) : LocalRest scan text := by
  rcases local_digit_run hkind false h with hnone | ⟨any, left, hleft, hshorter, hfound⟩
  · exact .inl fun behind => by rw [hscan, hnone]
  · cases any with
    | false => exact .inl fun behind => by rw [hscan, hfound]
    | true =>
        refine (hnext hleft).pass (hshorter.trans hsuffix) fun behind => ?_
        rw [hscan, hfound]

/-- An exponent without a sign. -/
theorem exponent_unsigned (hc : c = 'e' ∨ c = 'E') (hplus : d ≠ '+') (hminus : d ≠ '-') :
    exponent? (c :: d :: text) = match digitRun Char.isDigit false (d :: text) with
      | some (true, behind) => some behind
      | _ => none := by
  unfold exponent?
  simp only [if_pos hc]
  split
  all_goals simp_all

theorem local_exponent (h : Closed text) : LocalRest exponent? text := by
  obtain ⟨c, text, rfl⟩ := List.exists_cons_of_ne_nil h.ne_nil
  by_cases hc : c = 'e' ∨ c = 'E'
  · have hcloser : c ∉ closers := by
      rcases hc with rfl | rfl <;> decide
    have hblank : c ≠ ' ' := by
      rcases hc with rfl | rfl <;> decide
    have htail := h.tail hcloser
    have hsuffix := List.suffix_cons c text
    have hrest {rest : List Char} (hrest : Closed rest) : LocalRest some rest :=
      .found () hrest List.suffix_rfl fun _ => rfl
    obtain ⟨d, others, rfl⟩ := List.exists_cons_of_ne_nil htail.ne_nil
    by_cases hplus : d = '+'
    · subst hplus
      refine .behind_digits digit_closers (h.behind_glued hblank (by decide))
        ((List.suffix_cons _ _).trans hsuffix) (fun behind => ?_) hrest
      exact if_pos hc
    · by_cases hminus : d = '-'
      · subst hminus
        refine .behind_digits digit_closers (htail.tail (by decide))
          ((List.suffix_cons _ _).trans hsuffix) (fun behind => ?_) hrest
        exact if_pos hc
      · refine .behind_digits digit_closers htail hsuffix (fun behind => ?_) hrest
        exact exponent_unsigned hc hplus hminus
  · refine .found () h List.suffix_rfl fun behind => ?_
    simp only [List.cons_append, exponent?, hc, if_false]

theorem local_fraction (h : Closed text) : LocalRest fraction? text := by
  obtain ⟨c, text, rfl⟩ := List.exists_cons_of_ne_nil h.ne_nil
  by_cases hc : c = '.'
  · subst hc
    have hsuffix := List.suffix_cons '.' text
    rcases local_digit_run digit_closers false (h.tail (by decide)) with
      hnone | ⟨any, rest, hrest, hshorter, hfound⟩
    · exact .inl fun behind => by rw [List.cons_append, fraction?, hnone]
    · refine (local_exponent hrest).pass (hshorter.trans hsuffix) fun behind => ?_
      rw [List.cons_append, fraction?, hfound]
  · refine (local_exponent h).pass List.suffix_rfl fun behind => ?_
    rw [List.cons_append, fraction?]
    exact fun _ heq => hc (List.cons.inj heq).1

theorem local_big_mark (h : Closed text) :
    LocalRest (fun text => some (dropBigMark text)) text := by
  obtain ⟨c, text, rfl⟩ := List.exists_cons_of_ne_nil h.ne_nil
  by_cases hc : c = 'n'
  · subst hc
    exact .found () (h.tail (by decide)) (List.suffix_cons _ _) fun _ => rfl
  · refine .found () h List.suffix_rfl fun behind => ?_
    rw [List.cons_append, dropBigMark]
    exact fun _ heq => hc (List.cons.inj heq).1

theorem local_based_number (isDigit : Char → Bool)
    (hkind : ∀ c ∈ closers, isDigit c = false) (h : Closed text) : LocalRest (basedNumber? isDigit) text :=
  .behind_digits hkind h List.suffix_rfl (fun _ => rfl) local_big_mark

/-- A number in one of its forms, behind what tells the form. -/
theorem local_form {scan : List Char → Option (List Char)} (legacy : Bool)
    (h : LocalRest scan text) :
    Local Prod.mk (fun text => (scan text).map (legacy, ·)) text :=
  h.map _ (fun _ => legacy) fun _ _ => rfl

/-- A number in a base that a letter behind a zero tells. -/
theorem local_number_in_base (isDigit : Char → Bool) (h : Closed ('0' :: c :: text))
    (hcloser : c ∉ closers) (hkind : ∀ c ∈ closers, isDigit c = false)
    (hnumber : ∀ behind, number? ('0' :: c :: text ++ behind) =
      (basedNumber? isDigit (text ++ behind)).map (false, ·)) :
    Local Prod.mk number? ('0' :: c :: text) :=
  (local_form false (local_based_number isDigit hkind ((h.tail (by decide)).tail hcloser))).pass
    ((List.suffix_cons c text).trans (List.suffix_cons '0' (c :: text))) hnumber

/-- Digits behind a zero are those of an octal number, as it was once written, unless one of them is
none. -/
theorem local_number_of_digits (h : Closed ('0' :: c :: text)) (hdigit : c.isDigit = true)
    (hx : ¬(c = 'x' ∨ c = 'X')) (ho : ¬(c = 'o' ∨ c = 'O')) (hb : ¬(c = 'b' ∨ c = 'B')) :
    Local Prod.mk number? ('0' :: c :: text) := by
  obtain ⟨hdrop, hall⟩ := (h.tail (by decide)).drop_while Char.isDigit digit_closers
  have hleft := (List.dropWhile_suffix Char.isDigit).trans (List.suffix_cons '0' (c :: text))
  have hnumber (behind : List Char) : number? ('0' :: c :: text ++ behind) =
      if ((c :: text).takeWhile Char.isDigit).all isOctal then
        some (true, (c :: text).dropWhile Char.isDigit ++ behind)
      else (fraction? ((c :: text).dropWhile Char.isDigit ++ behind)).map (true, ·) := by
    rw [← (hall behind).1, ← (hall behind).2]
    simp only [List.cons_append, number?, hx, ho, hb, hdigit, if_true, if_false]
  cases hoctal : ((c :: text).takeWhile Char.isDigit).all isOctal with
  | true => exact .found true hdrop hleft fun behind => by rw [hnumber, hoctal, if_pos rfl]
  | false =>
      refine (local_form true (local_fraction hdrop)).pass hleft fun behind => ?_
      rw [hnumber, hoctal, if_neg Bool.false_ne_true]

/-- A zero alone, or in front of a fraction, an exponent or the sign of a big number. -/
theorem local_number_of_zero (h : Closed ('0' :: c :: text)) (hdigit : c.isDigit = false)
    (hx : ¬(c = 'x' ∨ c = 'X')) (ho : ¬(c = 'o' ∨ c = 'O')) (hb : ¬(c = 'b' ∨ c = 'B')) :
    Local Prod.mk number? ('0' :: c :: text) := by
  have htail := h.tail (by decide)
  have hsuffix := List.suffix_cons '0' (c :: text)
  have hnumber (behind : List Char) : number? ('0' :: c :: text ++ behind) =
      if c = '_' then none
      else if c = 'n' then some (false, text ++ behind)
      else (fraction? (c :: text ++ behind)).map (false, ·) := by
    simp only [List.cons_append, number?, hx, ho, hb, hdigit, Bool.false_eq_true, if_false]
  by_cases hline : c = '_'
  · exact .inl fun behind => by rw [hnumber, if_pos hline]
  by_cases hbig : c = 'n'
  · have hbehind := htail.tail (by rw [hbig]; decide)
    refine .found false hbehind ((List.suffix_cons c text).trans hsuffix) fun behind => ?_
    rw [hnumber, if_neg hline, if_pos hbig]
  · refine (local_form false (local_fraction htail)).pass hsuffix fun behind => ?_
    rw [hnumber, if_neg hline, if_neg hbig]

/-- A number behind a zero. -/
theorem local_number_behind_zero (h : Closed ('0' :: text)) :
    Local Prod.mk number? ('0' :: text) := by
  obtain ⟨c, text, rfl⟩ := List.exists_cons_of_ne_nil (h.tail (by decide)).ne_nil
  by_cases hx : c = 'x' ∨ c = 'X'
  · refine local_number_in_base (fun c => (hexValue? c).isSome) h
      (by rcases hx with rfl | rfl <;> decide) (by decide) fun _ => ?_
    simp only [List.cons_append, number?, hx, if_true]
  by_cases ho : c = 'o' ∨ c = 'O'
  · refine local_number_in_base isOctal h
      (by rcases ho with rfl | rfl <;> decide) (by decide) fun _ => ?_
    simp only [List.cons_append, number?, hx, ho, if_true, if_false]
  by_cases hb : c = 'b' ∨ c = 'B'
  · refine local_number_in_base (fun c => c == '0' || c == '1') h
      (by rcases hb with rfl | rfl <;> decide) (by decide) fun _ => ?_
    simp only [List.cons_append, number?, hx, ho, hb, if_true, if_false]
  cases hdigit : c.isDigit with
  | true => exact local_number_of_digits h hdigit hx ho hb
  | false => exact local_number_of_zero h hdigit hx ho hb

/-- A number that does not start with a zero. -/
theorem number_eq {text : List Char} (h : text.head? ≠ some '0') : number? text =
    match digitRun Char.isDigit false text with
    | some (_, 'n' :: behind) => some (false, behind)
    | some (_, behind) => (fraction? behind).map (false, ·)
    | none => none := by
  rewrite [number?]
  · rfl
  · rintro rest rfl
    exact h rfl

theorem local_number (h : Closed text) : Local Prod.mk number? text := by
  by_cases hzero : text.head? = some '0'
  · obtain ⟨rest, rfl⟩ := List.head?_eq_some_iff.mp hzero
    exact local_number_behind_zero h
  · have hhead (behind : List Char) : (text ++ behind).head? ≠ some '0' := by
      rwa [List.head?_append_of_ne_nil _ h.ne_nil]
    have hnumber (behind : List Char) := number_eq (hhead behind)
    rcases local_digit_run digit_closers false h with hnone | ⟨any, rest, hrest, hsuffix, hfound⟩
    · exact .inl fun behind => by rw [hnumber, hnone]
    · obtain ⟨c, rest, rfl⟩ := List.exists_cons_of_ne_nil hrest.ne_nil
      by_cases hbig : c = 'n'
      · subst hbig
        refine .found false (hrest.tail (by decide)) ((List.suffix_cons _ _).trans hsuffix)
          fun behind => ?_
        rw [hnumber, hfound]
        rfl
      · refine (local_form false (local_fraction hrest)).pass hsuffix fun behind => ?_
        rw [hnumber, hfound]
        split
        · rename_i heq
          exact absurd (List.cons.inj (Prod.mk.inj (Option.some.inj heq)).2).1 hbig
        · rename_i heq
          rw [(Prod.mk.inj (Option.some.inj heq)).2]
        · rename_i heq
          exact nomatch heq

/-- Whether a number may end is seen in the line. -/
theorem ends_number_append (h : Closed text) (behind : List Char) :
    endsNumber (text ++ behind) = endsNumber text := by
  obtain ⟨c, text, rfl⟩ := List.exists_cons_of_ne_nil h.ne_nil
  rfl

/-! ## Names -/

theorem continues_closers : ∀ c ∈ closers, continuesName c = false := by
  decide

theorem starts_closers : ∀ c ∈ closers, startsName c = false := by
  decide

/-- A name ends within the text, whatever stands behind it. The bound only has to be large enough. -/
def NameWithin (first escaped : Bool) (name text : List Char) : Prop :=
  (∀ behind bound, text.length < bound →
    nameFrom bound first escaped name (text ++ behind) = none) ∨
  ∃ (found : List Char × Bool) (rest : List Char), Closed rest ∧ rest <:+ text ∧
    ∀ behind bound, text.length < bound →
    nameFrom bound first escaped name (text ++ behind) = some (found.1, found.2, rest ++ behind)

variable {first escaped other : Bool} {name longer : List Char}

/-- One more character. -/
theorem NameWithin.pass (h : NameWithin false other longer rest)
    (hsuffix : rest <:+ text) (hlength : rest.length < text.length)
    (heq : ∀ behind bound, nameFrom (bound + 1) first escaped name (text ++ behind) =
      nameFrom bound false other longer (rest ++ behind)) :
    NameWithin first escaped name text := by
  rcases h with hnone | ⟨found, left, hleft, hshorter, hfound⟩
  · refine .inl fun behind bound hbound => ?_
    obtain ⟨bound, rfl⟩ := Nat.exists_eq_add_of_lt hbound
    rw [heq, hnone behind _ (by omega)]
  · refine .inr ⟨found, left, hleft, hshorter.trans hsuffix, fun behind bound hbound => ?_⟩
    obtain ⟨bound, rfl⟩ := Nat.exists_eq_add_of_lt hbound
    rw [heq, hfound behind _ (by omega)]

theorem NameWithin.none (h : ∀ behind bound,
    nameFrom (bound + 1) first escaped name (text ++ behind) = none) :
    NameWithin first escaped name text := by
  refine .inl fun behind bound hbound => ?_
  obtain ⟨bound, rfl⟩ := Nat.exists_eq_add_of_lt hbound
  exact h behind _

/-- A character by its number goes on with a name. -/
theorem name_within_escape (h : Closed ('\\' :: 'u' :: text))
    (hrest : ∀ {rest name}, Closed rest → rest <:+ text → NameWithin false true name rest) :
    NameWithin first escaped name ('\\' :: 'u' :: text) := by
  have hletter := h.tail (by decide)
  rcases local_unicode_escape hletter (by decide) (by decide) with
    hnone | ⟨code, rest, hclosed, hsuffix, hfound⟩
  · refine .none fun behind bound => ?_
    simp only [List.cons_append, nameFrom, hnone]
  · have hlonger : rest <:+ '\\' :: 'u' :: text :=
      hsuffix.trans ((List.suffix_cons _ _).trans (List.suffix_cons _ _))
    have hlength : rest.length < ('\\' :: 'u' :: text).length := by
      have := hsuffix.length_le
      simp only [List.length_cons]
      omega
    have hread (behind : List Char) (bound : Nat) :
        nameFrom (bound + 1) first escaped name ('\\' :: 'u' :: text ++ behind) =
          if code.isValidChar && (if first then startsName (Char.ofNat code)
            else continuesName (Char.ofNat code)) then
            nameFrom bound false true (Char.ofNat code :: name) (rest ++ behind)
          else Option.none := by
      simp only [List.cons_append, nameFrom, hfound]
    by_cases hfits : (code.isValidChar && (if first then startsName (Char.ofNat code)
        else continuesName (Char.ofNat code))) = true
    · exact (hrest hclosed hsuffix).pass hlonger hlength fun behind bound => by
        rw [hread, if_pos hfits]
    · exact .none fun behind bound => by rw [hread, if_neg hfits]

/-- The induction is on the length of the text, of which an escape takes several characters. -/
theorem name_within (h : Closed text) (first escaped : Bool) (name : List Char) :
    NameWithin first escaped name text := by
  generalize hlength : text.length = length
  induction length using Nat.strong_induction_on generalizing text first escaped name with
  | _ length ih =>
    subst hlength
    obtain ⟨c, text, rfl⟩ := List.exists_cons_of_ne_nil h.ne_nil
    have hsuffix := List.suffix_cons c text
    by_cases hescape : c = '\\'
    · subst hescape
      obtain ⟨d, text, rfl⟩ := List.exists_cons_of_ne_nil (h.tail (by decide)).ne_nil
      by_cases hletter : d = 'u'
      · subst hletter
        refine name_within_escape h fun {rest _} hrest hsuffix => ih rest.length ?_ hrest _ _ _ rfl
        have := hsuffix.length_le
        simp only [List.length_cons]
        omega
      · refine .none fun behind bound => ?_
        rw [List.cons_append, List.cons_append, nameFrom]
        rintro _ ⟨⟩
        exact hletter rfl
    · have hread (behind : List Char) (bound : Nat) :
          nameFrom (bound + 1) first escaped name (c :: text ++ behind) =
            if (if first then startsName c else continuesName c) then
              nameFrom bound false escaped (c :: name) (text ++ behind)
            else if first then none else some (name.reverse, escaped, c :: text ++ behind) := by
        rw [List.cons_append, nameFrom]
        · exact fun _ heq _ => hescape heq
        · exact hescape
      by_cases hfits : (if first then startsName c else continuesName c) = true
      · have hclosed : Closed text := by
          cases first with
          | true => exact h.tail_of startsName hfits starts_closers
          | false => exact h.tail_of continuesName hfits continues_closers
        refine (ih text.length (Nat.lt_succ_self _) hclosed false escaped (c :: name) rfl).pass
          hsuffix (Nat.lt_succ_self _) fun behind bound => ?_
        rw [hread, if_pos hfits]
      · cases first with
        | true => exact .none fun behind bound => by rw [hread, if_neg hfits, if_pos rfl]
        | false =>
            refine .inr ⟨(name.reverse, escaped), c :: text, h, List.suffix_rfl,
              fun behind bound hbound => ?_⟩
            obtain ⟨bound, rfl⟩ := Nat.exists_eq_add_of_lt hbound
            rw [hread, if_neg hfits, if_neg Bool.false_ne_true]

theorem local_name (h : Closed text) :
    Local (fun (found : List Char × Bool) rest => (found.1, found.2, rest)) name? text := by
  have hbound (behind : List Char) : text.length < (text ++ behind).length + 1 := by
    rw [List.length_append]
    omega
  rcases name_within h true false [] with hnone | ⟨found, rest, hrest, hsuffix, hfound⟩
  · exact .inl fun behind => hnone behind _ (hbound behind)
  · exact .found found hrest hsuffix fun behind => hfound behind _ (hbound behind)

/-! ## Strings -/

theorem line_behind_inline (h : isLineEnd c = false) : lineBehind c line = line := by
  unfold lineBehind
  rw [if_neg]
  rintro rfl
  exact absurd h (by decide)

/-- Where a line goes on, none ends. -/
theorem line_end_none (h : Closed text) (behind : List Char) : lineEnd? (text ++ behind) = none := by
  obtain ⟨c, text, rfl⟩ := List.exists_cons_of_ne_nil h.ne_nil
  have hc := h.inline c List.mem_cons_self
  have hne {other : Char} (hother : isLineEnd other = true) : c ≠ other := by
    rintro rfl
    exact Bool.false_ne_true (hc.symm.trans hother)
  rw [List.cons_append, lineEnd?]
  · rw [hc, if_neg Bool.false_ne_true]
  · exact fun _ heq _ => hne (by decide) heq
  · exact hne (by decide)

/-- A character of a string that is no backslash. -/
theorem string_body_cons {quote : Char} {start : Nat} {legacy : Bool} {written : List Char}
    (hescape : c ≠ '\\') (hc : isLineEnd c = false) :
    stringBody quote start (bound + 1) (c :: text) line legacy written =
      if c = quote then .ok (.string written.reverse legacy, ⟨text, line⟩)
      else stringBody quote start bound text line legacy (c :: written) := by
  have hend : ¬(c = '\n' ∨ c = '\r') := by
    rintro (rfl | rfl) <;> exact absurd hc (by decide)
  rw [stringBody]
  · rw [if_neg hend, line_behind_inline hc]
  · exact hescape

section

variable {quote : Char} {start : Nat} {legacy legacy' : Bool} {written written' : List Char}
  {token : Token} {after : Place}

/-- A string ends before the line does, and is the same, whatever stands behind the line. -/
def StringWithin (quote : Char) (left : List Char) (line : Nat) (token : Token) (after : Place)
    (text : List Char) (legacy : Bool) (written : List Char) : Prop :=
  ∃ rest, Closed rest ∧ rest <:+ text ∧ after = ⟨rest ++ '\n' :: left, line⟩ ∧
    ∀ behind start bound line, text.length < bound →
      stringBody quote start bound (text ++ behind) line legacy written =
        .ok (token, ⟨rest ++ behind, line⟩)

theorem StringWithin.pass (h : StringWithin quote left line token after rest legacy' written')
    (hsuffix : rest <:+ text) (hlength : rest.length < text.length)
    (hbody : ∀ behind start bound line,
      stringBody quote start (bound + 1) (text ++ behind) line legacy written =
        stringBody quote start bound (rest ++ behind) line legacy' written') :
    StringWithin quote left line token after text legacy written := by
  obtain ⟨others, hothers, hshorter, hafter, hall⟩ := h
  refine ⟨others, hothers, hshorter.trans hsuffix, hafter, fun behind start bound line hbound => ?_⟩
  obtain ⟨bound, rfl⟩ := Nat.exists_eq_add_of_lt hbound
  rw [hbody]
  exact hall behind start _ line (Nat.lt_add_right bound hlength)

/-- An escape in a string is invalid or is passed over. -/
theorem escape_string_step (h : Closed ('\\' :: text)) (legacy : Bool) (written : List Char) :
    (∀ behind start bound line,
      stringBody quote start (bound + 1) ('\\' :: text ++ behind) line legacy written =
        .error line) ∨
    ∃ rest legacy', rest <:+ text ∧ ∀ behind start bound line,
      stringBody quote start (bound + 1) ('\\' :: text ++ behind) line legacy written =
        stringBody quote start bound (rest ++ behind) line legacy' ('\\' :: written) := by
  have htail := h.tail (by decide)
  have hend := line_end_none htail
  rcases escape_within htail with hinvalid | ⟨rest, hrest, hplain | hlegacy⟩
  · refine .inl fun behind _ _ _ => ?_
    rw [List.cons_append, stringBody, hend, hinvalid]
  · refine .inr ⟨rest, legacy, hrest, fun behind _ _ _ => ?_⟩
    rw [List.cons_append, stringBody, hend, hplain]
  · refine .inr ⟨rest, true, hrest, fun behind _ _ _ => ?_⟩
    rw [List.cons_append, stringBody, hend, hlegacy]

/-- A string that is read ends in the line in which it starts. The induction is on the bound. -/
theorem string_within (hquote : quote = '"' ∨ quote = '\'') (h : text = [] ∨ Closed text)
    (hread : stringBody quote start bound (text ++ '\n' :: left) line legacy written =
      .ok (token, after)) : StringWithin quote left line token after text legacy written := by
  induction bound generalizing text legacy written with
  | zero => exact nomatch hread
  | succ bound ih =>
      rcases h with rfl | h
      · rcases hquote with rfl | rfl <;> exact nomatch hread
      obtain ⟨c, text, rfl⟩ := List.exists_cons_of_ne_nil h.ne_nil
      have hsuffix := List.suffix_cons c text
      by_cases hescape : c = '\\'
      · subst hescape
        rcases escape_string_step h legacy written with hfault | ⟨rest, legacy', hrest, hbody⟩
        · rw [hfault] at hread
          exact nomatch hread
        · have hlonger := hrest.trans hsuffix
          rw [hbody] at hread
          exact (ih (h.nil_or_suffix hlonger) hread).pass hlonger
            (Nat.lt_succ_of_le hrest.length_le) hbody
      · have hc := h.inline c List.mem_cons_self
        by_cases hq : c = quote
        · subst hq
          rw [List.cons_append, string_body_cons hescape hc, if_pos rfl] at hread
          obtain ⟨rfl, rfl⟩ := Prod.mk.inj (Except.ok.inj hread)
          have hcloser : c ∉ closers := by
            rcases hquote with rfl | rfl <;> decide
          refine ⟨text, h.tail hcloser, hsuffix, rfl, fun behind start bound line hbound => ?_⟩
          obtain ⟨bound, rfl⟩ := Nat.exists_eq_add_of_lt hbound
          rw [List.cons_append, string_body_cons hescape hc, if_pos rfl]
        · have hbody (behind : List Char) (start bound line : Nat) :
              stringBody quote start (bound + 1) (c :: text ++ behind) line legacy written =
                stringBody quote start bound (text ++ behind) line legacy (c :: written) := by
            rw [List.cons_append, string_body_cons hescape hc, if_neg hq]
          rw [hbody] at hread
          exact (ih (h.nil_or_suffix hsuffix) hread).pass hsuffix (Nat.lt_succ_self _) hbody

end

theorem token_of_string_body {quote : Char} {start : Nat} {legacy : Bool} {written : List Char}
    {token : Token} {after : Place}
    (h : stringBody quote start bound text line legacy written = .ok (token, after)) :
    ∃ written legacy, token = .string written legacy := by
  induction bound generalizing text line legacy written with
  | zero => exact nomatch h
  | succ bound ih =>
      unfold stringBody at h
      split at h
      · exact nomatch h
      · split at h
        · exact ih h
        · split at h
          · exact ih h
          · exact ih h
          · exact nomatch h
      · split_ifs at h
        · obtain ⟨rfl, -⟩ := Prod.mk.inj (Except.ok.inj h)
          exact ⟨_, _, rfl⟩
        · exact ih h

/-! ## Signs -/

/-- Looking for a pattern in a text and what stands behind it, if the pattern does not go on behind
the text. -/
theorem after_append (h : text <+: pattern → text = pattern) (behind : List Char) :
    after? pattern (text ++ behind) = (after? pattern text).map (· ++ behind) := by
  cases hafter : after? pattern text with
  | some rest =>
      rw [after_eq_some_iff] at hafter
      rw [Option.map_some, after_eq_some_iff, hafter, List.append_assoc]
  | none =>
      rw [Option.map_none, Text.after_eq_none_iff]
      rw [Text.after_eq_none_iff] at hafter
      intro hprefix
      rcases List.prefix_or_prefix_of_prefix hprefix (List.prefix_append text behind) with
        hinside | hlonger
      · exact hafter hinside
      · exact hafter (h hlonger ▸ List.prefix_rfl)

/-- Only two signs at the end of a line are the start of others. -/
theorem sign_of_prefix : ∀ sign ∈ signs, ∀ text ∈ sign.toList.inits, text ≠ [] → EndsLine text →
    text = sign.toList ∨ text = ['+'] ∨ text = ['='] := by
  decide

/-- Behind the signs at the end of a line no statement ends. -/
theorem settles_of_ends : ∀ sign ∈ signs, EndsLine sign.toList →
    (Token.sign sign).settles = false := by
  decide

theorem find_some_congr {f g : α → Option β} {list : List α} (h : ∀ x ∈ list, f x = g x) :
    list.findSome? f = list.findSome? g := by
  induction list with
  | nil => rfl
  | cons x list ih =>
      rw [List.findSome?_cons, List.findSome?_cons, h x List.mem_cons_self,
        ih fun y hy => h y (List.mem_cons_of_mem _ hy)]

/-- A question mark and a dot at the front of the text are one sign. -/
def joinsDot : List Char → Bool
  | '?' :: '.' :: c :: _ => !c.isDigit
  | _ => true

theorem sign_eq (text : List Char) : sign? text = signs.findSome? fun sign =>
    if sign = "?." && !joinsDot text then none
    else (after? sign.toList text).map fun rest => (sign, rest) :=
  rfl

/-- A sign is read from the front of the text. -/
theorem of_sign_eq_some {sign : String} (h : sign? text = some (sign, rest)) :
    sign ∈ signs ∧ text = sign.toList ++ rest := by
  rw [sign_eq] at h
  obtain ⟨found, hfound, hpattern⟩ := List.exists_of_findSome?_eq_some h
  rw [Option.ite_none_left_eq_some, Option.map_eq_some_iff] at hpattern
  obtain ⟨-, rest, hafter, heq⟩ := hpattern
  obtain ⟨rfl, rfl⟩ := Prod.mk.inj heq
  exact ⟨hfound, after_eq_some_iff.mp hafter⟩

theorem joins_dot_append (h : Closed text) (behind : List Char) :
    joinsDot (text ++ behind) = joinsDot text := by
  obtain ⟨c, text, rfl⟩ := List.exists_cons_of_ne_nil h.ne_nil
  by_cases hc : c = '?'
  · subst hc
    have htail := h.tail (by decide)
    obtain ⟨d, text, rfl⟩ := List.exists_cons_of_ne_nil htail.ne_nil
    by_cases hd : d = '.'
    · subst hd
      obtain ⟨e, text, rfl⟩ := List.exists_cons_of_ne_nil (htail.tail (by decide)).ne_nil
      rfl
    · simp [joinsDot, hd]
  · simp [joinsDot, hc]

/-- A sign in a line is the same, whatever stands behind the line, but for two signs. -/
theorem sign_append (h : Closed text) (hplus : text ≠ ['+']) (hequals : text ≠ ['='])
    (behind : List Char) :
    sign? (text ++ behind) = (sign? text).map fun (sign, rest) => (sign, rest ++ behind) := by
  rw [sign_eq, sign_eq, joins_dot_append h, List.map_findSome?]
  refine find_some_congr fun sign hsign => ?_
  have hafter : after? sign.toList (text ++ behind) =
      (after? sign.toList text).map (· ++ behind) := by
    refine after_append (fun hprefix => ?_) behind
    rcases sign_of_prefix sign hsign text ((List.mem_inits _ _).mpr hprefix) h.ne_nil h.ends with
      heq | heq | heq
    · exact heq
    · exact absurd heq hplus
    · exact absurd heq hequals
  rw [hafter, Function.comp_apply]
  split_ifs
  · rfl
  · rw [Option.map_map, Option.map_map]
    rfl

/-- What stands behind the line goes on with no sign that ends the line. -/
def Links (text right : List Char) : Prop :=
  text.getLast? = some '+' ∨ text.getLast? = some '=' →
    ∃ c rest, c ∈ ['(', '\'', '_'] ∧ right = c :: rest

theorem Links.of_suffix (h : Links text right) (hsuffix : rest <:+ text) : Links rest right := by
  intro hlast
  obtain ⟨front, rfl⟩ := hsuffix
  refine h ?_
  rw [List.getLast?_append]
  rcases hlast with hlast | hlast
  · exact .inl (by rw [hlast]; rfl)
  · exact .inr (by rw [hlast]; rfl)

/-- A sign that is read in a line is read there, whatever goes on behind it. -/
theorem sign_within (h : Closed text) (hlink : Links text right) {sign : String}
    (hread : sign? (text ++ '\n' :: left) = some (sign, behind)) :
    ∃ rest, rest <:+ text ∧ (rest = [] → (Token.sign sign).settles = false) ∧
      behind = rest ++ '\n' :: left ∧ sign? (text ++ right) = some (sign, rest ++ right) := by
  -- a plus or an equals sign alone could go on behind the line, but none of what stands there
  -- continues it
  have hsingle {c : Char} (htext : text = [c]) (hlast : c = '+' ∨ c = '=')
      (hends : (Token.sign c.toString).settles = false)
      (halone : ∀ next ∈ ['\n', '(', '\'', '_'], ∀ rest,
        sign? (c :: next :: rest) = some (c.toString, next :: rest)) :
      ∃ rest, rest <:+ text ∧ (rest = [] → (Token.sign sign).settles = false) ∧
        behind = rest ++ '\n' :: left ∧ sign? (text ++ right) = some (sign, rest ++ right) := by
    subst htext
    obtain ⟨next, rest, hnext, rfl⟩ := hlink (by rcases hlast with rfl | rfl <;> decide)
    obtain ⟨rfl, rfl⟩ := Prod.mk.inj
      (Option.some.inj ((halone '\n' (by decide) left).symm.trans hread))
    exact ⟨[], List.nil_suffix, fun _ => hends, rfl, halone next (List.mem_cons_of_mem _ hnext) rest⟩
  by_cases hplus : text = ['+']
  · refine hsingle hplus (.inl rfl) (by decide) fun next hnext rest => ?_
    simp only [List.mem_cons, List.not_mem_nil, or_false] at hnext
    rcases hnext with rfl | rfl | rfl | rfl <;> rfl
  · by_cases hequals : text = ['=']
    · refine hsingle hequals (.inr rfl) (by decide) fun next hnext rest => ?_
      simp only [List.mem_cons, List.not_mem_nil, or_false] at hnext
      rcases hnext with rfl | rfl | rfl | rfl <;> rfl
    · rw [sign_append h hplus hequals, Option.map_eq_some_iff] at hread
      obtain ⟨⟨found, rest⟩, hfound, heq⟩ := hread
      obtain ⟨rfl, rfl⟩ := Prod.mk.inj heq
      have hall := sign_append h hplus hequals right
      rw [hfound] at hall
      obtain ⟨hsign, htext⟩ := of_sign_eq_some hfound
      refine ⟨rest, ⟨_, htext.symm⟩, fun hrest => ?_, rfl, hall⟩
      rw [hrest, List.append_nil] at htext
      exact settles_of_ends _ hsign (htext ▸ h.ends)

/-! ## Tokens -/

/-- Whether a number starts is seen in the line. -/
theorem starts_number_iff (h : Closed (c :: text)) (behind : List Char) :
    (c.isDigit = true ∨ c = '.' ∧ (text ++ behind).head?.any Char.isDigit = true) ↔
      (c.isDigit = true ∨ c = '.' ∧ text.head?.any Char.isDigit = true) := by
  by_cases hc : c = '.'
  · subst hc
    obtain ⟨d, text, rfl⟩ := List.exists_cons_of_ne_nil (h.tail (by decide)).ne_nil
    rfl
  · simp [hc]

theorem local_any_number (h : Closed (c :: text)) :
    Local Prod.mk (fun text => if c = '.' then (fraction? text).map (false, ·) else number? text)
      (c :: text) := by
  split_ifs
  · exact local_form false (local_fraction h)
  · exact local_number h

/-- A token that is read in a line is read there, whatever goes on behind the line. At the end of the
line it is one behind which no statement ends. -/
theorem token_within (h : Closed text) (hlink : Links text right) {token : Token} {after : Place}
    (hread : tokenAt (text ++ '\n' :: left) line = .ok (token, after)) :
    ∃ rest, rest <:+ text ∧ (rest = [] → token.settles = false) ∧
      after = ⟨rest ++ '\n' :: left, line⟩ ∧
      ∀ line, tokenAt (text ++ right) line = .ok (token, ⟨rest ++ right, line⟩) := by
  obtain ⟨c, text, rfl⟩ := List.exists_cons_of_ne_nil h.ne_nil
  have hsuffix := List.suffix_cons c text
  have hinside {rest : List Char} (hrest : Closed rest) : rest = [] → token.settles = false :=
    fun heq => absurd heq hrest.ne_nil
  rw [List.cons_append] at hread
  -- the first character tells the kind of the token, and it stands in the line on both sides
  unfold tokenAt at hread ⊢
  simp only [List.cons_append, starts_number_iff h] at hread ⊢
  by_cases hquote : c = '"' ∨ c = '\''
  · simp only [hquote, if_true] at hread ⊢
    have hcloser : c ∉ closers := by
      rcases hquote with rfl | rfl <;> decide
    obtain ⟨rest, hrest, hshorter, rfl, hall⟩ :=
      string_within hquote (.inr (h.tail hcloser)) hread
    refine ⟨rest, hshorter.trans hsuffix, hinside hrest, rfl, fun line => ?_⟩
    refine hall right line _ line ?_
    rw [List.length_append]
    omega
  simp only [hquote, if_false] at hread ⊢
  by_cases hnumber : c.isDigit = true ∨ c = '.' ∧ text.head?.any Char.isDigit = true
  · simp only [hnumber, if_true] at hread ⊢
    rcases local_any_number h with hnone | ⟨legacy, rest, hrest, hshorter, hfound⟩
    · simp only [← List.cons_append, hnone] at hread
      exact nomatch hread
    · simp only [← List.cons_append, hfound, ends_number_append hrest] at hread ⊢
      split_ifs at hread with hend
      obtain ⟨rfl, rfl⟩ := Prod.mk.inj (Except.ok.inj hread)
      exact ⟨rest, hshorter, hinside hrest, rfl, fun line => by rw [if_pos hend]⟩
  simp only [hnumber, if_false] at hread ⊢
  by_cases hhidden : c = '#'
  · subst hhidden
    simp only [if_true] at hread ⊢
    rcases local_name (h.tail (by decide)) with hnone | ⟨name, rest, hrest, hshorter, hfound⟩
    · rw [hnone] at hread
      exact nomatch hread
    · rw [hfound] at hread
      obtain ⟨rfl, rfl⟩ := Prod.mk.inj (Except.ok.inj hread)
      exact ⟨rest, hshorter.trans hsuffix, hinside hrest, rfl, fun line => by rw [hfound]⟩
  simp only [hhidden, if_false] at hread ⊢
  by_cases hname : startsName c = true ∨ c = '\\'
  · simp only [hname, if_true] at hread ⊢
    rcases local_name h with hnone | ⟨name, rest, hrest, hshorter, hfound⟩
    · rw [← List.cons_append, hnone] at hread
      exact nomatch hread
    · simp only [← List.cons_append, hfound] at hread ⊢
      obtain ⟨rfl, rfl⟩ := Prod.mk.inj (Except.ok.inj hread)
      exact ⟨rest, hshorter, hinside hrest, rfl, fun line => rfl⟩
  simp only [hname, if_false] at hread ⊢
  cases hscan : sign? (c :: (text ++ '\n' :: left)) with
  | none =>
      rw [hscan] at hread
      exact nomatch hread
  | some found =>
      obtain ⟨rest, hshorter, hends, hbehind, hother⟩ := sign_within h hlink hscan
      rw [hscan] at hread
      obtain ⟨rfl, rfl⟩ := Prod.mk.inj (Except.ok.inj hread)
      refine ⟨rest, hshorter, hends, by rw [hbehind], fun line => ?_⟩
      rw [← List.cons_append, hother]

/-- A sign is read from the front of the text. -/
theorem prefix_of_token_sign {sign : String} {after : Place}
    (h : tokenAt text line = .ok (.sign sign, after)) : sign.toList <+: text := by
  cases text with
  | nil => exact nomatch h
  | cons c text =>
      unfold tokenAt at h
      simp only at h
      split_ifs at h
      · obtain ⟨_, _, htoken⟩ := token_of_string_body h
        exact nomatch htoken
      · split at h
        · split_ifs at h
          exact nomatch (Prod.mk.inj (Except.ok.inj h)).1
        · exact nomatch h
      · split at h
        · split_ifs at h
          exact nomatch (Prod.mk.inj (Except.ok.inj h)).1
        · exact nomatch h
      · split at h
        · exact nomatch (Prod.mk.inj (Except.ok.inj h)).1
        · exact nomatch h
      · split at h
        · exact nomatch (Prod.mk.inj (Except.ok.inj h)).1
        · exact nomatch h
      · split at h
        · obtain ⟨htoken, -⟩ := Prod.mk.inj (Except.ok.inj h)
          obtain rfl := Token.sign.inj htoken
          exact ⟨_, (of_sign_eq_some ‹_›).2.symm⟩
        · exact nomatch h

/-! ## Regular expressions -/

/-- A character of a regular expression that is no backslash. -/
theorem regex_body_cons {inSet : Bool} (hescape : c ≠ '\\') (hc : isLineEnd c = false) :
    regexBody? inSet (c :: text) =
      if c = '[' then regexBody? true text
      else if c = ']' then regexBody? false text
      else if c = '/' ∧ !inSet then some text
      else regexBody? inSet text := by
  rw [regexBody?]
  · rw [if_neg (by rw [hc]; exact not_or.mpr ⟨Bool.false_ne_true, hescape⟩)]
  · exact fun _ _ heq _ => hescape heq

/-- The body of a regular expression ends in the line in which it starts. The induction is on the
length of the text, of which an escape takes two characters. -/
theorem regex_body_within (h : text = [] ∨ Closed text) (inSet : Bool)
    (hread : regexBody? inSet (text ++ '\n' :: left) = some behind) :
    ∃ rest, Closed rest ∧ rest <:+ text ∧ behind = rest ++ '\n' :: left ∧
      ∀ right, regexBody? inSet (text ++ right) = some (rest ++ right) := by
  generalize hlength : text.length = length
  induction length using Nat.strong_induction_on generalizing text inSet with
  | _ length ih =>
    subst hlength
    rcases h with rfl | h
    · exact nomatch hread
    obtain ⟨c, text, rfl⟩ := List.exists_cons_of_ne_nil h.ne_nil
    have hsuffix := List.suffix_cons c text
    -- each step leaves a shorter part of the line, and the same one whatever stands behind it
    have hgo (inSet' : Bool) {others : List Char} (hothers : others <:+ text)
        (hbody : ∀ behind, regexBody? inSet (c :: text ++ behind) =
          regexBody? inSet' (others ++ behind)) :
        ∃ rest, Closed rest ∧ rest <:+ c :: text ∧ behind = rest ++ '\n' :: left ∧
          ∀ right, regexBody? inSet (c :: text ++ right) = some (rest ++ right) := by
      rw [hbody] at hread
      have hshort : others.length < (c :: text).length := Nat.lt_succ_of_le hothers.length_le
      obtain ⟨rest, hrest, hshorter, heq, hall⟩ :=
        ih _ hshort (h.nil_or_suffix (hothers.trans hsuffix)) inSet' hread rfl
      refine ⟨rest, hrest, (hshorter.trans hothers).trans hsuffix, heq, fun right => ?_⟩
      rw [hbody, hall]
    by_cases hescape : c = '\\'
    · subst hescape
      have htail := h.tail (by decide)
      obtain ⟨d, text, rfl⟩ := List.exists_cons_of_ne_nil htail.ne_nil
      refine hgo inSet (List.suffix_cons d text) fun behind => ?_
      rw [List.cons_append, List.cons_append, regexBody?,
        htail.inline d List.mem_cons_self, if_neg Bool.false_ne_true]
    · have hc := h.inline c List.mem_cons_self
      have hbody (behind : List Char) :=
        @regex_body_cons (text ++ behind) c inSet hescape hc
      by_cases hopen : c = '['
      · exact hgo true List.suffix_rfl fun behind => by
          rw [List.cons_append, hbody, if_pos hopen]
      by_cases hclose : c = ']'
      · exact hgo false List.suffix_rfl fun behind => by
          rw [List.cons_append, hbody, if_neg hopen, if_pos hclose]
      by_cases hend : c = '/' ∧ !inSet
      · have hall (behind : List Char) :
            regexBody? inSet (c :: text ++ behind) = some (text ++ behind) := by
          rw [List.cons_append, hbody, if_neg hopen, if_neg hclose, if_pos hend]
        rw [hall, Option.some.injEq] at hread
        refine ⟨text, h.tail (by rw [hend.1]; decide), hsuffix, hread.symm, hall⟩
      · exact hgo inSet List.suffix_rfl fun behind => by
          rw [List.cons_append, hbody, if_neg hopen, if_neg hclose, if_neg hend]

/-- A regular expression lies within a line. -/
theorem regex_within (h : Closed (c :: text)) (hc : c ∉ closers) {place : Place}
    (hread : regexAt ⟨c :: text ++ '\n' :: left, line⟩ = .ok place) :
    ∃ rest, Closed rest ∧ rest <:+ text ∧ place = ⟨rest ++ '\n' :: left, line⟩ ∧
      ∀ right line, regexAt ⟨c :: text ++ right, line⟩ = .ok ⟨rest ++ right, line⟩ := by
  unfold regexAt at hread ⊢
  simp only [List.cons_append, List.tail_cons] at hread ⊢
  cases hbody : regexBody? false (text ++ '\n' :: left) with
  | none =>
      rw [hbody] at hread
      exact nomatch hread
  | some behind =>
      obtain ⟨rest, hrest, hsuffix, rfl, hall⟩ := regex_body_within (.inr (h.tail hc)) false hbody
      obtain ⟨hdrop, hflags⟩ := hrest.drop_while continuesName continues_closers
      have hleft := (List.dropWhile_suffix continuesName).trans hsuffix
      have hdropped (behind : List Char) :
          (rest ++ behind).drop (rest.takeWhile continuesName).length =
            rest.dropWhile continuesName ++ behind := by
        rw [← (hflags behind).2, ← (hflags behind).1]
        nth_rewrite 2 [← List.takeWhile_append_dropWhile (p := continuesName) (l := rest ++ behind)]
        exact List.drop_left
      have hhead (behind : List Char) : (rest.dropWhile continuesName ++ behind).head? =
          (rest.dropWhile continuesName).head? := by
        rw [List.head?_append_of_ne_nil _ hdrop.ne_nil]
      simp only [hall, (hflags _).1, hdropped, hhead] at hread ⊢
      split_ifs at hread with hvalid
      obtain rfl := Except.ok.inj hread
      exact ⟨_, hdrop, hleft, rfl, fun right line => if_pos hvalid⟩

/-! ## Templates -/

/-- The text of a template goes on behind a line or ends in it; `faulty` says that the line holds an
escape that only tagged templates may hold. -/
inductive TemplateWithin (text : List Char) (faulty : Bool) : Prop where
  /-- It goes on behind the line. -/
  | passes (h : ∀ behind bound line fault, (text ++ behind).length < bound →
      ∃ bound' fault', templateText bound (text ++ behind) line fault =
          templateText bound' behind line fault' ∧ behind.length < bound' ∧
        fault'.isSome = (faulty || fault.isSome))
  /-- It ends in the line. -/
  | stops (opens : Bool) (rest : List Char) (hrest : Closed rest) (hsuffix : rest <:+ text)
      (hsign : '\x60' ∈ text ∨ ['$', '\x7b'] <:+: text)
      (h : ∀ behind bound line fault, (text ++ behind).length < bound →
        ∃ fault', templateText bound (text ++ behind) line fault =
            .ok ⟨opens, fault', ⟨rest ++ behind, line⟩⟩ ∧
          fault'.isSome = (faulty || fault.isSome))

/-- The reading of a template goes from a text on to a part of it, wherever the text stands; `here`
says that an escape is passed that only tagged templates may hold. -/
def TemplateStep (here : Bool) (text rest : List Char) : Prop :=
  ∀ behind bound line fault, ∃ fault',
    templateText (bound + 1) (text ++ behind) line fault =
      templateText bound (rest ++ behind) line fault' ∧
    fault'.isSome = (here || fault.isSome)

theorem TemplateWithin.pass {faulty here : Bool} (h : TemplateWithin rest faulty)
    (hsuffix : rest <:+ text) (hlength : rest.length < text.length)
    (hstep : TemplateStep here text rest) : TemplateWithin text (faulty || here) := by
  cases h with
  | passes h =>
      refine .passes fun behind bound line fault hbound => ?_
      obtain ⟨bound, rfl⟩ := Nat.exists_eq_add_of_lt hbound
      obtain ⟨fault₁, hread, hsome⟩ := hstep behind ((text ++ behind).length + bound) line fault
      have hshort : (rest ++ behind).length < (text ++ behind).length + bound := by
        simp only [List.length_append]
        omega
      obtain ⟨bound', fault', hread', hbound', hsome'⟩ := h behind _ line fault₁ hshort
      exact ⟨bound', fault', hread.trans hread', hbound', by rw [hsome', hsome, Bool.or_assoc]⟩
  | stops opens left hleft hshorter hsign h =>
      refine .stops opens left hleft (hshorter.trans hsuffix) (hsign.imp (hsuffix.subset ·)
        (·.trans hsuffix.isInfix)) fun behind bound line fault hbound => ?_
      obtain ⟨bound, rfl⟩ := Nat.exists_eq_add_of_lt hbound
      obtain ⟨fault₁, hread, hsome⟩ := hstep behind ((text ++ behind).length + bound) line fault
      have hshort : (rest ++ behind).length < (text ++ behind).length + bound := by
        simp only [List.length_append]
        omega
      obtain ⟨fault', hread', hsome'⟩ := h behind _ line fault₁ hshort
      exact ⟨fault', hread.trans hread', by rw [hsome', hsome, Bool.or_assoc]⟩

/-- The reading ends here if it does so with any bound that is not zero. -/
theorem TemplateWithin.stop (opens : Bool) (hrest : Closed rest) (hsuffix : rest <:+ text)
    (hsign : '\x60' ∈ text ∨ ['$', '\x7b'] <:+: text)
    (hread : ∀ behind bound line fault, templateText (bound + 1) (text ++ behind) line fault =
      .ok ⟨opens, fault, ⟨rest ++ behind, line⟩⟩) : TemplateWithin text false := by
  refine .stops opens rest hrest hsuffix hsign fun behind bound line fault hbound => ?_
  obtain ⟨bound, rfl⟩ := Nat.exists_eq_add_of_lt hbound
  exact ⟨fault, hread behind _ line fault, (Bool.false_or _).symm⟩

/-- What an escape in a template stands for is not looked at, only where it ends. -/
theorem escape_template_step (h : Closed ('\\' :: text)) :
    ∃ here rest, rest <:+ text ∧ TemplateStep here ('\\' :: text) rest := by
  have htail := h.tail (by decide)
  obtain ⟨d, text, rfl⟩ := List.exists_cons_of_ne_nil htail.ne_nil
  have hd := htail.inline d List.mem_cons_self
  rcases escape_within htail with hinvalid | ⟨rest, hrest, hplain | hlegacy⟩
  · refine ⟨true, text, List.suffix_cons d text, fun behind bound line fault =>
      ⟨fault <|> some line, ?_, by simp⟩⟩
    have hread := hinvalid behind
    rw [List.cons_append] at hread
    simp only [List.cons_append, templateText, hread]
  · refine ⟨false, rest, hrest, fun behind bound line fault => ⟨fault, ?_, rfl⟩⟩
    have hread := hplain behind
    rw [List.cons_append] at hread
    simp only [List.cons_append, templateText, hread, hd, Bool.false_eq_true, if_false]
  · refine ⟨true, rest, hrest, fun behind bound line fault => ⟨fault <|> some line, ?_, by simp⟩⟩
    have hread := hlegacy behind
    rw [List.cons_append] at hread
    simp only [List.cons_append, templateText, hread]

/-- A character that neither ends the text of a template nor escapes another is passed over. -/
theorem plain_template_step (h : Closed (c :: text)) (htick : c ≠ '\x60')
    (hopen : ¬(c = '$' ∧ text.head? = some '\x7b')) (hescape : c ≠ '\\') :
    TemplateStep false (c :: text) text := by
  refine fun behind bound line fault => ⟨fault, ?_, rfl⟩
  rw [List.cons_append, templateText, line_behind_inline (h.inline c List.mem_cons_self)]
  · exact htick
  · rintro rest hdollar hbrace
    -- The line goes on behind the dollar sign, so that the brace would be its own.
    obtain ⟨d, others, rfl⟩ := List.exists_cons_of_ne_nil
      (h.tail (by rw [hdollar]; decide)).ne_nil
    exact hopen ⟨hdollar, congrArg some (List.cons.inj hbrace).1⟩
  · exact fun _ _ heq _ => hescape heq

/-- The induction is on the length of the text, of which an escape takes several characters. -/
theorem template_within (h : text = [] ∨ Closed text) : ∃ faulty, TemplateWithin text faulty := by
  generalize hlength : text.length = length
  induction length using Nat.strong_induction_on generalizing text with
  | _ length ih =>
    subst hlength
    rcases h with rfl | h
    · exact ⟨false, .passes fun behind bound line fault hbound =>
        ⟨bound, fault, rfl, hbound, (Bool.false_or _).symm⟩⟩
    obtain ⟨c, text, rfl⟩ := List.exists_cons_of_ne_nil h.ne_nil
    have hsuffix := List.suffix_cons c text
    have hgo {here : Bool} {rest : List Char} (hrest : rest <:+ text)
        (hstep : TemplateStep here (c :: text) rest) :
        ∃ faulty, TemplateWithin (c :: text) faulty := by
      have hshort : rest.length < (c :: text).length := Nat.lt_succ_of_le hrest.length_le
      have hlonger := hrest.trans hsuffix
      obtain ⟨faulty, hfaulty⟩ := ih _ hshort (h.nil_or_suffix hlonger) rfl
      exact ⟨_, hfaulty.pass hlonger hshort hstep⟩
    by_cases htick : c = '\x60'
    · subst htick
      exact ⟨false, .stop false (h.tail (by decide)) hsuffix (.inl List.mem_cons_self)
        fun behind bound line fault => rfl⟩
    by_cases hopen : c = '$' ∧ text.head? = some '\x7b'
    · obtain ⟨rfl, hbrace⟩ := hopen
      obtain ⟨others, rfl⟩ := List.head?_eq_some_iff.mp hbrace
      exact ⟨false, .stop true (h.behind_glued (by decide) (by decide))
        ((List.suffix_cons _ _).trans hsuffix) (.inr ⟨[], others, rfl⟩)
        fun behind bound line fault => rfl⟩
    by_cases hescape : c = '\\'
    · subst hescape
      obtain ⟨here, rest, hrest, hstep⟩ := escape_template_step h
      exact hgo hrest hstep
    · exact hgo List.suffix_rfl (plain_template_step h htick hopen hescape)

/-! ## Gaps -/

/-- The text starts no comment that reaches behind it. -/
structure IsTame (text : List Char) : Prop where
  no_line : ¬ "//".toList <:+: text
  no_markup : ¬ "<!--".toList <:+: text
  closed : ∀ rest, "/*".toList ++ rest <:+ text → "*/".toList <:+: rest

theorem IsTame.of_suffix (h : IsTame text) (hsuffix : rest <:+ text) : IsTame rest where
  no_line := fun hline => h.no_line (hline.trans hsuffix.isInfix)
  no_markup := fun hmarkup => h.no_markup (hmarkup.trans hsuffix.isInfix)
  closed := fun rest hrest => h.closed rest (hrest.trans hsuffix)

theorem is_tame_iff : IsTame text ↔ ¬ "//".toList <:+: text ∧ ¬ "<!--".toList <:+: text ∧
    ∀ rest ∈ text.tails, "/*".toList <+: rest → "*/".toList <:+: rest.drop 2 := by
  constructor
  · rintro ⟨hline, hmarkup, hclosed⟩
    refine ⟨hline, hmarkup, fun rest hrest => ?_⟩
    rintro ⟨behind, rfl⟩
    exact hclosed behind ((List.mem_tails _ _).mp hrest)
  · rintro ⟨hline, hmarkup, hclosed⟩
    exact ⟨hline, hmarkup, fun rest hrest =>
      hclosed _ ((List.mem_tails _ _).mpr hrest) (List.prefix_append _ rest)⟩

instance : DecidablePred IsTame :=
  fun _ => decidable_of_iff' _ is_tame_iff

/-- A text without the first signs of comments. -/
theorem tame_of_not_mem (hslash : '/' ∉ text) (hless : '<' ∉ text) : IsTame text where
  no_line := fun hline => hslash (hline.subset (by decide))
  no_markup := fun hmarkup => hless (hmarkup.subset (by decide))
  closed := fun _ hrest => absurd (hrest.subset List.mem_cons_self) hslash

/-- A comment that is closed in the line. -/
theorem comment_within (h : Closed text) (hclosed : "*/".toList <:+: text) :
    ∃ rest, Closed rest ∧ rest <:+ text ∧ ∀ behind start line newline,
      skipGap (.blockComment start) (text ++ behind) line newline =
        skipGap .blank (rest ++ behind) line newline := by
  induction text with
  | nil => exact absurd rfl h.ne_nil
  | cons c text ih =>
      have hsuffix := List.suffix_cons c text
      by_cases hhere : "*/".toList <+: c :: text
      · obtain ⟨rest, hrest⟩ := hhere
        obtain ⟨rfl, rfl⟩ := List.cons.inj hrest
        have hslash := h.tail (by decide)
        exact ⟨rest, hslash.tail (by decide), (List.suffix_cons _ _).trans hsuffix,
          fun _ _ _ _ => rfl⟩
      · have hbehind := (List.infix_cons_iff.mp hclosed).resolve_left hhere
        have hne : text ≠ [] := by
          rintro rfl
          exact absurd hbehind (by decide)
        obtain ⟨rest, hrest, hshorter, hskip⟩ := ih (h.of_suffix hsuffix hne) hbehind
        refine ⟨rest, hrest, hshorter.trans hsuffix, fun behind start line newline => ?_⟩
        have hc := h.inline c List.mem_cons_self
        rw [List.cons_append, skipGap, hc, Bool.or_false, line_behind_inline hc, hskip]
        · rintro others rfl hslash
          obtain ⟨d, text, rfl⟩ := List.exists_cons_of_ne_nil hne
          obtain ⟨rfl, -⟩ := List.cons.inj hslash
          exact hhere ⟨text, rfl⟩

/-- Where a token starts nothing is passed over. -/
theorem skip_gap_here {newline : Bool} (hc : isLineEnd c = false) (hblank : isBlank c = false)
    (hline : ¬ "//".toList <+: c :: text) (hblock : ¬ "/*".toList <+: c :: text)
    (hmarkup : ¬ "<!--".toList <+: c :: text)
    (hclosing : ¬(newline = true ∧ "-->".toList <+: c :: text)) :
    skipGap .blank (c :: text) line newline = .ok (⟨c :: text, line⟩, newline) := by
  rw [skipGap]
  · have hprefix : ¬(newline && ['-', '-', '>'].isPrefixOf (c :: text)) = true := by
      rw [Bool.and_eq_true, List.isPrefixOf_iff_prefix]
      exact hclosing
    rw [hc, hblank, if_neg Bool.false_ne_true, if_neg Bool.false_ne_true, if_neg hprefix]
  · rintro rest rfl rfl
    exact hline ⟨rest, rfl⟩
  · rintro rest rfl rfl
    exact hblock ⟨rest, rfl⟩
  · rintro rest rfl rfl
    exact hmarkup ⟨rest, rfl⟩

/-- What stands between tokens in a line is the same, whatever stands behind the line. -/
theorem gap_within (h : Closed text) (htame : IsTame text) :
    ∃ rest, Closed rest ∧ rest <:+ text ∧ ∀ behind line newline,
      ¬(newline = true ∧ "-->".toList <+: rest) →
        skipGap .blank (text ++ behind) line newline = .ok (⟨rest ++ behind, line⟩, newline) := by
  generalize hlength : text.length = length
  induction length using Nat.strong_induction_on generalizing text with
  | _ length ih =>
    subst hlength
    obtain ⟨c, text, rfl⟩ := List.exists_cons_of_ne_nil h.ne_nil
    have hc := h.inline c List.mem_cons_self
    -- what is passed over leaves a shorter part of the line, which is still closed and tame
    have hgo {rest : List Char} (hrest : Closed rest) (hsuffix : rest <:+ text)
        (hskip : ∀ behind line newline, skipGap .blank (c :: text ++ behind) line newline =
          skipGap .blank (rest ++ behind) line newline) :
        ∃ rest, Closed rest ∧ rest <:+ c :: text ∧ ∀ behind line newline,
          ¬(newline = true ∧ "-->".toList <+: rest) →
            skipGap .blank (c :: text ++ behind) line newline =
              .ok (⟨rest ++ behind, line⟩, newline) := by
      have hlonger := hsuffix.trans (List.suffix_cons c text)
      have hshort : rest.length < (c :: text).length := Nat.lt_succ_of_le hsuffix.length_le
      obtain ⟨left, hleft, hshorter, hall⟩ := ih _ hshort hrest (htame.of_suffix hlonger) rfl
      refine ⟨left, hleft, hshorter.trans hlonger, fun behind line newline hclosing => ?_⟩
      rw [hskip, hall behind line newline hclosing]
    cases hblank : isBlank c with
    | true =>
        have htail := h.tail_of isBlank hblank (by decide)
        refine hgo htail List.suffix_rfl fun behind line newline => ?_
        rw [List.cons_append, skipGap, hc, hblank, if_neg Bool.false_ne_true, if_pos rfl]
        all_goals
          rintro rest rfl
          exact absurd hblank (by decide)
    | false =>
        by_cases hblock : "/*".toList <+: c :: text
        · obtain ⟨rest, hrest⟩ := hblock
          obtain ⟨rfl, rfl⟩ := List.cons.inj hrest
          have hstar := h.tail (by decide)
          obtain ⟨left, hleft, hshorter, hskip⟩ :=
            comment_within (hstar.tail (by decide)) (htame.closed rest List.suffix_rfl)
          refine hgo hleft (hshorter.trans (List.suffix_cons _ _)) fun behind line newline => ?_
          rw [← hskip behind line line newline]
          rfl
        · refine ⟨c :: text, h, List.suffix_rfl, fun behind line newline hclosing => ?_⟩
          have hinside {pattern : List Char} (hpattern : ∀ c ∈ closers, c ∉ pattern)
              (hno : ¬ pattern <+: c :: text) : ¬ pattern <+: c :: (text ++ behind) :=
            fun hprefix => hno (h.prefix_of_append hprefix hpattern)
          refine skip_gap_here hc hblank (hinside (by decide) ?_) (hinside (by decide) hblock)
            (hinside (by decide) ?_) fun hboth => ?_
          · exact fun hprefix => htame.no_line hprefix.isInfix
          · exact fun hprefix => htame.no_markup hprefix.isInfix
          · exact hclosing ⟨hboth.1, h.prefix_of_append hboth.2 (by decide)⟩

end TemplateBundle.Script

import Mathlib.Data.List.Forall2
import Mathlib.Data.List.TakeWhile
import Mathlib.Tactic.SplitIfs
import TemplateBundle.Glob.Pattern
import TemplateBundle.Path
import TemplateBundle.Proofs.Except

/-!
# Patterns as they are read

What a text is read as (`Reads`), without the positions that faults are told with. A component of a
pattern is read in the same way alone and with others (`Reads.before_separator`),
so that the components together are read as the whole (`reads_assemble`). Behind a directory only the
positions change (`of_text_behind`).
-/

namespace TemplateBundle.Glob

variable {previous : Option Char} {text rest behind : List Char} {token : Token}
  {pattern others : Pattern} {bound position : Nat}

/-- A component starts behind the character. -/
def StartsComponent (previous : Option Char) : Prop :=
  previous = none ∨ previous = some '/'

/-- A text is read as the pattern, where `previous` stands before it. -/
inductive Reads : Option Char → List Char → Pattern → Prop
  | nil {previous : Option Char} : Reads previous [] []
  | anyText {previous : Option Char} {rest : List Char} {pattern : Pattern} :
      rest.head? ≠ some '*' → Reads (some '*') rest pattern →
      Reads previous ('*' :: rest) (.anyText :: pattern)
  | anyComponents {previous : Option Char} : StartsComponent previous →
      Reads previous ['*', '*'] [.anyComponents]
  | anyComponentsBefore {previous : Option Char} {rest : List Char} {pattern : Pattern} :
      StartsComponent previous → Reads (some '/') rest pattern →
      Reads previous ('*' :: '*' :: '/' :: rest) (.anyComponents :: pattern)
  | bracket {previous : Option Char} {rest behind : List Char} {token : Token} {pattern : Pattern} :
      bracket? rest = some (token, behind) → Reads (some ']') behind pattern →
      Reads previous ('[' :: rest) (token :: pattern)
  | anyChar {previous : Option Char} {rest : List Char} {pattern : Pattern} :
      Reads (some '?') rest pattern → Reads previous ('?' :: rest) (.anyChar :: pattern)
  | char {previous : Option Char} {c : Char} {rest : List Char} {pattern : Pattern} :
      c ≠ '*' → c ≠ '[' → c ≠ '?' → Reads (some c) rest pattern →
      Reads previous (c :: rest) (.char c :: pattern)

/-! ## Reading step by step -/

theorem drop_take_while (p : Char → Bool) (text : List Char) :
    text.drop (text.takeWhile p).length = text.dropWhile p := by
  induction text with
  | nil => rfl
  | cons c text ih =>
      rw [List.takeWhile_cons, List.dropWhile_cons]
      split_ifs
      · exact ih
      · rfl

/-- A set of characters ends with the first closing bracket, which its first character is not. -/
theorem bracket_body_eq_some_iff {body : List Char} : bracketBody? text = some (body, behind) ↔
    ∃ first inner, text = first :: (inner ++ ']' :: behind) ∧ body = first :: inner ∧
      ']' ∉ inner := by
  constructor
  · intro h
    cases text with
    | nil => cases h
    | cons first text =>
        rw [bracketBody?] at h
        split at h
        · rename_i closing rest hdrop
          obtain ⟨rfl, rfl⟩ := Prod.mk.inj (Option.some.inj h)
          -- the set is cut at the first closing bracket behind its first character
          have hpieces :=
            List.takeWhile_append_dropWhile (p := fun c => decide (c ≠ ']')) (l := text)
          have hrest : text.dropWhile (fun c => decide (c ≠ ']')) = closing :: rest := by
            rw [← hdrop, drop_take_while]
          have hclosing := List.head?_dropWhile_not (fun c => decide (c ≠ ']')) text
          rw [hrest] at hpieces hclosing
          obtain rfl : closing = ']' := by simpa using hclosing
          refine ⟨first, _, congrArg (List.cons first) hpieces.symm, rfl, fun hmem => ?_⟩
          simpa using List.mem_takeWhile_imp hmem
        · cases h
  · rintro ⟨first, inner, rfl, rfl, hinner⟩
    have hkept : ∀ c ∈ inner, decide (c ≠ ']') = true := by
      intro c hc
      rw [decide_eq_true_iff]
      rintro rfl
      exact hinner hc
    rw [bracketBody?, List.takeWhile_append_of_pos hkept, List.takeWhile_cons_of_neg (by simp),
      List.append_nil, List.drop_left]

/-- A set of characters is one of those that are not meant behind an exclamation mark. -/
theorem bracket_eq_some_iff : bracket? text = some (token, behind) ↔
    (∃ rest body, text = '!' :: rest ∧ bracketBody? rest = some (body, behind) ∧
      token = .noneOf (rangesOf body)) ∨
    (text.head? ≠ some '!' ∧ ∃ body, bracketBody? text = some (body, behind) ∧
      token = .oneOf (rangesOf body)) := by
  unfold bracket?
  split
  · rename_i rest
    simp only [Option.map_eq_some_iff, Prod.exists, Prod.mk.injEq]
    constructor
    · rintro ⟨body, _, hbody, rfl, rfl⟩
      exact .inl ⟨rest, body, rfl, hbody, rfl⟩
    · rintro (⟨rest, body, ⟨⟩, hbody, rfl⟩ | ⟨hhead, -⟩)
      · exact ⟨body, behind, hbody, rfl, rfl⟩
      · exact absurd rfl hhead
  · rename_i hmark
    have hhead : text.head? ≠ some '!' := by
      intro hhead
      obtain ⟨rest, hrest⟩ := List.head?_eq_some_iff.mp hhead
      exact hmark rest hrest
    have hmark : ¬ ∃ rest, text = '!' :: rest := fun ⟨rest, hrest⟩ => hmark rest hrest
    simp only [Option.map_eq_some_iff, Prod.exists, Prod.mk.injEq]
    constructor
    · rintro ⟨body, rest, hbody, rfl, rfl⟩
      exact .inr ⟨hhead, body, hbody, rfl⟩
    · rintro (⟨rest, body, hrest, -⟩ | ⟨-, body, hbody, rfl⟩)
      · exact absurd ⟨rest, hrest⟩ hmark
      · exact ⟨body, behind, hbody, rfl, rfl⟩

theorem bracket_body_append {body : List Char} (h : bracketBody? text = some (body, behind))
    (others : List Char) : bracketBody? (text ++ others) = some (body, behind ++ others) := by
  obtain ⟨first, inner, rfl, rfl, hinner⟩ := bracket_body_eq_some_iff.mp h
  exact bracket_body_eq_some_iff.mpr ⟨first, inner, by simp, rfl, hinner⟩

theorem bracket_body_suffix {body : List Char} (h : bracketBody? text = some (body, behind)) :
    text ≠ [] ∧ behind <:+ text := by
  obtain ⟨first, inner, rfl, rfl, -⟩ := bracket_body_eq_some_iff.mp h
  refine ⟨List.cons_ne_nil _ _, first :: (inner ++ [']']), ?_⟩
  simp

/-- A set of characters is the same, whatever stands behind it. -/
theorem bracket_append (h : bracket? text = some (token, behind)) (others : List Char) :
    bracket? (text ++ others) = some (token, behind ++ others) := by
  rcases bracket_eq_some_iff.mp h with ⟨rest, body, rfl, hbody, rfl⟩ | ⟨hhead, body, hbody, rfl⟩
  · exact bracket_eq_some_iff.mpr (.inl ⟨_, body, rfl, bracket_body_append hbody others, rfl⟩)
  · refine bracket_eq_some_iff.mpr (.inr ⟨?_, body, bracket_body_append hbody others, rfl⟩)
    rwa [List.head?_append, Option.or_of_isSome]
    exact List.isSome_head?.mpr (bracket_body_suffix hbody).1

/-- Behind a set of characters stands an end of the text. -/
theorem bracket_suffix (h : bracket? text = some (token, behind)) : behind <:+ text := by
  rcases bracket_eq_some_iff.mp h with ⟨rest, body, rfl, hbody, -⟩ | ⟨-, body, hbody, -⟩
  · exact (bracket_body_suffix hbody).2.trans (List.suffix_cons _ _)
  · exact (bracket_body_suffix hbody).2

theorem tokens_from_any_text (h : rest.head? ≠ some '*') :
    tokensFrom (bound + 1) position previous ('*' :: rest) =
      (tokensFrom bound (position + 1) (some '*') rest).map (.anyText :: ·) := by
  have hstars : rest.takeWhile (· == '*') = [] := by
    cases rest with
    | nil => rfl
    | cons c rest => simpa using h
  rw [tokensFrom]
  simp [hstars]

example : Pattern.ofText "*.js" = .ok [.anyText, .char '.', .char 'j', .char 's'] := by cbv

theorem tokens_from_two_stars (h : rest.head? ≠ some '*') :
    tokensFrom (bound + 1) position previous ('*' :: '*' :: rest) = .ok pattern ↔
      StartsComponent previous ∧ ((rest = [] ∧ pattern = [.anyComponents]) ∨
        ∃ behind others, rest = '/' :: behind ∧ pattern = .anyComponents :: others ∧
          tokensFrom bound (position + 3) (some '/') behind = .ok others) := by
  have hstars : rest.takeWhile (· == '*') = [] := by
    cases rest with
    | nil => rfl
    | cons c rest => simpa using h
  rw [tokensFrom]
  simp only [List.takeWhile_cons, beq_self_eq_true, if_true, hstars, List.length_singleton,
    List.drop_succ_cons, List.drop_zero]
  unfold StartsComponent
  split_ifs with hprevious
  · cases rest with
    | nil => simp [hprevious, eq_comm]
    | cons c behind =>
        by_cases hc : c = '/'
        · subst hc
          simp [hprevious, except_map_ok_iff, eq_comm (a := pattern), and_comm]
        · simp [hc]
  · simp [hprevious]

theorem tokens_from_three_stars :
    tokensFrom (bound + 1) position previous ('*' :: '*' :: '*' :: rest) ≠ .ok pattern := by
  rw [tokensFrom]
  simp

theorem tokens_from_bracket :
    tokensFrom (bound + 1) position previous ('[' :: rest) = .ok pattern ↔
      ∃ token behind others, bracket? rest = some (token, behind) ∧ pattern = token :: others ∧
        tokensFrom bound (position + 1 + (rest.length - behind.length)) (some ']') behind =
          .ok others := by
  rw [tokensFrom]
  cases hbracket : bracket? rest with
  | none => simp
  | some set =>
      obtain ⟨token, behind⟩ := set
      simp only [except_map_ok_iff, Option.some.injEq, Prod.mk.injEq]
      constructor
      · rintro ⟨others, hothers, rfl⟩
        exact ⟨token, behind, others, ⟨rfl, rfl⟩, rfl, hothers⟩
      · rintro ⟨_, _, others, ⟨rfl, rfl⟩, rfl, hothers⟩
        exact ⟨others, hothers, rfl⟩

/-- What a text is read as, it is read as from any position on. -/
theorem Reads.tokens_from (h : Reads previous text pattern) (hbound : text.length ≤ bound) :
    tokensFrom bound position previous text = .ok pattern := by
  induction h generalizing bound position with
  | nil => cases bound <;> rfl
  | anyText hone _ ih =>
      obtain ⟨bound, rfl⟩ := Nat.exists_eq_add_one.mpr (Nat.zero_lt_of_lt hbound)
      rw [tokens_from_any_text hone, ih (Nat.le_of_succ_le_succ hbound)]
      rfl
  | anyComponents hstart =>
      obtain ⟨bound, rfl⟩ := Nat.exists_eq_add_one.mpr (Nat.zero_lt_of_lt hbound)
      exact (tokens_from_two_stars (by simp)).mpr ⟨hstart, .inl ⟨rfl, rfl⟩⟩
  | anyComponentsBefore hstart _ ih =>
      obtain ⟨bound, rfl⟩ := Nat.exists_eq_add_one.mpr (Nat.zero_lt_of_lt hbound)
      simp only [List.length_cons] at hbound
      refine (tokens_from_two_stars (by simp)).mpr ⟨hstart, .inr ⟨_, _, rfl, rfl, ih (by omega)⟩⟩
  | bracket hset _ ih =>
      obtain ⟨bound, rfl⟩ := Nat.exists_eq_add_one.mpr (Nat.zero_lt_of_lt hbound)
      have hlength := (bracket_suffix hset).length_le
      exact tokens_from_bracket.mpr
        ⟨_, _, _, hset, rfl, ih (hlength.trans (Nat.le_of_succ_le_succ hbound))⟩
  | anyChar _ ih =>
      obtain ⟨bound, rfl⟩ := Nat.exists_eq_add_one.mpr (Nat.zero_lt_of_lt hbound)
      rw [tokensFrom, ih (Nat.le_of_succ_le_succ hbound)]
      rfl
  | char hstar hbracket hany _ ih =>
      obtain ⟨bound, rfl⟩ := Nat.exists_eq_add_one.mpr (Nat.zero_lt_of_lt hbound)
      rw [tokensFrom, ih (Nat.le_of_succ_le_succ hbound)]
      · rfl
      · exact hstar
      · exact hbracket
      · exact hany

/-- What tokens are made of a text, it is read as. -/
theorem reads_of_tokens_from (h : tokensFrom bound position previous text = .ok pattern)
    (hbound : text.length ≤ bound) : Reads previous text pattern := by
  induction bound generalizing position previous text pattern with
  | zero =>
      obtain rfl := List.length_eq_zero_iff.mp (Nat.le_zero.mp hbound)
      cases h
      exact .nil
  | succ bound ih =>
      cases text with
      | nil =>
          cases h
          exact .nil
      | cons c rest =>
          have hrest : rest.length ≤ bound := Nat.le_of_succ_le_succ hbound
          by_cases hstar : c = '*'
          · subst hstar
            by_cases hsecond : rest.head? = some '*'
            · obtain ⟨rest, rfl⟩ := List.head?_eq_some_iff.mp hsecond
              by_cases hthird : rest.head? = some '*'
              · obtain ⟨rest, rfl⟩ := List.head?_eq_some_iff.mp hthird
                -- three stars are never read
                exact absurd h tokens_from_three_stars
              · obtain ⟨hstart, ⟨rfl, rfl⟩ | ⟨behind, others, rfl, rfl, hothers⟩⟩ :=
                  (tokens_from_two_stars hthird).mp h
                · exact .anyComponents hstart
                · simp only [List.length_cons] at hrest
                  exact .anyComponentsBefore hstart (ih hothers (by omega))
            · rw [tokens_from_any_text hsecond, except_map_ok_iff] at h
              obtain ⟨others, hothers, rfl⟩ := h
              exact .anyText hsecond (ih hothers hrest)
          · by_cases hbracket : c = '['
            · subst hbracket
              obtain ⟨token, behind, others, hset, rfl, hothers⟩ := tokens_from_bracket.mp h
              exact .bracket hset (ih hothers ((bracket_suffix hset).length_le.trans hrest))
            · by_cases hany : c = '?'
              · subst hany
                rw [tokensFrom, except_map_ok_iff] at h
                obtain ⟨others, hothers, rfl⟩ := h
                exact .anyChar (ih hothers hrest)
              · rw [tokensFrom, except_map_ok_iff] at h
                · obtain ⟨others, hothers, rfl⟩ := h
                  exact .char hstar hbracket hany (ih hothers hrest)
                · exact hstar
                · exact hbracket
                · exact hany

theorem of_text_ok_iff {written : String} :
    Pattern.ofText written = .ok pattern ↔ Reads none written.toList pattern :=
  ⟨fun h => reads_of_tokens_from h (String.length_toList ..).le,
    fun h => h.tokens_from (String.length_toList ..).le⟩

/-! ## Plain text -/

/-- The characters have no meaning in a pattern. -/
def IsPlain (text : List Char) : Prop :=
  ∀ c ∈ text, c ≠ '*' ∧ c ≠ '?' ∧ c ≠ '['

/-- The pattern that is a text as it is written. -/
def literalOf (text : List Char) : Pattern :=
  text.map Token.char

theorem literal_of_literal (text : List Char) :
    (literalOf text).literal? = some (String.ofList text) := by
  have hchars : (literalOf text).mapM Token.char? = some text := by
    induction text with
    | nil => rfl
    | cons c text ih =>
        rw [literalOf, List.map_cons, List.mapM_cons, ← literalOf, ih]
        rfl
  rw [Pattern.literal?, hchars, Option.map_some]

/-- A text without special characters is read as it is. -/
theorem reads_plain (h : IsPlain text) : Reads previous text (literalOf text) := by
  induction text generalizing previous with
  | nil => exact .nil
  | cons c text ih =>
      obtain ⟨⟨hstar, hany, hbracket⟩, htext⟩ := List.forall_mem_cons.mp h
      exact .char hstar hbracket hany (ih htext)

theorem of_text_plain (h : IsPlain text) :
    Pattern.ofText (String.ofList text) = .ok (literalOf text) := by
  rw [of_text_ok_iff, String.toList_ofList]
  exact reads_plain h

/-- Texts without special characters are read as they are. -/
theorem map_m_of_text_plain (pieces : List (List Char)) (h : ∀ piece ∈ pieces, IsPlain piece) :
    (pieces.map String.ofList).mapM Pattern.ofText = .ok (pieces.map literalOf) := by
  induction pieces with
  | nil => rfl
  | cons piece pieces ih =>
      obtain ⟨hpiece, hpieces⟩ := List.forall_mem_cons.mp h
      rw [List.map_cons, List.mapM_cons, of_text_plain hpiece, ih hpieces]
      rfl

/-! ## Components -/

/-- At the start of a text and behind a separator, the same is read. -/
theorem Reads.behind_separator (h : Reads none text pattern) : Reads (some '/') text pattern := by
  cases h with
  | nil => exact .nil
  | anyText hone h => exact .anyText hone h
  | anyComponents _ => exact .anyComponents (.inr rfl)
  | anyComponentsBefore _ h => exact .anyComponentsBefore (.inr rfl) h
  | bracket hset h => exact .bracket hset h
  | anyChar h => exact .anyChar h
  | char hstar hbracket hany h => exact .char hstar hbracket hany h

/-- A component that does not stand for any number of components is read in the same way when a
separator stands behind it. -/
theorem Reads.before_separator (h : Reads previous text pattern) (hseparator : '/' ∉ text)
    (hsingle : Token.anyComponents ∉ pattern) (hrest : Reads (some '/') rest others) :
    Reads previous (text ++ '/' :: rest) (pattern ++ .char '/' :: others) := by
  induction h with
  | nil => exact .char (by decide) (by decide) (by decide) hrest
  | @anyText _ text _ hone _ ih =>
      refine .anyText ?_ (ih (List.not_mem_of_not_mem_cons hseparator)
        (List.not_mem_of_not_mem_cons hsingle))
      cases text with
      | nil => exact ne_of_beq_false rfl
      | cons c text => exact hone
  | anyComponents _ => exact absurd List.mem_cons_self hsingle
  | anyComponentsBefore _ _ _ => exact absurd List.mem_cons_self hsingle
  | bracket hset _ ih =>
      have hbehind := (bracket_suffix hset).subset
      exact .bracket (bracket_append hset _) (ih
        (fun hmem => hseparator (List.mem_cons_of_mem _ (hbehind hmem)))
        (List.not_mem_of_not_mem_cons hsingle))
  | anyChar _ ih =>
      exact .anyChar (ih (List.not_mem_of_not_mem_cons hseparator)
        (List.not_mem_of_not_mem_cons hsingle))
  | char hstar hbracket hany _ ih =>
      exact .char hstar hbracket hany (ih (List.not_mem_of_not_mem_cons hseparator)
        (List.not_mem_of_not_mem_cons hsingle))

theorem bracket_ne_components (h : bracket? text = some (token, behind)) :
    token ≠ .anyComponents := by
  rcases bracket_eq_some_iff.mp h with ⟨_, _, -, -, rfl⟩ | ⟨-, _, -, rfl⟩
  · nofun
  · nofun

/-- A component stands for any number of components, or has nothing in it that does: two asterisks
are not read behind something else. -/
theorem Reads.component_cases (h : Reads previous text pattern) (hseparator : '/' ∉ text) :
    (StartsComponent previous ∧ text = ['*', '*'] ∧ pattern = [.anyComponents]) ∨
      Token.anyComponents ∉ pattern := by
  have hinside {c : Char} {text : List Char} {pattern : Pattern} (hc : c ≠ '/')
      (h : (StartsComponent (some c) ∧ text = ['*', '*'] ∧ pattern = [.anyComponents]) ∨
        Token.anyComponents ∉ pattern) : Token.anyComponents ∉ pattern :=
    h.resolve_left fun h => hc (by simpa [StartsComponent] using h.1)
  induction h with
  | nil => exact .inr List.not_mem_nil
  | anyText _ _ ih =>
      have hrest := hinside (by decide) (ih (List.not_mem_of_not_mem_cons hseparator))
      exact .inr (List.not_mem_cons_of_ne_of_not_mem nofun hrest)
  | anyComponents hstart => exact .inl ⟨hstart, rfl, rfl⟩
  | anyComponentsBefore _ _ _ => exact absurd (by simp) hseparator
  | bracket hset _ ih =>
      have hbehind := (bracket_suffix hset).subset
      have hrest := hinside (by decide)
        (ih fun hmem => hseparator (List.mem_cons_of_mem _ (hbehind hmem)))
      exact .inr (List.not_mem_cons_of_ne_of_not_mem (bracket_ne_components hset).symm hrest)
  | anyChar _ ih =>
      have hrest := hinside (by decide) (ih (List.not_mem_of_not_mem_cons hseparator))
      exact .inr (List.not_mem_cons_of_ne_of_not_mem nofun hrest)
  | char _ _ _ _ ih =>
      have hc := (List.ne_of_not_mem_cons hseparator).symm
      have hrest := hinside hc (ih (List.not_mem_of_not_mem_cons hseparator))
      exact .inr (List.not_mem_cons_of_ne_of_not_mem nofun hrest)

/-- Components with separators between them. What stands for any number of components takes the
separator behind it. -/
def assemble : List Pattern → Pattern
  | [] => []
  | [component] => component
  | component :: second :: rest =>
      component ++ (if component.isRecursive then [] else [.char '/']) ++ assemble (second :: rest)

theorem is_recursive_iff : pattern.isRecursive = true ↔ Token.anyComponents ∈ pattern := by
  simp [Pattern.isRecursive]

/-- The pieces of a text are read as its components. The induction is on the pieces. -/
theorem reads_assemble {pieces : List (List Char)} {components : List Pattern}
    (h : List.Forall₂ (Reads none) pieces components) (hseparator : ∀ piece ∈ pieces, '/' ∉ piece) :
    Reads none (Path.joinSegments pieces) (assemble components) := by
  induction h with
  | nil => exact .nil
  | @cons piece component pieces components hpiece hrest ih =>
      obtain ⟨hfirst, hothers⟩ := List.forall_mem_cons.mp hseparator
      cases hrest with
      | nil => simpa [Path.joinSegments, assemble] using hpiece
      | cons _ _ =>
          have hbehind := (ih hothers).behind_separator
          rw [Path.joinSegments, List.intercalate_cons_cons, assemble, List.append_assoc,
            List.append_assoc, List.singleton_append]
          rcases hpiece.component_cases hfirst with ⟨hstart, rfl, rfl⟩ | hsingle
          · exact .anyComponentsBefore hstart hbehind
          · rw [if_neg (is_recursive_iff.not.mpr hsingle)]
            exact hpiece.before_separator hfirst hsingle hbehind

theorem exists_reads {pieces : List (List Char)} {components : List Pattern}
    (h : List.Forall₂ (Reads none) pieces components) :
    ∀ component ∈ components, ∃ piece ∈ pieces, Reads none piece component := by
  induction h with
  | nil => exact nofun
  | cons hpiece _ ih =>
      refine List.forall_mem_cons.mpr ⟨⟨_, List.mem_cons_self, hpiece⟩, fun component hmem => ?_⟩
      obtain ⟨piece, hmem, hread⟩ := ih component hmem
      exact ⟨piece, List.mem_cons_of_mem _ hmem, hread⟩

/-- Pieces that are read one by one are read as their patterns. -/
theorem forall_reads_of_map_m {pieces : List (List Char)} {components : List Pattern}
    (h : (pieces.map String.ofList).mapM Pattern.ofText = .ok components) :
    List.Forall₂ (Reads none) pieces components := by
  induction pieces generalizing components with
  | nil =>
      cases h
      exact .nil
  | cons piece pieces ih =>
      rw [List.map_cons, List.mapM_cons] at h
      obtain ⟨component, hcomponent, h⟩ := except_bind_ok_iff.mp h
      obtain ⟨others, hothers, h⟩ := except_bind_ok_iff.mp h
      cases h
      rw [of_text_ok_iff, String.toList_ofList] at hcomponent
      exact .cons hcomponent (ih hothers)

theorem components_ne_nil {pieces : List (List Char)} {components : List Pattern}
    (h : (pieces.map String.ofList).mapM Pattern.ofText = .ok components) (hne : pieces ≠ []) :
    components ≠ [] := by
  rintro rfl
  exact hne (List.forall₂_nil_right_iff.mp (forall_reads_of_map_m h))

/-! ## Positions -/

/-- The same fault, told for a text that stands behind other characters. -/
def PatternFault.shift (fault : PatternFault) (count : Nat) : PatternFault :=
  { fault with position := fault.position + count }

/-- Whether a component starts is the same at both places, or the places lie behind the same
character. -/
def SameStart (position : Nat) (previous again : Option Char) : Prop :=
  (StartsComponent previous ∧ StartsComponent again) ∨ (previous = again ∧ 0 < position)

/-- With the bound a text is read in the same way as many characters further on. -/
def Shifts (bound count : Nat) : Prop :=
  ∀ (position : Nat) (previous again : Option Char) (text : List Char),
    SameStart position previous again →
      tokensFrom bound (position + count) again text =
        (tokensFrom bound position previous text).mapError (·.shift count)

/-- What is read behind a token. -/
theorem Shifts.cons {count place far : Nat} (h : Shifts bound count) (c : Char) (token : Token)
    (rest : List Char) (hplace : 0 < place) (hfar : far = place + count) :
    (tokensFrom bound far (some c) rest).map (token :: ·) =
      ((tokensFrom bound place (some c) rest).map (token :: ·)).mapError (·.shift count) := by
  rw [hfar, h place _ _ rest (.inr ⟨rfl, hplace⟩)]
  cases tokensFrom bound place (some c) rest <;> rfl

theorem fault_shift {count place far : Nat} (kind : PatternFaultKind) (hfar : far = place + count) :
    (.error ⟨far, kind⟩ : Except PatternFault Pattern) =
      Except.mapError (fun fault : PatternFault => fault.shift count) (.error ⟨place, kind⟩) := by
  rw [hfar]
  rfl

/-- Only behind stars it matters whether a component starts in front of them. -/
theorem stars_shift {again : Option Char} {count : Nat} (h : Shifts bound count)
    (hstart : SameStart position previous again) :
    tokensFrom (bound + 1) (position + count) again ('*' :: text) =
      (tokensFrom (bound + 1) position previous ('*' :: text)).mapError (·.shift count) := by
  rw [tokensFrom, tokensFrom]
  split
  · exact h.cons _ _ _ (by omega) (by omega)
  · by_cases hcomponent : previous = none ∨ previous = some '/'
    · have hagain : again = none ∨ again = some '/' :=
        hstart.elim And.right fun h => h.1 ▸ hcomponent
      rw [if_pos hcomponent, if_pos hagain]
      split
      · rfl
      · exact h.cons _ _ _ (by omega) (by omega)
      · exact fault_shift _ (by omega)
    · obtain ⟨rfl, hpositive⟩ := hstart.resolve_left fun h => hcomponent h.1
      rw [if_neg hcomponent, if_neg hcomponent]
      exact fault_shift _ (by omega)
  · exact fault_shift _ (by omega)

/-- Behind other characters a text is read in the same way, if a component starts there. -/
theorem tokens_from_shift (bound count : Nat) : Shifts bound count := by
  induction bound with
  | zero => exact fun _ _ _ _ _ => rfl
  | succ bound ih =>
      intro position previous again text hstart
      cases text with
      | nil => rfl
      | cons c rest =>
          by_cases hstar : c = '*'
          · subst hstar
            exact stars_shift ih hstart
          by_cases hbracket : c = '['
          · subst hbracket
            rw [tokensFrom, tokensFrom]
            cases hset : bracket? rest with
            | none => rfl
            | some set => exact ih.cons _ _ _ (by omega) (by omega)
          by_cases hany : c = '?'
          · subst hany
            rw [tokensFrom, tokensFrom]
            exact ih.cons _ _ _ (by omega) (by omega)
          · rw [tokensFrom, tokensFrom]
            · exact ih.cons _ _ _ (by omega) (by omega)
            all_goals assumption

/-- Plain text and a separator are read as they are, and then the rest. -/
theorem tokens_from_plain {front : List Char} (hplain : IsPlain front) (position : Nat)
    (previous : Option Char) :
    tokensFrom (bound + (front.length + 1)) position previous (front ++ '/' :: text) =
      (tokensFrom bound (position + (front.length + 1)) (some '/') text).map
        (literalOf (front ++ ['/']) ++ ·) := by
  induction front generalizing position previous with
  | nil =>
      rw [List.nil_append, List.length_nil, ← Nat.add_assoc, tokensFrom]
      · rfl
      all_goals decide
  | cons c front ih =>
      obtain ⟨⟨hstar, hany, hbracket⟩, hfront⟩ := List.forall_mem_cons.mp hplain
      rw [List.cons_append, List.length_cons, ← Nat.add_assoc, tokensFrom, ih hfront,
        Nat.add_assoc, Nat.add_comm 1]
      · cases tokensFrom bound (position + (front.length + 1 + 1)) (some '/') text <;> rfl
      all_goals assumption

/-- A pattern behind a directory is read as it is alone. Its faults are told from the start of the
directory on. -/
theorem of_text_behind {front written text : String} (hplain : IsPlain front.toList)
    (htext : text.toList = front.toList ++ '/' :: written.toList) :
    Pattern.ofText text = ((Pattern.ofText written).mapError (·.shift (front.length + 1))).map
      (literalOf (front.toList ++ ['/']) ++ ·) := by
  have hlength : text.length = written.length + (front.toList.length + 1) := by
    rw [← String.length_toList, htext, List.length_append, List.length_cons, String.length_toList,
      String.length_toList]
    omega
  have hstart : StartsComponent none ∧ StartsComponent (some '/') := ⟨.inl rfl, .inr rfl⟩
  rw [Pattern.ofText, htext, hlength, tokens_from_plain hplain,
    tokens_from_shift _ _ _ _ _ _ (.inl hstart),
    String.length_toList]
  rfl

end TemplateBundle.Glob

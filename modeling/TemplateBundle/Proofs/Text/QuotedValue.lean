import Mathlib.Tactic.SplitIfs
import TemplateBundle.Script.Lexer
import TemplateBundle.Text.Quoted

/-!
# The values of quoted texts

The text for which a literal between double quotes stands by the rules of JSON, whoever wrote the
literal. A text that was quoted is read back from its literal, which ends at the quote that was put
behind it (`value_quote`).
-/

namespace TemplateBundle.Text.Quoted

/-- The character of an escape by a single sign. -/
def signValue? : Char → Option Char
  | '"' => some '"'
  | '\\' => some '\\'
  | '/' => some '/'
  | 'b' => some '\x08'
  | 'f' => some '\x0c'
  | 'n' => some '\n'
  | 'r' => some '\r'
  | 't' => some '\t'
  | _ => none

/-- The code unit is the first half of a pair. -/
def isFirstHalf (unit : Nat) : Bool :=
  0xD800 ≤ unit && unit < 0xDC00

/-- The code unit is the second half of a pair. -/
def isSecondHalf (unit : Nat) : Bool :=
  0xDC00 ≤ unit && unit < 0xE000

/-- The character of an escape by a code unit of four digits, behind its letter, and the text behind
it. A character beyond sixteen bits takes two such escapes; half a pair is no character. -/
def unitValue? (text : List Char) : Option (Char × List Char) :=
  match Script.hexDigits? 4 0 text with
  | none => none
  | some (unit, rest) =>
      if isFirstHalf unit then
        match rest with
        | '\\' :: 'u' :: rest =>
            match Script.hexDigits? 4 0 rest with
            | some (second, rest) =>
                if isSecondHalf second then
                  some (Char.ofNat (0x10000 + (unit - 0xD800) * 0x400 + (second - 0xDC00)), rest)
                else none
            | none => none
        | _ => none
      else if isSecondHalf unit then none
      else some (Char.ofNat unit, rest)

/-- The character for which the front of a text between quotes stands, and the text behind it.
Control characters do not stand for themselves. -/
def charValue? : List Char → Option (Char × List Char)
  | [] => none
  | '\\' :: 'u' :: rest => unitValue? rest
  | '\\' :: sign :: rest => (signValue? sign).map fun c => (c, rest)
  | c :: rest => if c = '\\' ∨ c.toNat < 0x20 then none else some (c, rest)

/-- The characters up to the closing quote, and the text behind it; nothing if the text ends before.
The bound is on the number of characters. -/
def valueUpTo? : Nat → List Char → Option (List Char × List Char)
  | 0, _ => none
  | bound + 1, text =>
      if text.head? = some '"' then some ([], text.tail)
      else
        match charValue? text with
        | some (c, behind) =>
            (valueUpTo? bound behind).map fun (others, rest) => (c :: others, rest)
        | none => none

/-- The text for which the literal at the front stands, and the text behind the literal. -/
def value? : List Char → Option (String × List Char)
  | '"' :: text =>
      (valueUpTo? (text.length + 1) text).map fun (chars, rest) => (String.ofList chars, rest)
  | _ => none

/-! ## Reading what was written -/

theorem hex_value_hex_digit {digit : Nat} (h : digit < 16) :
    hexValue? (hexDigit digit) = some digit := by
  revert digit
  decide

/-- Four digits of which the first two are zeros. -/
theorem unit_value_low {code : Nat} (h : code < 0x20) (rest : List Char) :
    unitValue? ('0' :: '0' :: hexDigit (code / 16) :: hexDigit (code % 16) :: rest) =
      some (Char.ofNat code, rest) := by
  have hzero : hexValue? '0' = some 0 := by
    decide
  have hdigits : Script.hexDigits? 4 0
      ('0' :: '0' :: hexDigit (code / 16) :: hexDigit (code % 16) :: rest) = some (code, rest) := by
    have hunit : 16 * (16 * (16 * (16 * 0 + 0) + 0) + code / 16) + code % 16 = code := by
      omega
    simp only [Script.hexDigits?, hzero, hex_value_hex_digit (show code / 16 < 16 by omega),
      hex_value_hex_digit (Nat.mod_lt code (by decide)), hunit]
  have hfirst : isFirstHalf code = false := by
    unfold isFirstHalf
    rw [decide_eq_false (by omega), Bool.false_and]
  have hsecond : isSecondHalf code = false := by
    unfold isSecondHalf
    rw [decide_eq_false (by omega), Bool.false_and]
  unfold unitValue?
  simp only [hdigits, hfirst, hsecond, Bool.false_eq_true, if_false]

/-- What is written for a character is read as the character. -/
theorem char_value_encode (c : Char) (rest : List Char) :
    charValue? (encodeChar c ++ rest) = some (c, rest) := by
  unfold encodeChar
  split_ifs with hquote hbackslash hfeed hreturn htab hback hform hcontrol
  iterate 7
    · subst c
      rfl
  · show unitValue? ('0' :: '0' :: _ :: _ :: rest) = _
    rw [unit_value_low hcontrol, Char.ofNat_toNat]
  · rw [List.singleton_append, charValue?]
    · rw [if_neg (not_or.mpr ⟨hbackslash, hcontrol⟩)]
    · exact fun _ heq _ => hbackslash heq
    · exact fun _ _ heq _ => hbackslash heq

/-- What is written for a character does not start with the closing quote. -/
theorem head_encode_char (c : Char) (rest : List Char) :
    (encodeChar c ++ rest).head? ≠ some '"' := by
  unfold encodeChar
  split_ifs with hquote
  case neg => exact fun hhead => hquote (Option.some.inj hhead)
  all_goals exact fun hhead => absurd (Option.some.inj hhead) (by decide)

theorem length_encode_char (c : Char) : 0 < (encodeChar c).length := by
  unfold encodeChar
  split_ifs <;> exact Nat.succ_pos _

theorem length_encode (text : List Char) : text.length ≤ (encode text).length := by
  induction text with
  | nil => exact Nat.le_refl 0
  | cons c text ih =>
      have hc := length_encode_char c
      rw [encode, List.flatMap_cons, List.length_append, List.length_cons]
      unfold encode at ih
      omega

/-- The induction is on the text, with what stands behind its literal. -/
theorem value_up_to_encode (text rest : List Char) {bound : Nat} (hbound : text.length < bound) :
    valueUpTo? bound (encode text ++ '"' :: rest) = some (text, rest) := by
  obtain ⟨fewer, rfl⟩ := Nat.exists_eq_add_of_lt hbound
  clear hbound
  induction text with
  | nil => rfl
  | cons c text ih =>
      have hshorter : (c :: text).length + fewer + 1 = text.length + fewer + 1 + 1 := by
        rw [List.length_cons]
        omega
      rw [hshorter, encode, List.flatMap_cons, List.append_assoc, valueUpTo?,
        if_neg (head_encode_char c _), char_value_encode]
      show (valueUpTo? _ (encode text ++ '"' :: rest)).map _ = _
      rw [ih]
      rfl

/-- The literal that is written for a text ends at its closing quote and stands for the text. -/
theorem value_quote (text : String) (rest : List Char) :
    value? ((quote text).toList ++ rest) = some (text, rest) := by
  have hlength := length_encode text.toList
  have hread : valueUpTo? ((encode text.toList ++ '"' :: rest).length + 1)
      (encode text.toList ++ '"' :: rest) = some (text.toList, rest) := by
    refine value_up_to_encode text.toList rest ?_
    rw [List.length_append]
    omega
  have htext : (quote text).toList ++ rest = '"' :: (encode text.toList ++ '"' :: rest) := by
    simp only [quote, String.toList_ofList, List.cons_append, List.append_assoc, List.nil_append]
  rw [htext]
  show (valueUpTo? _ _).map _ = _
  rw [hread, Option.map_some]
  exact congrArg (fun value => some (value, rest)) String.ofList_toList

end TemplateBundle.Text.Quoted

import TemplateBundle.Text.CharacterClass

/-!
# Showing text in messages

A text in quotes, in which every character can be seen: one that has no form of its own, or that
would join the character before it, is shown by its code point.
-/

namespace TemplateBundle.Text

/-- The character has a form of its own, or is a space. -/
def isVisible (c : Char) : Bool :=
  c == ' ' ||
    !(Category.hasAny (.control :: .format :: .privateUse :: Category.separators) c ||
      Category.isUnassigned c)

/-- The code point of a character, in braces. -/
def shownCodePoint (c : Char) : String :=
  "\\u\x7b" ++ String.ofList (Nat.toDigits 16 c.toNat) ++ "\x7d"

/-- A character inside quotes. -/
def shownChar (c : Char) : String :=
  if c = '\x00' then "\\0"
  else if c = '\t' then "\\t"
  else if c = '\n' then "\\n"
  else if c = '\r' then "\\r"
  else if c = '"' then "\\\""
  else if c = '\\' then "\\\\"
  else if c.toNat < 0x7f ∧ ' ' ≤ c then c.toString
  else if isGraphemeExtend c ∨ !isVisible c then shownCodePoint c
  else c.toString

/-- The text in quotes. -/
def shown (text : String) : String :=
  "\"" ++ String.join (text.toList.map shownChar) ++ "\""

end TemplateBundle.Text

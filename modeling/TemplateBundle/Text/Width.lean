import TemplateBundle.Text.Category

/-!
# Width of text

How many columns a text takes where characters have a fixed width: two for the wide characters of
East Asian scripts and for pictures, none for characters that have no place of their own.
-/

namespace TemplateBundle.Text

/-- The characters that take two columns. -/
def wideSet : CodePointSet := CodePointSet.ofTable
  "1100-115F 231A-231B 2329-232A 23E9-23EC 23F0 23F3 25FD-25FE 2614-2615 2648-2653 267F 2693 26A1
    26AA-26AB 26BD-26BE 26C4-26C5 26CE 26D4 26EA 26F2-26F3 26F5 26FA 26FD 2705 270A-270B 2728 274C
    274E 2753-2755 2757 2795-2797 27B0 27BF 2B1B-2B1C 2B50 2B55 2E80-303E 3041-3247 3250-4DBF
    4E00-A4CF A960-A97F AC00-D7A3 F900-FAFF FE10-FE19 FE30-FE6F FF01-FF60 FFE0-FFE6 16FE0-18CFF
    1AFF0-1B2FF 1F004 1F0CF 1F18E 1F191-1F19A 1F200-1F320 1F32D-1F335 1F337-1F37C 1F37E-1F393
    1F3A0-1F3CA 1F3CF-1F3D3 1F3E0-1F3F0 1F3F4 1F3F8-1F43E 1F440 1F442-1F4FC 1F4FF-1F53D
    1F54B-1F54E 1F550-1F567 1F57A 1F595-1F596 1F5A4 1F5FB-1F64F 1F680-1F6C5 1F6CC 1F6D0-1F6D2
    1F6D5-1F6D7 1F6DC-1F6DF 1F6EB-1F6EC 1F6F4-1F6FC 1F7E0-1F7EB 1F7F0 1F90C-1F93A 1F93C-1F945
    1F947-1F9FF 1FA70-1FAFF 20000-2FFFD 30000-3FFFD"

/-- The character takes no column. Vowels and finals of Korean syllables share that of the letter
before them. -/
def hasNoWidth (c : Char) : Bool :=
  Category.hasAny [.nonspacingMark, .enclosingMark, .format, .control] c ||
    ('\u1160' ≤ c && c ≤ '\u11ff') || ('\ud7b0' ≤ c && c ≤ '\ud7fb')

/-- The columns of a character. -/
def charWidth (c : Char) : Nat :=
  if ' ' ≤ c ∧ c ≤ '~' then 1
  else if hasNoWidth c then 0
  else if wideSet.contains c then 2
  else 1

/-- The columns of a text. -/
def width (text : String) : Nat :=
  text.toList.foldl (fun columns c => columns + charWidth c) 0

end TemplateBundle.Text

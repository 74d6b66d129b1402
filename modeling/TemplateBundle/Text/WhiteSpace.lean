/-!
# White space

The Unicode property `White_Space`, and trimming by it. Every place of the library that speaks of
blanks, trimming or blank text means this property; the formats with a narrower notion of blank
(project files, script syntax) define their own.
-/

namespace TemplateBundle.Text

/-- The character has the Unicode property `White_Space`. -/
def isWhite (c : Char) : Bool :=
  let code := c.toNat
  (0x09 ≤ code && code ≤ 0x0D) || code == 0x20 || code == 0x85 || code == 0xA0 ||
    code == 0x1680 || (0x2000 ≤ code && code ≤ 0x200A) || code == 0x2028 || code == 0x2029 ||
    code == 0x202F || code == 0x205F || code == 0x3000

/-- The text without its leading white space. -/
def trimStart (text : List Char) : List Char :=
  text.dropWhile isWhite

/-- The text without its trailing white space. -/
def trimEnd (text : List Char) : List Char :=
  (text.reverse.dropWhile isWhite).reverse

/-- The text without leading and trailing white space. -/
def trimList (text : List Char) : List Char :=
  trimEnd (trimStart text)

/-- The text without leading and trailing white space. -/
def trim (text : String) : String :=
  String.ofList (trimList text.toList)

/-- The text has no character other than white space. -/
def isBlank (text : String) : Bool :=
  text.toList.all isWhite

/-- Every character that core counts as white space has the property. -/
theorem isWhite_of_isWhitespace {c : Char} (h : c.isWhitespace = true) : isWhite c = true := by
  simp only [Char.isWhitespace, Bool.or_eq_true, decide_eq_true_eq] at h
  rcases h with ((rfl | rfl) | rfl) | rfl <;> decide

end TemplateBundle.Text

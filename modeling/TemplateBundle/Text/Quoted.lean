/-!
# Quoted text

The written form of a text between double quotes that is a string literal both of JSON and of a
script: a quote, a backslash and the control characters below the space are escaped, everything
else stands as it is.
-/

namespace TemplateBundle.Text

namespace Quoted

/-- The lower-case hexadecimal digit of a number below sixteen. -/
def hexDigit (digit : Nat) : Char :=
  Nat.digitChar digit

/-- One character inside a quoted text. Control characters have the short escapes of JSON where
there is one and four hexadecimal digits otherwise. -/
def encodeChar (c : Char) : List Char :=
  if c = '"' then ['\\', '"']
  else if c = '\\' then ['\\', '\\']
  else if c = '\n' then ['\\', 'n']
  else if c = '\r' then ['\\', 'r']
  else if c = '\t' then ['\\', 't']
  else if c = '\x08' then ['\\', 'b']
  else if c = '\x0c' then ['\\', 'f']
  else if c.toNat < 0x20 then
    ['\\', 'u', '0', '0', hexDigit (c.toNat / 16), hexDigit (c.toNat % 16)]
  else [c]

/-- The characters between the two quotes. -/
def encode (text : List Char) : List Char :=
  text.flatMap encodeChar

end Quoted

/-- The text as a string literal with its quotes. -/
def quote (text : String) : String :=
  String.ofList ('"' :: Quoted.encode text.toList ++ ['"'])

end TemplateBundle.Text

import RadioLink.Text.Shown

/-!
# Quoted text

How a text or a single character is quoted where a message shows it to a reader: between quotation
marks, with the marks, the backslash and the common controls written as two-character escapes and
every other character that would not show as its code point in braces.
-/

namespace RadioLink.Text

/-- A code point in hexadecimal digits between braces, after a backslash and `u`. -/
def codePointEscape (c : Char) : List Char :=
  '\\' :: 'u' :: Char.ofNat 0x7B :: (Nat.toDigits 16 c.toNat ++ [Char.ofNat 0x7D])

/-- One character of a quoted text; `mark` is the quotation mark in use. -/
def quoteChar (mark c : Char) : List Char :=
  if c = mark then ['\\', mark]
  else if c = '\\' then ['\\', '\\']
  else if c = '\x00' then ['\\', '0']
  else if c = '\t' then ['\\', 't']
  else if c = '\r' then ['\\', 'r']
  else if c = '\n' then ['\\', 'n']
  else if isShown c then [c]
  else codePointEscape c

/-- A text between double quotation marks. -/
def quote (s : String) : String :=
  String.ofList ('"' :: (s.toList.flatMap (quoteChar '"') ++ ['"']))

/-- A character between single quotation marks. -/
def quoteSingle (c : Char) : String :=
  String.ofList ('\'' :: (quoteChar '\'' c ++ ['\'']))

end RadioLink.Text

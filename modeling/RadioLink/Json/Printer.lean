import RadioLink.Hex

/-!
# Writing JSON

The text of a string literal: quotation marks, backslashes and controls are escaped, the common
controls by a letter and the others by number in small digits; every other character stands for
itself.
-/

namespace RadioLink.Json

/-- The letter of the controls that have one. -/
def controlLetter? : Char → Option Char
  | '\x08' => some 'b'
  | '\x0c' => some 'f'
  | '\n' => some 'n'
  | '\r' => some 'r'
  | '\t' => some 't'
  | _ => none

/-- `c` inside a literal. -/
def escaped (c : Char) : List Char :=
  if c = '"' ∨ c = '\\' then ['\\', c]
  else if c.toNat < 0x20 then
    match controlLetter? c with
    | some l => ['\\', l]
    | none => '\\' :: 'u' :: '0' :: '0' :: [Hex.digit (c.toNat / 16), Hex.digit (c.toNat % 16)]
  else [c]

/-- `s` as a literal. -/
def literal (s : String) : List Char := '"' :: (s.toList.flatMap escaped ++ ['"'])

/-- Pieces with commas between them. -/
def commaSeparated (pieces : List (List Char)) : List Char := (pieces.intersperse [',']).flatten

/-- The member `name` of an object, with its written value. -/
def memberText (name : String) (value : List Char) : List Char := literal name ++ ':' :: value

/-- An object with the given members. -/
def object (members : List (List Char)) : List Char :=
  '\x7b' :: (commaSeparated members ++ ['\x7d'])

/-- A list with the given elements. -/
def array (elements : List (List Char)) : List Char := '[' :: (commaSeparated elements ++ [']'])

/-- `n` in decimal digits. -/
def integerText (n : Int) : List Char := (toString n).toList

end RadioLink.Json

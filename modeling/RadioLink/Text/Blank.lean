/-!
# Blank characters

The characters of the Unicode property White_Space, and the two things asked of them: whether a text
is blank throughout (`allBlank`), and what is left of a text once the blanks at both ends are taken
away (`trim`).
-/

namespace RadioLink.Text

/-- The code points with the property White_Space, as ranges with both ends included. -/
def blankRanges : List (Nat × Nat) :=
  [(0x09, 0x0D), (0x20, 0x20), (0x85, 0x85), (0xA0, 0xA0), (0x1680, 0x1680), (0x2000, 0x200A),
   (0x2028, 0x2029), (0x202F, 0x202F), (0x205F, 0x205F), (0x3000, 0x3000)]

/-- Whether `c` has the property White_Space. -/
def isBlank (c : Char) : Bool :=
  blankRanges.any fun r => r.1 ≤ c.toNat && c.toNat ≤ r.2

/-- Whether `s` holds no character but blanks. -/
def allBlank (s : String) : Bool := s.toList.all isBlank

/-- `cs` without the blanks at its two ends. -/
def trim (cs : List Char) : List Char :=
  ((cs.dropWhile isBlank).reverse.dropWhile isBlank).reverse

end RadioLink.Text

import RadioLink.Bytes

/-!
# Hexadecimal text

Bytes as pairs of hexadecimal digits. `encode` uses small letters; `decode` takes either case and
says what is wrong: `oddLength` for an odd count of digits first, otherwise `notDigit` for the first
byte of the text that is no digit.
-/

namespace RadioLink.Hex

/-- Why a text is not the hexadecimal form of some bytes. -/
inductive Fault where
  /-- The text has an odd count of bytes. -/
  | oddLength
  /-- The byte at `index` is no digit; `byte` is shown as the character with that code. -/
  | notDigit (byte : UInt8) (index : Nat)
  deriving DecidableEq, Repr

/-- The digit for `n`, below sixteen, with small letters. -/
def digit (n : Nat) : Char := if n < 10 then Char.ofNat (48 + n) else Char.ofNat (87 + n)

/-- The digit for `n`, below sixteen, with capital letters. -/
def digitUpper (n : Nat) : Char := if n < 10 then Char.ofNat (48 + n) else Char.ofNat (55 + n)

/-- The value of the digit with this code, in either case. -/
def value? (code : Nat) : Option Nat :=
  if 48 ≤ code ∧ code ≤ 57 then some (code - 48)
  else if 65 ≤ code ∧ code ≤ 70 then some (code - 55)
  else if 97 ≤ code ∧ code ≤ 102 then some (code - 87)
  else none

/-- `b` as two small digits. -/
def encodeByte (b : UInt8) : List Char := [digit (b.toNat / 16), digit (b.toNat % 16)]

/-- `b` as two capital digits. -/
def encodeByteUpper (b : UInt8) : List Char :=
  [digitUpper (b.toNat / 16), digitUpper (b.toNat % 16)]

/-- `bs` as hexadecimal text. -/
def encode (bs : Bytes) : String := String.ofList (bs.flatMap encodeByte)

/-- The bytes that pairs of digits stand for, put behind `acc`, which is reversed; the first pair is
at `index`. -/
def decodePairs (index : Nat) (acc : Bytes) : Bytes → Except Fault Bytes
  | hi :: lo :: rest =>
    match value? hi.toNat, value? lo.toNat with
    | some h, some l => decodePairs (index + 2) (UInt8.ofNat (16 * h + l) :: acc) rest
    | none, _ => .error (.notDigit hi index)
    | some _, none => .error (.notDigit lo (index + 1))
  | _ => .ok acc.reverse

/-- The bytes whose hexadecimal form is `s`, in either case. -/
def decode (s : String) : Except Fault Bytes :=
  let bs := Bytes.ofText s
  if bs.length % 2 = 1 then .error .oddLength else decodePairs 0 [] bs

/-- `n`, below `2 ^ 64`, as sixteen digits. -/
def word (n : Nat) : String := encode (Bytes.ofNatBE 8 n)

end RadioLink.Hex

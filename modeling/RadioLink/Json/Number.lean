import RadioLink.Json.Reader

/-!
# Numbers

A number without a fraction and an exponent is an integer as long as it fits into 64 bits, with or
without a sign; every other number is a floating-point value. Digits beyond those that fit into 64
bits (`keepDigits`) only move the decimal point, and the value is that of the digits kept, rounded
and then multiplied or divided by a power of ten (`floatOf?`).
-/

namespace RadioLink.Json

open Decimal

/-- The value of a number. -/
inductive Number where
  | integer (value : Int)
  | float (value : Binary64)
  deriving DecidableEq, Repr

/-- Digits kept of a number: their `value`, and how many were `kept` and `left` out. -/
structure Kept where
  value : Nat
  kept : Nat
  left : Nat
  deriving DecidableEq, Repr

/-- The value of a digit. -/
def digitValue (c : Char) : Nat := c.toNat - 48

/-- Appends digits to `value` for as long as the result fits into 64 bits. -/
def keepDigits (value kept : Nat) : List Char → Kept
  | [] => ⟨value, kept, 0⟩
  | c :: cs =>
    let next := value * 10 + digitValue c
    if next < UInt64.size then keepDigits next (kept + 1) cs else ⟨value, kept, cs.length + 1⟩

/-- The number that decimal digits stand for. -/
def naturalOf (cs : List Char) : Nat := cs.foldl (fun n c => n * 10 + digitValue c) 0

/-- `x` divided by `10 ^ n`, in steps that a floating-point power of ten can make. -/
def scaleDown (x : Binary64) (n : Nat) : Binary64 :=
  if n ≤ 308 then x.div (.pow10 n)
  else if x.isZero then x
  else scaleDown (x.div (.pow10 308)) (n - 308)
  termination_by n

/-- The floating-point value of `digits · 10 ^ exponent`, unless it is too large. -/
def floatOf? (negative : Bool) (digits : Nat) (exponent : Int) : Option Binary64 :=
  let x := Binary64.ofNat digits
  let signed (y : Binary64) := if negative then y.negate else y
  if exponent < 0 then some (signed (scaleDown x exponent.natAbs))
  else if exponent ≤ 308 then (x.mul? (.pow10 exponent.toNat)).map signed
  else if x.isZero then some (signed x)
  else none

/-- The largest exponent that is written out; beyond it a number is zero or out of range. -/
def largestExponent : Nat := (1 <<< 31) - 1

namespace Reader

open Text.Reader

/-- Whether `c` is a decimal digit. -/
def isDigit (c : Char) : Bool := '0' ≤ c && c ≤ '9'

/-- `floatOf?` as a reader, which refuses a value that is too large. -/
def float (negative : Bool) (digits : Nat) (exponent : Int) : Reader Number :=
  match floatOf? negative digits exponent with
  | some x => Pure.pure (.float x)
  | none => fail .numberOutOfRange

/-- Digits, of which there has to be at least one. -/
def someDigits : Reader (List Char) := do
  match ← takeWhile isDigit with
  | [] => do
    match ← peek with
    | none => fail (.ended .value)
    | some _ => fail .invalidNumber
  | ds => Pure.pure ds

/-- Takes the sign of an exponent and says whether it is a minus. -/
def exponentSign : Reader Bool := do
  match ← peek with
  | some '+' => do advance; Pure.pure false
  | some '-' => do advance; Pure.pure true
  | _ => Pure.pure false

/-- The exponent of a number, after its letter; `shift` is what the digits before it amount to. -/
def exponent (negative : Bool) (digits : Nat) (shift : Int) : Reader Number := do
  let down ← exponentSign
  let ds ← someDigits
  let n := naturalOf ds
  if n ≤ largestExponent then
    float negative digits (if down then shift - n else shift + n)
  else if digits = 0 ∨ down then float negative 0 0
  else fail .numberOutOfRange

/-- What may follow the digits of a number that is no integer. -/
def afterDigits (negative : Bool) (digits : Nat) (shift : Int) : Reader Number := do
  match ← peek with
  | some 'e' => do advance; exponent negative digits shift
  | some 'E' => do advance; exponent negative digits shift
  | _ => float negative digits shift

/-- The fraction of a number, after its point. -/
def fraction (negative : Bool) (digits : Nat) (shift : Int) : Reader Number := do
  let ds ← someDigits
  let k := keepDigits digits 0 ds
  afterDigits negative k.value (shift - k.kept)

/-- The number that a sign and digits without fraction and exponent make: an integer if it fits, and
a floating-point value for minus zero and beyond. -/
def whole (negative : Bool) (digits : Nat) : Number :=
  if negative then
    if digits = 0 ∨ 1 <<< 63 < digits then .float (Binary64.ofNat digits).negate
    else .integer (-digits)
  else .integer digits

/-- The digits before the point, of which `first` has been taken: a zero stands alone. -/
def integerDigits (first : Char) : Reader (List Char) := do
  if first = '0' then
    match ← peek with
    | some c => if isDigit c then fail .invalidNumber else Pure.pure [first]
    | none => Pure.pure [first]
  else if isDigit first then return first :: (← takeWhile isDigit)
  else fail .invalidNumber

/-- A number, after its sign, of which `first` has been taken. -/
def unsignedNumber (negative : Bool) (first : Char) : Reader Number := do
  let k := keepDigits 0 0 (← integerDigits first)
  match ← peek with
  | some '.' => do advance; fraction negative k.value k.left
  | some 'e' => do advance; exponent negative k.value k.left
  | some 'E' => do advance; exponent negative k.value k.left
  | _ =>
    if k.left = 0 then Pure.pure (whole negative k.value) else float negative k.value k.left

/-- The next character, which has to be there. -/
def digitAfterSign (fault : Fault) : Reader Char := do
  match ← peek with
  | none => fail fault
  | some c => do advance; Pure.pure c

/-- A number, of which `first` has been taken. -/
def number (first : Char) : Reader Number := do
  if first = '-' then unsignedNumber true (← digitAfterSign (.ended .value))
  else unsignedNumber false first

/-- Whether a number may start with `c`. -/
def startsNumber (c : Char) : Bool := c = '-' || isDigit c

/-- Digits of a number that is not wanted, of which there has to be at least one. -/
def skippedDigits : Reader Unit := do
  match ← takeWhile isDigit with
  | [] => fail .invalidNumber
  | _ => Pure.pure ()

/-- The exponent of a number that is not wanted, after its letter. -/
def skippedExponent : Reader Unit := do
  let _ ← exponentSign
  skippedDigits

/-- The fraction of a number that is not wanted, after its point. -/
def skippedFraction : Reader Unit := do
  skippedDigits
  match ← peek with
  | some 'e' => do advance; skippedExponent
  | some 'E' => do advance; skippedExponent
  | _ => Pure.pure ()

/-- What may follow the first digit of a number that is not wanted. -/
def skippedRest (first : Char) : Reader Unit := do
  let _ ← integerDigits first
  match ← peek with
  | some '.' => do advance; skippedFraction
  | some 'e' => do advance; skippedExponent
  | some 'E' => do advance; skippedExponent
  | _ => Pure.pure ()

/-- A number that is not wanted, after its first character: only its form counts. -/
def skippedNumber (first : Char) : Reader Unit := do
  if first = '-' then skippedRest (← digitAfterSign .invalidNumber) else skippedRest first

end Reader
end RadioLink.Json

import RadioLink.Decimal.Binary64
import RadioLink.Schema.Datum
import RadioLink.Toml.Text

/-!
# Numbers and moments of TOML

Whole numbers of sixty-four bits in base ten, sixteen, eight or two, floating-point numbers, and
dates and times. A single underscore may stand between two digits.
-/

namespace RadioLink.Toml.Reader

open Text.Reader Schema Decimal

/-- The value of the digit `c` in base `base`. -/
def digit? (base : Nat) (c : Char) : Option Nat :=
  (Hex.value? c.toNat).bind fun v => if v < base then some v else none

/-- Digits in base `base`, of which there has to be at least one, with single underscores between
them. -/
def digits (base : Nat) : Reader (List Nat) := do
  let groups ← items
    (do
      match ← takeWhile fun c => (digit? base c).isSome with
      | [] => malformed
      | cs => Pure.pure cs)
    (follows '_')
  return groups.flatten.filterMap (digit? base)

/-- The number that the digits `ds` stand for in base `base`. -/
def value (base : Nat) (ds : List Nat) : Nat := ds.foldl (fun n d => n * base + d) 0

/-- The largest whole number. -/
def largest : Nat := (1 <<< 63) - 1

/-- `n` with its sign, unless it has too many bits. -/
def whole (negative : Bool) (n : Nat) : Reader Datum :=
  if negative then if n ≤ largest + 1 then Pure.pure (.integer (-n)) else malformed
  else if n ≤ largest then Pure.pure (.integer n)
  else malformed

/-- A whole number in a base other than ten, after its mark. -/
def based (base : Nat) : Reader Datum := do
  whole false (value base (← digits base))

/-- Whether a number has a sign in front, and whether it is a minus. -/
def sign : Reader (Option Bool) := do
  match ← peek with
  | some '+' => do advance; Pure.pure (some false)
  | some '-' => do advance; Pure.pure (some true)
  | _ => Pure.pure none

/-- Digits in base ten without a zero in front. -/
def plainDigits : Reader (List Nat) := do
  match ← peek with
  | some '0' => do advance; Pure.pure [0]
  | _ => digits 10

/-- The floating-point value of `ds · 10 ^ exponent`; far outside the range of exponents it is zero
or infinite without further ado. -/
def floatOf (negative : Bool) (ds : List Nat) (exponent : Int) : Binary64 :=
  let n := value 10 ds
  let top : Int := (Nat.toDigits 10 n).length + exponent
  if n = 0 ∨ top < -400 then .finite negative 0 Binary64.minExponent
  else if top > 400 then .infinite negative
  else .ofDecimal negative n exponent

/-- The exponent of a floating-point number, if it has one. -/
def exponent? : Reader (Option Int) := do
  let some c ← peek | Pure.pure none
  if c = 'e' ∨ c = 'E' then do
    advance
    let negative := (← sign).getD false
    let n := value 10 (← digits 10)
    return some (if negative then -n else n)
  else Pure.pure none

/-- The value `x`, which must not be beyond the largest one. -/
def finite (x : Binary64) : Reader Datum :=
  if x = .infinite false then malformed else Pure.pure (.float x)

/-- A number in base ten after its sign: floating-point if it has a fraction or an exponent. -/
def decimal (negative : Bool) : Reader Datum := do
  let ds ← plainDigits
  if ← follows '.' then do
    let fraction ← digits 10
    let e := (← exponent?).getD 0
    finite (floatOf negative (ds ++ fraction) (e - fraction.length))
  else do
    match ← exponent? with
    | some e => finite (floatOf negative ds e)
    | none => whole negative (value 10 ds)

/-- A value that has no digits. -/
def special (negative : Bool) : Reader Datum := do
  match ← peek with
  | some 'i' => do
    chars .malformed ['i', 'n', 'f']
    Pure.pure (.float (.infinite negative))
  | some 'n' => do
    chars .malformed ['n', 'a', 'n']
    Pure.pure (.float .nan)
  | _ => malformed

/-- A number. -/
def number : Reader Datum := do
  match ← sign with
  | some negative => (special negative).or (decimal negative)
  | none =>
    ((do chars .malformed ['0', 'x']; based 16 : Reader Datum).or
      ((do chars .malformed ['0', 'o']; based 8 : Reader Datum).or
        ((do chars .malformed ['0', 'b']; based 2 : Reader Datum).or
          ((special false).or (decimal false)))))

/-! ### Dates and times -/

/-- A number of exactly `count` digits. -/
def fixed (acc : Nat) : (count : Nat) → Reader Nat
  | 0 => Pure.pure acc
  | count + 1 => do
    match ← peek with
    | none => malformed
    | some c =>
      match digit? 10 c with
      | none => malformed
      | some v => do
        advance
        fixed (acc * 10 + v) count

/-- A number of two digits from `low` to `high`. -/
def within (low high : Nat) : Reader Unit := do
  let n ← fixed 0 2
  if low ≤ n ∧ n ≤ high then Pure.pure () else malformed

/-- The number of days of `month` in `year`. -/
def daysIn (year month : Nat) : Nat :=
  if month = 2 then
    if year % 4 = 0 ∧ (year % 100 ≠ 0 ∨ year % 400 = 0) then 29 else 28
  else if month = 4 ∨ month = 6 ∨ month = 9 ∨ month = 11 then 30
  else 31

/-- A date. -/
def date : Reader Unit := do
  let year ← fixed 0 4
  exactly '-'
  let month ← fixed 0 2
  if 1 ≤ month ∧ month ≤ 12 then do
    exactly '-'
    within 1 (daysIn year month)
  else malformed

/-- A time of day. -/
def time : Reader Unit := do
  within 0 23
  exactly ':'
  within 0 59
  exactly ':'
  within 0 60
  if ← follows '.' then do
    match ← takeWhile fun c => (digit? 10 c).isSome with
    | [] => malformed
    | _ => Pure.pure ()

/-- The distance from universal time. -/
def offset : Reader Unit := do
  match ← peek with
  | some 'Z' => advance
  | some 'z' => advance
  | some '+' => do advance; within 0 23; exactly ':'; within 0 59
  | some '-' => do advance; within 0 23; exactly ':'; within 0 59
  | _ => malformed

/-- A time of day after a date, and its distance from universal time, if it has one. -/
def timeAfterDate : Reader Unit := do
  match ← peek with
  | some 'T' => advance
  | some 't' => advance
  | some ' ' => advance
  | _ => malformed
  time
  let _ ← optional offset

/-- A date, a time of day, or both. -/
def moment : Reader Datum := do
  (do
    date
    let _ ← optional timeAfterDate
    return .moment : Reader Datum).or (do
    time
    return .moment)

end RadioLink.Toml.Reader

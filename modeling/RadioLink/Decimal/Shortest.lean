import RadioLink.Decimal.Binary64

/-!
# Shortest decimal text

The decimal text of a floating-point value uses the fewest digits that read back as that value and,
among those, the digits nearest to it. `shortest` finds the digits; a `Style` says how they are laid
out.

The values that read back as `m · 2 ^ e` form an interval around it. For one digit, two digits and
so on, the grid of numbers with so many digits has two neighbours of the value, and the first grid
with a neighbour inside the interval gives the answer. Seventeen digits always suffice.
-/

namespace RadioLink.Decimal

/-- Decimal digits `digits · 10 ^ exponent`. -/
structure Digits where
  digits : Nat
  exponent : Int
  deriving DecidableEq, Repr

/-- The interval of numbers that round to a value, as numerators over one common denominator;
the ends belong to it when `closed`. -/
structure Interval where
  low : Nat
  value : Nat
  high : Nat
  den : Nat
  closed : Bool

/-- The numbers that round to `m · 2 ^ e`: half a unit to either side, and only a quarter below a
power of two, where the next smaller value is nearer. -/
def interval (m : Nat) (e : Int) : Interval :=
  let below := if m = 1 <<< 52 ∧ e > Binary64.minExponent then 1 else 2
  let (p, d) := Binary64.scale 1 4 (-e)
  { low := (4 * m - below) * p, value := 4 * m * p, high := (4 * m + 2) * p, den := d,
    closed := m % 2 == 0 }

/-- Whether `c · 10 ^ k` lies in the interval. -/
def Interval.contains (i : Interval) (c : Nat) (k : Int) : Bool :=
  let (n, d) := if k < 0 then (c, Nat.pow 10 k.natAbs) else (c * Nat.pow 10 k.toNat, 1)
  let x := n * i.den
  if i.closed then i.low * d ≤ x && x ≤ i.high * d else i.low * d < x && x < i.high * d

/-- The neighbours of the value on the grid of multiples of `10 ^ k`, and whether the upper one
is nearer. -/
def Interval.neighbours (i : Interval) (k : Int) : Nat × Nat × Bool :=
  let (n, d) :=
    if k < 0 then (i.value * Nat.pow 10 k.natAbs, i.den)
    else (i.value, i.den * Nat.pow 10 k.toNat)
  let q := n / d
  let r := n % d
  (q, q + 1, 2 * r > d || (2 * r == d && q % 2 == 1))

/-- The nearest point of the grid inside the interval, if there is one. -/
def Interval.onGrid? (i : Interval) (k : Int) : Option Nat :=
  let (lower, upper, up) := i.neighbours k
  match i.contains lower k && lower != 0, i.contains upper k with
  | true, true => some (if up then upper else lower)
  | true, false => some lower
  | false, true => some upper
  | false, false => none

/-- The greatest `k` with `10 ^ k ≤ num / den`, found from the sizes of both. -/
def exponent10 (num den : Nat) : Int :=
  let guess : Int := ((num.log2 : Int) - den.log2) * 30103 / 100000 - 1
  let atLeast (k : Int) : Bool :=
    if k < 0 then den ≤ num * Nat.pow 10 k.natAbs else den * Nat.pow 10 k.toNat ≤ num
  let rec climb : Nat → Int → Int
    | 0, k => k
    | fuel + 1, k => if atLeast (k + 1) then climb fuel (k + 1) else k
  climb 4 guess

/-- `digits · 10 ^ exponent` without zeros at the end. -/
def Digits.normal : Nat → Digits → Digits
  | 0, x => x
  | fuel + 1, x =>
    if x.digits ≠ 0 ∧ x.digits % 10 = 0 then Digits.normal fuel ⟨x.digits / 10, x.exponent + 1⟩
    else x

/-- The fewest digits that read back as `m · 2 ^ e`, the nearest of them. -/
def shortest (m : Nat) (e : Int) : Digits :=
  if m = 0 then ⟨0, 0⟩
  else
    let i := interval m e
    let top := exponent10 i.value i.den
    let rec search : Nat → Int → Digits
      | 0, k => ⟨(i.neighbours k).1, k⟩
      | fuel + 1, k =>
        match i.onGrid? k with
        | some c => ⟨c, k⟩
        | none => search fuel (k - 1)
    (search 18 (top + 1)).normal 20

/-- How digits are laid out: `point` is the place of the decimal point counted from the first
digit, so that `0.1` has the point at 0 and `1.0` at 1. -/
structure Style where
  /-- Whether a value with that place of the point is written without an exponent. -/
  positional : Int → Bool
  /-- The least count of digits of an exponent. -/
  exponentDigits : Nat

/-- Exponents are for values below `10 ^ (-5)` and from `10 ^ 16` on, signed and with two digits. -/
def Style.compact : Style where
  positional p := -5 < p && p ≤ 16
  exponentDigits := 2

/-- No exponents at all. -/
def Style.expanded : Style where
  positional _ := true
  exponentDigits := 1

/-- The text of nonzero digits under a style; a whole number ends in `.0`. -/
def Digits.text (style : Style) (x : Digits) : String :=
  let ds := (Nat.toDigits 10 x.digits)
  let point : Int := ds.length + x.exponent
  if style.positional point then
    if x.exponent ≥ 0 then
      String.ofList (ds ++ List.replicate x.exponent.toNat '0' ++ ['.', '0'])
    else if point > 0 then
      String.ofList (ds.take point.toNat ++ '.' :: ds.drop point.toNat)
    else
      String.ofList ('0' :: '.' :: List.replicate point.natAbs '0' ++ ds)
  else
    let exponent := point - 1
    let es := Nat.toDigits 10 exponent.natAbs
    let es := List.replicate (style.exponentDigits - es.length) '0' ++ es
    let sign := if exponent < 0 then '-' else '+'
    let fraction := if ds.length > 1 then '.' :: ds.drop 1 else []
    String.ofList (ds.take 1 ++ fraction ++ 'e' :: sign :: es)

/-- The text of the value under `style`. -/
def Binary64.text (style : Style) : Binary64 → String
  | .finite negative m e =>
    let body := if m = 0 then "0.0" else (shortest m e).text style
    if negative then "-" ++ body else body
  | .infinite negative => if negative then "-inf" else "inf"
  | .nan => "NaN"

end RadioLink.Decimal

/-!
# Binary floating point

The values of the 64-bit binary format, held exactly: a finite value is `± m · 2 ^ e` with
`m < 2 ^ 53`. Arithmetic computes the exact rational result and rounds it once, in `ofQuotient`, to
the nearest value with ties to the even mantissa.
-/

namespace RadioLink.Decimal

/-- A value of the 64-bit binary floating-point format. -/
inductive Binary64 where
  /-- `± mantissa · 2 ^ exponent`; the sign of zero is kept. -/
  | finite (negative : Bool) (mantissa : Nat) (exponent : Int)
  | infinite (negative : Bool)
  | nan
  deriving DecidableEq, Repr

namespace Binary64

/-- The exponent of the smallest positive value. -/
def minExponent : Int := -1074

/-- The largest exponent of a finite value with a full mantissa. -/
def maxExponent : Int := 971

/-- `num / den` to the nearest whole number, a half going to the even neighbour. -/
def roundQuotient (num den : Nat) : Nat :=
  let q := num / den
  let r := num % den
  if 2 * r < den then q else if 2 * r > den then q + 1 else q + q % 2

/-- `num / den · 2 ^ (-e)` as a quotient of whole numbers. -/
def scale (num den : Nat) (e : Int) : Nat × Nat :=
  if e < 0 then (num <<< e.natAbs, den) else (num, den <<< e.toNat)

/-- The value nearest to `num / den`, infinite where that lies beyond the largest one. -/
def ofQuotient (negative : Bool) (num den : Nat) : Binary64 :=
  if num = 0 ∨ den = 0 then .finite negative 0 minExponent
  else
    let guess : Int := (num.log2 : Int) - den.log2 - 52
    let fitted := let (n, d) := scale num den guess; if n / d < 1 <<< 52 then guess - 1 else guess
    let e := max fitted minExponent
    let (n, d) := scale num den e
    let m := roundQuotient n d
    let (m, e) := if m = 1 <<< 53 then (1 <<< 52, e + 1) else (m, e)
    if e > maxExponent then .infinite negative else .finite negative m e

/-- The value nearest to `n`. -/
def ofNat (n : Nat) : Binary64 := ofQuotient false n 1

/-- The value nearest to `digits · 10 ^ exponent`. -/
def ofDecimal (negative : Bool) (digits : Nat) (exponent : Int) : Binary64 :=
  if exponent < 0 then ofQuotient negative digits (Nat.pow 10 exponent.natAbs)
  else ofQuotient negative (digits * Nat.pow 10 exponent.toNat) 1

/-- The same value with the other sign. -/
def negate : Binary64 → Binary64
  | .finite s m e => .finite (!s) m e
  | .infinite s => .infinite (!s)
  | .nan => .nan

/-- Whether the value is a zero of either sign. -/
def isZero : Binary64 → Bool
  | .finite _ m _ => m == 0
  | _ => false

/-- The product of two finite values, rounded once; `none` when it is not finite. -/
def mul? : Binary64 → Binary64 → Option Binary64
  | .finite s m e, .finite s' m' e' =>
    let (n, d) := scale (m * m') 1 (-(e + e'))
    match ofQuotient (s != s') n d with
    | .infinite _ => none
    | x => some x
  | _, _ => none

/-- The quotient of two finite values, rounded once; dividing by zero leaves the first as it is. -/
def div : Binary64 → Binary64 → Binary64
  | .finite s m e, .finite s' m' e' =>
    if m' = 0 then .finite s m e
    else let (n, d) := scale m m' (-(e - e')); ofQuotient (s != s') n d
  | x, _ => x

/-- The value nearest to `10 ^ n`, for `n ≤ 308`. -/
def pow10 (n : Nat) : Binary64 := ofQuotient false (Nat.pow 10 n) 1

end Binary64
end RadioLink.Decimal

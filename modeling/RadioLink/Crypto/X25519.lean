import RadioLink.Bytes

/-!
# X25519

Key agreement on the curve `y² = x³ + 486662 x² + x` over the field of `2 ^ 255 - 19` elements, by
the first coordinate alone. A private key is a multiple of eight with its highest bit set; a public
key is the first coordinate of the base point taken that many times. Every thirty-two bytes are
taken as a coordinate, the highest bit left out.
-/

namespace RadioLink.X25519

/-- The number of elements of the field. -/
def p : Nat := (1 <<< 255) - 19

/-- The difference in the field. -/
def sub (a b : Nat) : Nat := (a + (p - b % p)) % p

/-- The product in the field. -/
def mul (a b : Nat) : Nat := a * b % p

/-- `a ^ n` in the field, for `n` of at most `digits` binary digits. -/
def pow (a : Nat) : (digits n : Nat) → Nat
  | 0, _ => 1
  | digits + 1, n =>
    let half := pow a digits (n / 2)
    let square := mul half half
    if n % 2 = 1 then mul square a else square

/-- `a⁻¹` in the field; that of zero is zero. -/
def inverse (a : Nat) : Nat := pow a 255 (p - 2)

/-- Two neighbouring multiples of a point, each as a quotient of field elements. -/
structure Ladder where
  x2 : Nat
  z2 : Nat
  x3 : Nat
  z3 : Nat

/-- The two multiples in the other order. -/
def Ladder.swap (l : Ladder) : Ladder := ⟨l.x3, l.z3, l.x2, l.z2⟩

/-- Doubles the first multiple and adds it to the second; `x` is the coordinate of the point. -/
def Ladder.step (x : Nat) (l : Ladder) : Ladder :=
  let a := l.x2 + l.z2
  let aa := mul a a
  let b := sub l.x2 l.z2
  let bb := mul b b
  let e := sub aa bb
  let c := l.x3 + l.z3
  let d := sub l.x3 l.z3
  let da := mul d a
  let cb := mul c b
  let sum := da + cb
  let difference := sub da cb
  ⟨mul aa bb, mul e (aa + 121665 * e), mul sum sum, mul x (mul difference difference)⟩

/-- Climbs down the lowest `count` binary digits of `scalar`. -/
def Ladder.climb (x scalar : Nat) : (count : Nat) → Ladder → Ladder
  | 0, l => l
  | count + 1, l =>
    let l :=
      if scalar.testBit count then ((l.swap).step x).swap else l.step x
    climb x scalar count l

/-- The first coordinate of the point with coordinate `x`, taken `scalar` times. -/
def multiply (scalar x : Nat) : Nat :=
  let l := Ladder.climb x scalar 255 ⟨1, 0, x, 1⟩
  mul l.x2 (inverse l.z2)

/-- The multiple that the private key with the number `n` stands for. -/
def clamp (n : Nat) : Nat := n % (1 <<< 254) / 8 * 8 + (1 <<< 254)

/-- A key: thirty-two bytes. -/
abbrev Key := Vector UInt8 32

/-- The key with these bytes, if there are thirty-two. -/
def key? (bs : Bytes) : Option Key :=
  if h : bs.length = 32 then some ⟨bs.toArray, by simpa using h⟩ else none

/-- The bytes of a coordinate. -/
def ofCoordinate (n : Nat) : Key :=
  ⟨(Bytes.ofNatLE 32 n).toArray, by simp⟩

/-- The secret that the owner of `secret` shares with the owner of `public'`. -/
def agree (secret public' : Key) : Key :=
  ofCoordinate
    (multiply (clamp (Bytes.toNatLE secret.toList))
      (Bytes.toNatLE public'.toList % (1 <<< 255) % p))

/-- The coordinate of the base point. -/
def base : Key := ofCoordinate 9

/-- The public key that belongs to `secret`. -/
def publicKey (secret : Key) : Key := agree secret base

/-- A private key with the public one that belongs to it. -/
structure KeyPair where
  publicPart : Key
  secret : Key

/-- The pair of `secret`. -/
def KeyPair.ofSecret (secret : Key) : KeyPair := ⟨X25519.publicKey secret, secret⟩

/-- What a private key is shown as. -/
def hiddenKey : String := "PrivateKey(..)"

end RadioLink.X25519

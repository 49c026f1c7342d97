import RadioLink.Bytes

/-!
# ChaCha20

A block cipher core of twenty `rounds` on sixteen words, used in two ways: counting blocks under one
key and nonce makes a key stream (`stream`), and stirring a key with the first part of a long nonce
makes a further key for it (`deriveKey`).
-/

namespace RadioLink.ChaCha20

/-- Sixteen words. -/
abbrev Block := Vector UInt32 16

/-- `x` turned to the left by `n` bits. -/
def turn (x n : UInt32) : UInt32 := (x <<< n) ||| (x >>> (32 - n))

/-- Stirs four words of the block. -/
def quarter (a b c d : Fin 16) (v : Block) : Block :=
  let xa := v[a] + v[b]
  let xd := turn (v[d] ^^^ xa) 16
  let xc := v[c] + xd
  let xb := turn (v[b] ^^^ xc) 12
  let xa := xa + xb
  let xd := turn (xd ^^^ xa) 8
  let xc := xc + xd
  let xb := turn (xb ^^^ xc) 7
  (((v.set a xa).set b xb).set c xc).set d xd

/-- A round on the columns and one on the diagonals. -/
def doubleRound (v : Block) : Block :=
  v |> quarter 0 4 8 12 |> quarter 1 5 9 13 |> quarter 2 6 10 14 |> quarter 3 7 11 15
    |> quarter 0 5 10 15 |> quarter 1 6 11 12 |> quarter 2 7 8 13 |> quarter 3 4 9 14

/-- Twenty rounds. -/
def rounds (v : Block) : Block := Nat.repeat doubleRound 10 v

/-- Bytes as little-endian words. -/
def words : Bytes → List UInt32
  | a :: b :: c :: d :: rest => UInt32.ofNat (Bytes.toNatLE [a, b, c, d]) :: words rest
  | _ => []

/-- The first four words of every block. -/
def constants : List UInt32 := [0x61707865, 0x3320646e, 0x79622d32, 0x6b206574]

/-- The block before the rounds: `constants`, the words of `key`, and the four words of `tail`. -/
def setup (key : Bytes) (tail : List UInt32) : Block :=
  let ws := constants ++ words key ++ tail
  Vector.ofFn fun i => ws.getD i.val 0

/-- Words as little-endian bytes. -/
def wordBytes (ws : List UInt32) : Bytes := ws.flatMap fun w => Bytes.ofNatLE 4 w.toNat

/-- The block of the key stream with this number. -/
def streamBlock (key nonce : Bytes) (number : Nat) : Bytes :=
  let v := setup key (UInt32.ofNat number :: words nonce)
  wordBytes ((rounds v).zipWith (· + ·) v).toList

/-- `count` blocks of the key stream, from `number` on. -/
def stream (key nonce : Bytes) (number count : Nat) : Bytes :=
  (List.range count).flatMap fun i => streamBlock key nonce (number + i)

/-- `bytes` under the key stream from block `number` on; doing it twice gives the bytes back. -/
def apply (key nonce : Bytes) (number : Nat) (bytes : Bytes) : Bytes :=
  List.zipWith (· ^^^ ·) bytes (stream key nonce number ((bytes.length + 63) / 64))

/-- A further key, from `key` and sixteen bytes of `nonce`. -/
def deriveKey (key nonce : Bytes) : Bytes :=
  let v := (rounds (setup key (words nonce))).toList
  wordBytes (v.take 4 ++ v.drop 12)

end RadioLink.ChaCha20

import RadioLink.Crypto.SecretBox
import RadioLink.Crypto.Sha256
import RadioLink.Crypto.X25519

/-!
# Entropy

Where what cannot be foreseen comes from: numbers, one-time keys and nonces, a fresh one with each
draw. `Entropy.digest` is good enough where nobody has to be kept from guessing, as in a simulation.
-/

namespace RadioLink

/-- What each draw brings, by its number. -/
structure Entropy where
  number : Nat → Nat
  key : Nat → X25519.Key
  nonce : Nat → SecretBox.Nonce

namespace Entropy

/-- The first `count` bytes of the digest of `seed`. -/
def digestBytes (count seed : Nat) : Bytes := (Sha256.hash (Bytes.ofNatBE 8 seed)).take count

/-- Entropy that is a digest of the number of the draw. -/
def digest : Entropy where
  number n := Bytes.toNatBE (digestBytes 4 (2 * n))
  key n := (X25519.key? (digestBytes 32 (2 * n))).getD (Vector.replicate 32 0)
  nonce n := (SecretBox.nonce? (digestBytes 24 (2 * n + 1))).getD (Vector.replicate 24 0)

end Entropy
end RadioLink

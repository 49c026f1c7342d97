import RadioLink.Crypto.ChaCha20
import RadioLink.Crypto.Poly1305

/-!
# Authenticated encryption

XChaCha20-Poly1305 without further data. The first two thirds of the nonce go into a key of its own
(`derive`), with which the text is encrypted; a `tag` over the encrypted text follows it. `decrypt`
refuses a text whose tag is not its own.
-/

namespace RadioLink.SecretBox

/-- A nonce. -/
abbrev Nonce := Vector UInt8 24

/-- Twenty-four bytes as a nonce. -/
def nonce? (bs : Bytes) : Option Nonce :=
  if h : bs.length = 24 then some ⟨bs.toArray, by simpa using h⟩ else none

/-- The number of bytes of a tag. -/
def tagSize : Nat := 16

/-- The key of the nonce's own, and the rest of the nonce. -/
def derive (key : Bytes) (nonce : Nonce) : Bytes × Bytes :=
  (ChaCha20.deriveKey key (nonce.toList.take 16), [0, 0, 0, 0] ++ nonce.toList.drop 16)

/-- Zeros behind `n` bytes up to a whole number of blocks. -/
def padding (n : Nat) : Bytes := List.replicate ((16 - n % 16) % 16) 0

/-- The tag of the encrypted `text`. -/
def tag (key nonce text : Bytes) : Bytes :=
  let once := (ChaCha20.streamBlock key nonce 0).take 32
  Poly1305.tag once
    (text ++ (padding text.length ++ (Bytes.ofNatLE 8 0 ++ Bytes.ofNatLE 8 text.length)))

/-- `plain` encrypted, and its tag. -/
def encrypt (key : Bytes) (nonce : Nonce) (plain : Bytes) : Bytes :=
  let (key, nonce) := derive key nonce
  let text := ChaCha20.apply key nonce 1 plain
  text ++ tag key nonce text

/-- The text that was encrypted, if the tag is right. -/
def decrypt (key : Bytes) (nonce : Nonce) (sealed : Bytes) : Option Bytes :=
  if sealed.length < tagSize then none
  else
    let (key, nonce) := derive key nonce
    let text := sealed.take (sealed.length - tagSize)
    if sealed.drop (sealed.length - tagSize) = tag key nonce text then
      some (ChaCha20.apply key nonce 1 text)
    else none

end RadioLink.SecretBox

import RadioLink.Crypto.Sha256
import RadioLink.Crypto.X25519
import RadioLink.Crypto.SecretBox
import RadioLink.Frame.Basic

/-!
# Encrypted messages

A message for one device alone is sealed: its written form is encrypted under a key that only this
device can find again, and put into the fields of another message together with what it needs for
that. A payload is not sealed; it travels beside the message.

The key (`deriveKey`) is a digest of the shared secret, the sender's one-time public key and the
receiver's public key. `Suite` holds the two primitives that sealing is built from.
-/

namespace RadioLink

/-- What sealing is built from: key agreement and authenticated encryption. -/
structure Suite where
  publicKey : X25519.Key → X25519.Key
  agree : X25519.Key → X25519.Key → X25519.Key
  encrypt : Bytes → SecretBox.Nonce → Bytes → Bytes
  decrypt : Bytes → SecretBox.Nonce → Bytes → Option Bytes

/-- X25519 and XChaCha20-Poly1305. -/
def Suite.standard : Suite where
  publicKey := X25519.publicKey
  agree := X25519.agree
  encrypt := SecretBox.encrypt
  decrypt := SecretBox.decrypt

namespace Envelope

/-- The key of an envelope, from the shared secret and the two public keys. -/
def deriveKey (shared ephemeral recipient : X25519.Key) : Bytes :=
  Sha256.hash (shared.toList ++ (ephemeral.toList ++ recipient.toList))

/-- Seals `m` for the owner of the public key `recipient`, with a one-time private key and a nonce.
-/
def sealFor (suite : Suite) (ephemeral : X25519.Key) (nonce : SecretBox.Nonce)
    (recipient : X25519.Key) (m : Message) : Message :=
  let key := deriveKey (suite.agree ephemeral recipient) (suite.publicKey ephemeral) recipient
  let sealed := suite.encrypt key nonce (Bytes.ofText m.toJson)
  Message.ofKind m.id .encrypted
    |>.setField EnvelopeField.ephemeralKey.name (Hex.encode (suite.publicKey ephemeral).toList)
    |>.setField EnvelopeField.nonce.name (Hex.encode nonce.toList)
    |>.setField EnvelopeField.data.name (Hex.encode sealed)

/-- The bytes in `field` of the envelope. -/
def fieldBytes (m : Message) (field : EnvelopeField) : Except DecryptionFault Bytes :=
  match m.field? field.name with
  | none => .error .missingField
  | some text =>
    match Hex.decode text with
    | .ok bytes => .ok bytes
    | .error fault => .error (.notHex field fault)

/-- The bytes in `field` of the envelope, of which there has to be the number that `sized` takes. -/
def sizedField (m : Message) (field : EnvelopeField) (sized : Bytes → Option α) :
    Except DecryptionFault α :=
  match fieldBytes m field with
  | .error fault => .error fault
  | .ok bytes =>
    match sized bytes with
    | some a => .ok a
    | none => .error (.wrongLength field)

/-- What `m` holds if it is an envelope: the one-time public key, the nonce and the sealed text. -/
def contents (m : Message) :
    Except DecryptionFault (X25519.Key × SecretBox.Nonce × Bytes) := do
  if m.kind ≠ .encrypted then throw (.notEncrypted m.kind.name)
  let ephemeral ← sizedField m .ephemeralKey X25519.key?
  let nonce ← sizedField m .nonce SecretBox.nonce?
  let data ← fieldBytes m .data
  return (ephemeral, nonce, data)

/-- Opens the envelope `m` with the receiver's private key. -/
def openWith (suite : Suite) (secret : X25519.Key) (m : Message) : Except LinkError Message :=
  match contents m with
  | .error fault => .error (.decryption fault)
  | .ok (ephemeral, nonce, data) =>
    let key := deriveKey (suite.agree secret ephemeral) ephemeral (suite.publicKey secret)
    match suite.decrypt key nonce data with
    | none => .error (.decryption .refused)
    | some plain => Message.ofBytes plain

end Envelope
end RadioLink

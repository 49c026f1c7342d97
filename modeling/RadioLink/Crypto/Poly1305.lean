import RadioLink.Bytes

/-!
# Poly1305

The tag of a text is a polynomial in one half of a one-time key, whose coefficients are the text's
blocks of sixteen bytes with a one on top, modulo `2 ^ 130 - 5`, plus the other half of the key.
-/

namespace RadioLink.Poly1305

/-- The modulus. -/
def p : Nat := (1 <<< 130) - 5

/-- The bits of the key's first half that count. -/
def mask : Nat := 0x0ffffffc0ffffffc0ffffffc0fffffff

/-- The polynomial of a text, from the value `acc` on, over `count` blocks. -/
def evaluate (r : Nat) : (count acc : Nat) → Bytes → Nat
  | 0, acc, _ => acc
  | count + 1, acc, text =>
    let block := text.take 16
    evaluate r count ((acc + (Bytes.toNatLE block + 1 <<< (8 * block.length))) * r % p)
      (text.drop 16)

/-- The tag of `text` under the one-time `key`. -/
def tag (key text : Bytes) : Bytes :=
  let r := Bytes.toNatLE (key.take 16) &&& mask
  let s := Bytes.toNatLE ((key.drop 16).take 16)
  Bytes.ofNatLE 16 (evaluate r ((text.length + 15) / 16) 0 text + s)

@[simp] theorem length_tag (key text : Bytes) : (tag key text).length = 16 := by simp [tag]

end RadioLink.Poly1305

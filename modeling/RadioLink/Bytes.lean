/-!
# Bytes

A frame, a payload and everything a radio carries is a list of bytes. Text enters and leaves as
UTF-8: `Bytes.ofText` writes it and `Bytes.text?` reads it back, refusing whatever is not the
UTF-8 form of some text.

    text?_ofText : Bytes.text? (Bytes.ofText s) = some s
-/

namespace RadioLink

/-- What a stream carries: bytes in order. -/
abbrev Bytes := List UInt8

namespace Bytes

/-- The UTF-8 form of `s`. -/
def ofText (s : String) : Bytes := s.toUTF8.data.toList

/-- The text whose UTF-8 form is `bs`, if there is one. -/
def text? (bs : Bytes) : Option String := String.fromUTF8? ⟨bs.toArray⟩

theorem text?_ofText (s : String) : text? (ofText s) = some s := by
  have h : (⟨(s.toUTF8.data.toList).toArray⟩ : ByteArray) = s.toByteArray := by simp
  simp only [text?, ofText, h, String.fromUTF8?]
  rw [dif_pos s.isValidUTF8]
  rfl

theorem ofText_of_text? {bs : Bytes} {s : String} (h : text? bs = some s) : ofText s = bs := by
  simp only [text?, String.fromUTF8?] at h
  split at h
  · injection h with h
    subst h
    simp [ofText, String.fromUTF8]
  · simp at h

/-- The number whose big-endian digits are `bs`. -/
def toNatBE (bs : Bytes) : Nat := bs.foldl (fun n b => n * 256 + b.toNat) 0

/-- The number whose little-endian digits are `bs`. -/
def toNatLE (bs : Bytes) : Nat := bs.foldr (fun b n => n * 256 + b.toNat) 0

/-- The lowest `count` little-endian digits of `n`. -/
def ofNatLE : (count n : Nat) → Bytes
  | 0, _ => []
  | count + 1, n => UInt8.ofNat (n % 256) :: ofNatLE count (n / 256)

/-- The lowest `count` big-endian digits of `n`. -/
def ofNatBE (count n : Nat) : Bytes := (ofNatLE count n).reverse

@[simp] theorem length_ofNatLE (count n : Nat) : (ofNatLE count n).length = count := by
  induction count generalizing n with
  | zero => rfl
  | succ count ih => simp [ofNatLE, ih]

end Bytes
end RadioLink

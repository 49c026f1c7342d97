import RadioLink.Bytes

/-!
# The delimiter

In a frame with a payload, fixed bytes stand between the payload and the message. They may not occur
in a payload. Inside a message they can only stand in a string literal, where `escape` writes their
blank as an escape.

    find?_le : find? bs = some i → i + size ≤ bs.length
-/

namespace RadioLink.Delimiter

/-- The delimiter. -/
def bytes : Bytes := Bytes.ofText "Bluetooth Nonce"

/-- The delimiter as it is written inside a string literal. -/
def spelled : Bytes := Bytes.ofText "Bluetooth\\u0020Nonce"

/-- The number of bytes of the delimiter. -/
def size : Nat := 15

/-- Whether the delimiter stands at the start of `bs`. -/
def atStart (bs : Bytes) : Bool := bs.take size = bytes

/-- The place of the first delimiter, the text starting at `index`. -/
def findFrom (index : Nat) : Bytes → Option Nat
  | [] => none
  | b :: rest => if b = 0x42 && atStart (b :: rest) then some index else findFrom (index + 1) rest

/-- The place of the first delimiter in `bs`. -/
def find? (bs : Bytes) : Option Nat := findFrom 0 bs

theorem length_bytes : bytes.length = size := by decide +kernel

theorem size_le_of_atStart {bs : Bytes} (h : atStart bs) : size ≤ bs.length := by
  have h := congrArg List.length (of_decide_eq_true h)
  rw [length_bytes, List.length_take] at h
  omega

theorem findFrom_le {index i : Nat} {bs : Bytes} (h : findFrom index bs = some i) :
    index ≤ i ∧ i - index + size ≤ bs.length := by
  induction bs generalizing index with
  | nil => cases h
  | cons b rest ih =>
    rw [findFrom] at h
    split at h
    · next hs =>
      injection h with h; subst h
      have := size_le_of_atStart (Bool.and_eq_true .. ▸ hs).2
      omega
    · have := ih h
      simp only [List.length_cons]
      omega

theorem find?_le {i : Nat} {bs : Bytes} (h : find? bs = some i) : i + size ≤ bs.length :=
  (findFrom_le h).2

/-- Writes every delimiter in `bs` as `spelled`, from left to right. -/
def escape (bs : Bytes) : Bytes :=
  match _h : find? bs with
  | none => bs
  | some i => bs.take i ++ (spelled ++ escape (bs.drop (i + size)))
  termination_by bs.length
  decreasing_by
    have := find?_le ‹_›
    simp only [size, List.length_drop] at *
    omega

end RadioLink.Delimiter

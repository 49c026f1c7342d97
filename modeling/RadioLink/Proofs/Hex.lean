import RadioLink.Hex

/-!
# Hexadecimal digits

A digit stands for a value below sixteen, and from ten on with a small letter or a capital one.
Reading a digit finds its value, and nothing else is read as a digit:

    value?_eq_some_iff : value? c.toNat = some n ↔ IsDigit n c
-/

namespace RadioLink.Hex

/-- `c` is `digit n` or `digitUpper n`, with `n < 16`. -/
inductive IsDigit (n : Nat) : Char → Prop
  | small : n < 16 → IsDigit n (digit n)
  | capital : n < 16 → IsDigit n (digitUpper n)

variable {c : Char} {n m : Nat}

theorem IsDigit.lt (h : IsDigit n c) : n < 16 := by
  cases h <;> assumption

theorem value?_digit (h : n < 16) : value? (digit n).toNat = some n :=
  (by decide : ∀ n < 16, value? (digit n).toNat = some n) n h

theorem value?_digitUpper (h : n < 16) : value? (digitUpper n).toNat = some n :=
  (by decide : ∀ n < 16, value? (digitUpper n).toNat = some n) n h

theorem isDigit_of_value? (h : value? c.toNat = some n) : IsDigit n c := by
  -- a character is known by its code, so each range of codes gives the digit back
  have hcode : c = Char.ofNat c.toNat := (Char.ofNat_toNat c).symm
  unfold value? at h
  split at h
  · injection h with h
    have hc : c = digit n := by rw [digit, if_pos (by omega), hcode]; congr 1; omega
    exact hc ▸ .small (by omega)
  · split at h
    · injection h with h
      have hc : c = digitUpper n := by rw [digitUpper, if_neg (by omega), hcode]; congr 1; omega
      exact hc ▸ .capital (by omega)
    · split at h
      · injection h with h
        have hc : c = digit n := by rw [digit, if_neg (by omega), hcode]; congr 1; omega
        exact hc ▸ .small (by omega)
      · cases h

/-- **`value?` reads a character as `n` exactly if `IsDigit n` holds of it.** -/
theorem value?_eq_some_iff : value? c.toNat = some n ↔ IsDigit n c := by
  constructor
  · exact isDigit_of_value?
  · intro h
    cases h with
    | small hn => exact value?_digit hn
    | capital hn => exact value?_digitUpper hn

/-- What holds of `digit n` and `digitUpper n` for every `n < 16` holds of all digits: thirty-two
cases to check. -/
theorem IsDigit.of_forall {p : Char → Prop} (h : ∀ n < 16, p (digit n) ∧ p (digitUpper n))
    (hc : IsDigit n c) : p c := by
  cases hc with
  | small hn => exact (h n hn).1
  | capital hn => exact (h n hn).2

end RadioLink.Hex

import Mathlib.Data.Nat.Digits.Lemmas
import Mathlib.Order.RelClasses
import RadioLink.Address

/-!
# The order of addresses

`a < b` compares `toNat`, the number that the six octets are the digits of. It is below `2 ^ 48`,
and `toNat_injective`, so the order is total. A list made by `insertSorted` is in order, without
repetitions.
-/

namespace RadioLink

/-- `Bytes.toNatBE` is `Nat.ofDigits` of the reversed bytes. -/
theorem Bytes.toNatBE_eq_ofDigits (bs : Bytes) :
    Bytes.toNatBE bs = Nat.ofDigits 256 (bs.reverse.map UInt8.toNat) := by
  induction bs using List.reverseRecOn with
  | nil => rfl
  | append_singleton bs b ih =>
    rw [List.reverse_append, List.reverse_singleton, List.singleton_append, List.map_cons,
      Nat.ofDigits_cons, ← ih]
    simp only [toNatBE, List.foldl_append, List.foldl_cons, List.foldl_nil]
    omega

/-- The digits that `Bytes.toNatBE_eq_ofDigits` speaks of are below 256. -/
theorem Bytes.digit_lt {bs : Bytes} {d : Nat} (h : d ∈ bs.reverse.map UInt8.toNat) : d < 256 := by
  obtain ⟨b, -, rfl⟩ := List.mem_map.1 h
  exact b.toNat_lt

namespace Address

theorem toNat_lt (a : Address) : a.toNat < 2 ^ 48 := by
  have h := Nat.ofDigits_lt_base_pow_length (b := 256)
    (l := a.octets.toList.reverse.map UInt8.toNat) (by decide) fun _ => Bytes.digit_lt
  rw [toNat, Bytes.toNatBE_eq_ofDigits]
  simpa using h

theorem toNat_injective : Function.Injective toNat := by
  intro a b h
  rw [toNat, toNat, Bytes.toNatBE_eq_ofDigits, Bytes.toNatBE_eq_ofDigits] at h
  have hdigits := Nat.ofDigits_inj_of_len_eq (by decide) (by simp) (fun _ => Bytes.digit_lt)
    (fun _ => Bytes.digit_lt) h
  have hbytes := List.map_injective_iff.2 (fun _ _ => UInt8.toNat_inj.1) hdigits
  obtain ⟨⟨as⟩⟩ := a
  obtain ⟨⟨bs⟩⟩ := b
  simpa [Vector.toList] using hbytes

instance : IsStrictTotalOrder Address (· < ·) where
  irrefl a := Nat.lt_irrefl a.toNat
  trans _ _ _ := Nat.lt_trans
  trichotomous _ _ hab hba :=
    toNat_injective (Nat.le_antisymm (Nat.le_of_not_lt hba) (Nat.le_of_not_lt hab))

/-! ### Lists in order -/

variable {a b : Address} {as bs : List Address}

theorem mem_insertSorted : b ∈ insertSorted a bs ↔ b = a ∨ b ∈ bs := by
  induction bs with
  | nil => exact List.mem_cons
  | cons c bs ih =>
    simp only [insertSorted]
    split
    · exact List.mem_cons
    · split
      · next heq => simp [heq]
      · rw [List.mem_cons, ih, List.mem_cons]
        exact or_left_comm

theorem pairwise_insertSorted (h : bs.Pairwise (· < ·)) : (insertSorted a bs).Pairwise (· < ·) := by
  induction bs with
  | nil => exact List.pairwise_singleton _ _
  | cons c bs ih =>
    obtain ⟨hc, hbs⟩ := List.pairwise_cons.1 h
    simp only [insertSorted]
    split
    · next hlt =>
      exact List.pairwise_cons.2 ⟨fun b hb => (List.mem_cons.1 hb).elim (· ▸ hlt)
        fun hb => Nat.lt_trans hlt (hc b hb), h⟩
    · next hle =>
      split
      · exact h
      · next hne =>
        have hlt : c < a := Nat.lt_of_le_of_ne (Nat.le_of_not_lt hle) fun heq =>
          hne (toNat_injective heq.symm)
        refine List.pairwise_cons.2 ⟨fun b hb => ?_, ih hbs⟩
        obtain rfl | hb := mem_insertSorted.1 hb
        · exact hlt
        · exact hc b hb

theorem mem_foldl_insertSorted :
    b ∈ as.foldl (fun bs a => insertSorted a bs) bs ↔ b ∈ as ∨ b ∈ bs := by
  induction as generalizing bs with
  | nil => simp
  | cons a as ih =>
    rw [List.foldl_cons, ih, mem_insertSorted, List.mem_cons]
    exact or_left_comm.trans or_assoc.symm

theorem pairwise_foldl_insertSorted (h : bs.Pairwise (· < ·)) :
    (as.foldl (fun bs a => insertSorted a bs) bs).Pairwise (· < ·) := by
  induction as generalizing bs with
  | nil => exact h
  | cons a as ih => exact ih (pairwise_insertSorted h)

end Address
end RadioLink

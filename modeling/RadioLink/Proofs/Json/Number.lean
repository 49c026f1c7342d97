import RadioLink.Json.Printer
import RadioLink.Json.Shape
import RadioLink.Proofs.Reading

/-!
# Whole numbers, printed and read

A whole number is printed with its decimal digits, the first of which is a zero only if it is the
only one, and a minus in front of a negative one. Reading takes as many digits as there are, so it
gives the number back wherever no character follows that could be one more part of it:

    reads_int64 : Reads int64 (integerText n.toInt) n
-/

namespace RadioLink.Json

open Reader Text.Reader

/-! ### Decimal digits -/

/-- The number that the digits `cs` make when they are appended to those of `n`. -/
def appendDigits (n : Nat) (cs : List Char) : Nat := cs.foldl (fun n c => n * 10 + digitValue c) n

theorem le_appendDigits (n : Nat) (cs : List Char) : n ≤ appendDigits n cs := by
  induction cs generalizing n with
  | nil => exact Nat.le_refl n
  | cons c cs ih =>
    have h := ih (n * 10 + digitValue c)
    rw [appendDigits, List.foldl_cons, ← appendDigits]
    omega

/-- `keepDigits` keeps all digits when they make a number of 64 bits. -/
theorem keepDigits_eq {n : Nat} (kept : Nat) {cs : List Char}
    (h : appendDigits n cs < UInt64.size) :
    keepDigits n kept cs = ⟨appendDigits n cs, kept + cs.length, 0⟩ := by
  induction cs generalizing n kept with
  | nil => rfl
  | cons c cs ih =>
    have h' : appendDigits (n * 10 + digitValue c) cs < UInt64.size := h
    have hle := le_appendDigits (n * 10 + digitValue c) cs
    rw [keepDigits, if_pos (by omega), ih _ h', appendDigits, appendDigits, List.foldl_cons,
      List.length_cons]
    congr 1
    omega

theorem appendDigits_append (n : Nat) (cs ds : List Char) :
    appendDigits n (cs ++ ds) = appendDigits (appendDigits n cs) ds := List.foldl_append

theorem digitValue_digitChar {n : Nat} (h : n < 10) : digitValue n.digitChar = n :=
  (by decide : ∀ n < 10, digitValue (Nat.digitChar n) = n) n h

theorem appendDigits_toDigits (n : Nat) : appendDigits 0 (Nat.toDigits 10 n) = n := by
  induction n using Nat.strongRecOn with
  | ind n ih =>
    rcases Nat.lt_or_ge n 10 with hlt | hge
    · rw [Nat.toDigits_of_lt_base hlt, appendDigits, List.foldl_cons, List.foldl_nil,
        digitValue_digitChar hlt]
      omega
    · rw [Nat.toDigits_of_base_le (by decide) hge, appendDigits_append, ih (n / 10) (by omega),
        appendDigits, List.foldl_cons, List.foldl_nil,
        digitValue_digitChar (Nat.mod_lt n (by decide))]
      omega

theorem isDigit_of_mem_toDigits {n : Nat} {c : Char} (h : c ∈ Nat.toDigits 10 n) :
    Reader.isDigit c := by
  have hc := Nat.isDigit_of_mem_toDigits (by decide) (by decide) h
  simpa [Char.isDigit, Reader.isDigit, Char.le_def] using hc

/-- The printed digits of a positive number do not start with a zero. -/
theorem exists_cons_toDigits {n : Nat} (h : 0 < n) :
    ∃ d ds, Nat.toDigits 10 n = d :: ds ∧ d ≠ '0' := by
  induction n using Nat.strongRecOn with
  | ind n ih =>
    rcases Nat.lt_or_ge n 10 with hlt | hge
    · refine ⟨n.digitChar, [], Nat.toDigits_of_lt_base hlt, ?_⟩
      exact (by decide : ∀ n < 10, 0 < n → Nat.digitChar n ≠ '0') n hlt h
    · obtain ⟨d, ds, heq, hd⟩ := ih (n / 10) (by omega) (by omega)
      refine ⟨d, ds ++ [(n % 10).digitChar], ?_, hd⟩
      rw [Nat.toDigits_of_base_le (by decide) hge, heq, List.cons_append]

/-! ### Reading digits back -/

/-- `rest` does not start with a character that could be one more part of a number. -/
def EndsNumber (rest : List Char) : Prop :=
  ∀ c, rest.head? = some c → Reader.isDigit c = false ∧ c ≠ '.' ∧ c ≠ 'e' ∧ c ≠ 'E'

theorem takeWhile_digits {ds rest : List Char} (hds : ∀ c ∈ ds, Reader.isDigit c)
    (hrest : ∀ c, rest.head? = some c → Reader.isDigit c = false) :
    (ds ++ rest).takeWhile Reader.isDigit = ds ∧ (ds ++ rest).dropWhile Reader.isDigit = rest := by
  have hr : rest.takeWhile Reader.isDigit = [] ∧ rest.dropWhile Reader.isDigit = rest := by
    cases rest with
    | nil => exact ⟨rfl, rfl⟩
    | cons c rest =>
      have hc := hrest c rfl
      simp [hc]
  rw [List.takeWhile_append_of_pos hds, List.dropWhile_append_of_pos hds, hr.1, hr.2,
    List.append_nil]
  exact ⟨rfl, rfl⟩

/-- One digit or more. -/
def IsDigits (ds : List Char) : Prop := ds ≠ [] ∧ ∀ c ∈ ds, Reader.isDigit c = true

/-- Digits, the first of which is a zero only if it is the only one. -/
inductive IsWhole : List Char → Prop
  | zero : IsWhole ['0']
  | digits {d ds} : d ≠ '0' → IsDigits (d :: ds) → IsWhole (d :: ds)

theorem isWhole_toDigits (n : Nat) : IsWhole (Nat.toDigits 10 n) := by
  rcases Nat.eq_zero_or_pos n with rfl | hn
  · rw [Nat.toDigits_zero]
    exact .zero
  · obtain ⟨d, ds, heq, hd⟩ := exists_cons_toDigits hn
    rw [heq]
    exact .digits hd ⟨List.cons_ne_nil _ _, fun c hc => isDigit_of_mem_toDigits (heq ▸ hc)⟩

/-- `integerDigits` reads the digits of a number to the last one. -/
theorem run_integerDigits {d : Char} {ds rest : List Char} (h : IsWhole (d :: ds))
    (hrest : ∀ c, rest.head? = some c → Reader.isDigit c = false) :
    (integerDigits d).run (ds ++ rest) = .ok (d :: ds, rest) := by
  cases h with
  | zero =>
    rw [integerDigits, if_pos rfl, List.nil_append, run_bind, run_peek]
    dsimp only
    split
    · next c heq => rw [if_neg (by simp [hrest c heq])]; rfl
    · rfl
  | digits hd hds =>
    obtain ⟨htake, hdrop⟩ :=
      takeWhile_digits (fun c hc => hds.2 c (List.mem_cons_of_mem _ hc)) hrest
    rw [integerDigits, if_neg hd, if_pos (hds.2 d List.mem_cons_self), run_bind, run_takeWhile,
      htake, hdrop]
    rfl

/-- `unsignedNumber` reads printed digits, with no fraction and no exponent after them, as a whole
number. -/
theorem run_unsignedNumber {n : Nat} (hn : n < UInt64.size) (negative : Bool) {d : Char}
    {ds rest : List Char} (h : Nat.toDigits 10 n = d :: ds) (hrest : EndsNumber rest) :
    (unsignedNumber negative d).run (ds ++ rest) = .ok (whole negative n, rest) := by
  have hk : keepDigits 0 0 (d :: ds) = ⟨n, (d :: ds).length, 0⟩ := by
    have hval : appendDigits 0 (d :: ds) = n := h ▸ appendDigits_toDigits n
    rw [keepDigits_eq 0 (hval ▸ hn), hval, Nat.zero_add]
  have hdigits := run_integerDigits (h ▸ isWhole_toDigits n) fun c hc => (hrest c hc).1
  rw [unsignedNumber, run_bind_of_ok hdigits]
  -- no digit is left out, and neither a fraction nor an exponent follows
  simp only [hk, run_bind, run_peek]
  cases hr : rest.head? with
  | none => rfl
  | some c =>
    obtain ⟨-, hdot, he, hE⟩ := hrest c hr
    split
    · next h => cases h; exact absurd rfl hdot
    · next h => cases h; exact absurd rfl he
    · next h => cases h; exact absurd rfl hE
    · rfl

/-! ### Reading whole numbers back -/

theorem integerText_of_nonneg {n : Int} (h : 0 ≤ n) : integerText n = Nat.toDigits 10 n.toNat := by
  rw [integerText, Int.toString_eq_repr, Int.repr_eq_if, if_pos h, Nat.toList_repr]

theorem integerText_of_neg {n : Int} (h : n < 0) :
    integerText n = '-' :: Nat.toDigits 10 (-n).toNat := by
  have hm : "-".toList = ['-'] := by decide
  rw [integerText, Int.toString_eq_repr, Int.repr_eq_if, if_neg (by omega), String.toList_append,
    Nat.toList_repr, hm, List.singleton_append]

theorem digit_ne_minus {c : Char} (h : Reader.isDigit c) : c ≠ '-' := by
  rintro rfl
  cases h

/-- `number` reads a printed whole number back, its first character having been taken. -/
theorem run_number {n : Int} (hlow : Int64.minValue.toInt ≤ n) (hhigh : n < UInt64.size) {c : Char}
    {cs rest : List Char} (h : integerText n = c :: cs) (hrest : EndsNumber rest) :
    (number c).run (cs ++ rest) = .ok (.integer n, rest) := by
  have hmin : Int64.minValue.toInt = -9223372036854775808 := rfl
  have hsize : UInt64.size = 18446744073709551616 := rfl
  rcases Int.lt_or_le n 0 with hn | hn
  · rw [integerText_of_neg hn] at h
    obtain ⟨rfl, rfl⟩ := List.cons.inj h
    obtain ⟨d, ds, hd, -⟩ := exists_cons_toDigits (n := (-n).toNat) (by omega)
    have hafter : (digitAfterSign (.ended .value)).run (d :: ds ++ rest)
        = .ok (d, ds ++ rest) := by simp [digitAfterSign, run_bind]
    rw [number, if_pos rfl, hd, run_bind_of_ok hafter, run_unsignedNumber (by omega) true hd hrest,
      whole, if_pos rfl, if_neg (by omega)]
    congr 3
    omega
  · rw [integerText_of_nonneg hn] at h
    have hc : c ≠ '-' := digit_ne_minus (isDigit_of_mem_toDigits (h ▸ List.mem_cons_self))
    rw [number, if_neg hc, run_unsignedNumber (by omega) false h hrest, whole,
      if_neg Bool.false_ne_true, Int.toNat_of_nonneg hn]

theorem isBlank_of_startsNumber {c : Char} (h : startsNumber c) : isBlank c = false := by
  rw [← Bool.not_eq_true, isBlank]
  intro hb
  simp only [Bool.or_eq_true, decide_eq_true_eq] at hb
  rcases hb with ((rfl | rfl) | rfl) | rfl <;> cases h

/-- A printed whole number starts like a number. -/
theorem exists_cons_integerText (n : Int) :
    ∃ c cs, integerText n = c :: cs ∧ startsNumber c := by
  rcases Int.lt_or_le n 0 with hn | hn
  · exact ⟨'-', _, integerText_of_neg hn, rfl⟩
  · rw [integerText_of_nonneg hn]
    cases hd : Nat.toDigits 10 n.toNat with
    | nil => exact absurd hd Nat.toDigits_ne_nil
    | cons d ds =>
      have hdigit := isDigit_of_mem_toDigits (hd ▸ List.mem_cons_self)
      exact ⟨d, ds, rfl, by simp [startsNumber, hdigit]⟩

/-- `r` reads `cs` as `a` and no further, when what follows `EndsNumber`. -/
def Reads (r : Reader α) (cs : List Char) (a : α) : Prop :=
  ∀ ⦃rest⦄, EndsNumber rest → r.run (cs ++ rest) = .ok (a, rest)

theorem reads_integer {n low high : Int} (expected : String) (hlow : Int64.minValue.toInt ≤ low)
    (hhigh : high < UInt64.size) (hn : low ≤ n ∧ n ≤ high) :
    Reads (integer low high expected) (integerText n) n := by
  intro rest hrest
  obtain ⟨c, cs, hc, hstart⟩ := exists_cons_integerText n
  have hblank := isBlank_of_startsNumber hstart
  rw [integer, hc, List.cons_append, run_bind_of_ok (run_take_cons hblank), if_pos hstart,
    run_bind_of_ok (run_number (by omega) (by omega) hc hrest)]
  simp [hn]

theorem reads_int64 (n : Int64) : Reads int64 (integerText n.toInt) n := by
  intro rest hrest
  have hn : Int64.minValue.toInt ≤ n.toInt ∧ n.toInt ≤ Int64.maxValue.toInt :=
    ⟨n.minValue_le_toInt, n.toInt_le⟩
  rw [int64, run_bind_of_ok (reads_integer _ (by decide) (by decide) hn hrest), Int64.ofInt_toInt]
  rfl

theorem reads_uint64 (n : UInt64) : Reads uint64 (integerText n.toNat) n := by
  intro rest hrest
  have hn : (0 : Int) ≤ n.toNat ∧ (n.toNat : Int) ≤ UInt64.size - 1 := by
    have := n.toNat_lt_size
    omega
  rw [uint64, run_bind_of_ok (reads_integer _ (by decide) (by decide) hn hrest), Int.toNat_natCast,
    UInt64.ofNat_toNat]
  rfl

theorem reads_uint8 (n : UInt8) : Reads uint8 (integerText n.toNat) n := by
  intro rest hrest
  have hn : (0 : Int) ≤ n.toNat ∧ (n.toNat : Int) ≤ 255 := by
    have := n.toNat_lt
    omega
  rw [uint8, run_bind_of_ok (reads_integer _ (by decide) (by decide) hn hrest), Int.toNat_natCast,
    UInt8.ofNat_toNat]
  rfl

theorem blank_notMem_integerText (n : Int) : ' ' ∉ integerText n := by
  have hdigits (k : Nat) : ' ' ∉ Nat.toDigits 10 k := fun h => by cases isDigit_of_mem_toDigits h
  rcases Int.lt_or_le n 0 with hn | hn
  · rw [integerText_of_neg hn, List.mem_cons, not_or]
    exact ⟨by decide, hdigits _⟩
  · rw [integerText_of_nonneg hn]
    exact hdigits _

end RadioLink.Json

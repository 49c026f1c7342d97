import RadioLink.Json.Printer
import RadioLink.Json.StringLiteral
import RadioLink.Proofs.Reading

/-!
# Spellings of a text

A character inside a string literal can be written in several ways: as itself, by a letter after a
backslash, by its number, or as a surrogate pair of numbers. `Spelled cs ds` says that `ds` writes
the characters `cs`, each in one of these ways. Reading a literal undoes every spelling:

    run_string : Spelled s.toList ds → string.run (ds ++ '"' :: rest) = .ok (s, rest)

The printer chooses one spelling, and a text in which some blanks are then written by number,
`Respaced cs ds`, is still a spelling of the same characters.
-/

namespace RadioLink.Json

open Reader Text.Reader

/-! ### Ways to write a character -/

/-- `w` is a way to write the character inside a literal. -/
inductive Spelling : Char → List Char → Prop
  | plain {c} : isPlain c → c ≠ '"' → c ≠ '\\' → Spelling c [c]
  | short {l c} : shortEscape? l = some c → Spelling c ['\\', l]
  | number {w n} : fourDigits? w = some (n, []) → isLead n = false → isTrail n = false →
      Spelling (Char.ofNat n) ('\\' :: 'u' :: w)
  | pair {w n v m} : fourDigits? w = some (n, []) → isLead n → fourDigits? v = some (m, []) →
      isTrail m → Spelling (ofPair n m) ('\\' :: 'u' :: w ++ '\\' :: 'u' :: v)

/-- `ds` writes the characters `cs` one after another, each in some `Spelling`. -/
inductive Spelled : List Char → List Char → Prop
  | nil : Spelled [] []
  | cons {c cs w ds} : Spelling c w → Spelled cs ds → Spelled (c :: cs) (w ++ ds)

/-! ### Reading a literal -/

/-- `fourDigits?` takes four digits off the front of whatever follows them. -/
theorem fourDigits?_append {w : List Char} {n : Nat} (h : fourDigits? w = some (n, []))
    (rest : List Char) : fourDigits? (w ++ rest) = some (n, rest) := by
  unfold fourDigits? at h
  split at h
  · next a b c d tl =>
    split at h
    · next ha hb hc hd =>
      simp only [Option.some.injEq, Prod.mk.injEq] at h
      obtain ⟨hn, rfl⟩ := h
      simp only [List.cons_append, List.nil_append, fourDigits?, ha, hb, hc, hd, hn]
    · cases h
  · cases h

theorem run_hexWord {w : List Char} {n : Nat} (h : fourDigits? w = some (n, []))
    (rest : List Char) : hexWord.run (w ++ rest) = .ok (n, rest) := by
  simp only [hexWord, fourDigits?_append h]

/-- `escape`, after a backslash, gives the character that is spelled. -/
theorem run_escape {c : Char} {w : List Char} (h : Spelling c ('\\' :: w)) (rest : List Char) :
    escape.run (w ++ rest) = .ok (c, rest) := by
  generalize hv : '\\' :: w = v at h
  cases h with
  | plain _ _ hb => cases hv; exact absurd rfl hb
  | @short l _ hl =>
    cases hv
    simp [escape, inString, run_bind, hl]
  | number hw hlead htrail =>
    cases hv
    simp [escape, inString, numberEscape, run_bind, shortEscape?,
      run_hexWord hw, hlead, htrail]
  | @pair _ n _ _ hw hlead hm htrail =>
    cases hv
    have hn : isTrail n = false := by
      simp only [isLead, Bool.and_eq_true, decide_eq_true_eq] at hlead
      simp only [isTrail, Bool.and_eq_false_iff, decide_eq_false_iff_not]
      omega
    simp [escape, inString, numberEscape, inPair, run_bind, shortEscape?,
      run_hexWord hw, hlead, hn, run_hexWord hm, htrail]

/-- A `Spelling` is a plain character, or a backslash and an escape. -/
theorem Spelling.cases {c : Char} {w : List Char} (h : Spelling c w) :
    (w = [c] ∧ isPlain c ∧ c ≠ '"' ∧ c ≠ '\\') ∨ ∃ v, w = '\\' :: v := by
  cases h with
  | plain hp hq hb => exact .inl ⟨rfl, hp, hq, hb⟩
  | short | number | pair => exact .inr ⟨_, rfl⟩

section Quotation

variable {σ : Type} {plain : Char → Bool} {ended bad : Fault} {keep : σ → Char → σ}
  {escape : σ → Reader σ} {acc acc' : σ}

theorem quotationFrom_of_plain {c : Char} (hp : plain c) (hq : c ≠ '"') (hb : c ≠ '\\')
    (cs : List Char) : quotationFrom plain ended bad keep escape acc (c :: cs)
      = quotationFrom plain ended bad keep escape (keep acc c) cs := by
  rw [quotationFrom, if_neg hq, if_neg hb, if_pos hp]

theorem quotationFrom_of_escape {cs rest : List Char} (h : (escape acc).run cs = .ok (acc', rest)) :
    quotationFrom plain ended bad keep escape acc ('\\' :: cs)
      = quotationFrom plain ended bad keep escape acc' rest := by
  rw [quotationFrom, if_neg (by decide), if_pos rfl]
  split
  · next he => rw [h] at he; cases he
  · next he => rw [h] at he; cases he; rfl

end Quotation

/-- The loop of a literal puts the spelled characters in front of those read before. -/
theorem quotationFrom_spelled {cs ds : List Char} (h : Spelled cs ds) (acc rest : List Char) :
    quotationFrom isPlain (.ended .string) .controlCharacter (fun acc c => c :: acc)
        (fun acc => do return (← escape) :: acc) acc (ds ++ '"' :: rest)
      = .ok (cs.reverse ++ acc, rest) := by
  induction h generalizing acc with
  | nil => simp [quotationFrom]
  | @cons c cs w ds hw _ ih =>
    rcases hw.cases with ⟨rfl, hp, hq, hb⟩ | ⟨v, rfl⟩
    · rw [List.cons_append, List.nil_append, List.cons_append, quotationFrom_of_plain hp hq hb, ih]
      simp
    · have hrun : (do return (← escape) :: acc : Reader (List Char)).run (v ++ ds ++ '"' :: rest)
          = .ok (c :: acc, ds ++ '"' :: rest) := by
        rw [List.append_assoc, run_bind, run_escape hw]
        rfl
      rw [List.cons_append, List.cons_append, quotationFrom_of_escape hrun, ih]
      simp

/-- **`string` reads a literal as the text that it spells.** -/
theorem run_string {s : String} {ds : List Char} (h : Spelled s.toList ds) (rest : List Char) :
    string.run (ds ++ '"' :: rest) = .ok (s, rest) := by
  rw [string, run_bind]
  simp only [quotation, quotationFrom_spelled h]
  simp

/-! ### The printed spelling -/

/-- What holds of the first `b` characters one by one holds of each character below `b`. -/
theorem forall_char_lt {b : Nat} {p : Char → Prop} (h : ∀ n < b, p (Char.ofNat n)) (c : Char)
    (hc : c.toNat < b) : p c := by
  have hp := h c.toNat hc
  rwa [Char.ofNat_toNat] at hp

/-- `shortEscape?` undoes `controlLetter?`. -/
theorem shortEscape?_of_controlLetter? {c l : Char} (hc : c.toNat < 0x20)
    (hl : controlLetter? c = some l) : shortEscape? l = some c := by
  have h : (controlLetter? c).all fun l => shortEscape? l = some c :=
    forall_char_lt (p := fun c => (controlLetter? c).all fun l => shortEscape? l = some c)
      (by decide) c hc
  simpa [hl] using h

/-- `fourDigits?` reads the digits of a control as its number. -/
theorem fourDigits?_control {c : Char} (hc : c.toNat < 0x20) :
    fourDigits? ['0', '0', Hex.digit (c.toNat / 16), Hex.digit (c.toNat % 16)]
      = some (c.toNat, []) :=
  forall_char_lt (p := fun c => fourDigits? ['0', '0', Hex.digit (c.toNat / 16),
    Hex.digit (c.toNat % 16)] = some (c.toNat, [])) (by decide) c hc

theorem spelling_escaped (c : Char) : Spelling c (escaped c) := by
  unfold escaped
  split
  · next h => rcases h with rfl | rfl <;> exact .short rfl
  · next h =>
    rw [not_or] at h
    split
    · next hc =>
      split
      · next l hl => exact .short (shortEscape?_of_controlLetter? hc hl)
      · have hlead : isLead c.toNat = false := by simp [isLead]; omega
        have htrail : isTrail c.toNat = false := by simp [isTrail]; omega
        have hw := Spelling.number (fourDigits?_control hc) hlead htrail
        rwa [Char.ofNat_toNat] at hw
    · next hc => exact .plain (by simpa [isPlain] using hc) h.1 h.2

/-! ### Blanks written by number -/

/-- The blank, written by its number. -/
def blankEscape : List Char := ['\\', 'u', '0', '0', '2', '0']

/-- The second text is the first with some of its blanks written by number. -/
inductive Respaced : List Char → List Char → Prop
  | nil : Respaced [] []
  | keep {cs ds} (c) : Respaced cs ds → Respaced (c :: cs) (c :: ds)
  | blank {cs ds} : Respaced cs ds → Respaced (' ' :: cs) (blankEscape ++ ds)

namespace Respaced

theorem refl : ∀ cs : List Char, Respaced cs cs
  | [] => .nil
  | c :: cs => .keep c (refl cs)

theorem append {cs ds cs' ds' : List Char} (h : Respaced cs ds) (h' : Respaced cs' ds') :
    Respaced (cs ++ cs') (ds ++ ds') := by
  induction h with
  | nil => exact h'
  | keep c _ ih => exact .keep c ih
  | blank _ ih =>
    rw [List.append_assoc]
    exact .blank ih

/-- A text made of two parts is respaced part by part. -/
theorem of_append {cs cs' es : List Char} (h : Respaced (cs ++ cs') es) :
    ∃ ds ds', es = ds ++ ds' ∧ Respaced cs ds ∧ Respaced cs' ds' := by
  induction cs generalizing es with
  | nil => exact ⟨[], es, rfl, .nil, h⟩
  | cons c cs ih =>
    rw [List.cons_append] at h
    cases h with
    | keep _ h =>
      obtain ⟨ds, ds', rfl, hd, hd'⟩ := ih h
      exact ⟨c :: ds, ds', rfl, .keep c hd, hd'⟩
    | blank h =>
      obtain ⟨ds, ds', rfl, hd, hd'⟩ := ih h
      exact ⟨blankEscape ++ ds, ds', (List.append_assoc ..).symm, .blank hd, hd'⟩

theorem of_cons {c : Char} {cs es : List Char} (hc : c ≠ ' ') (h : Respaced (c :: cs) es) :
    ∃ ds, es = c :: ds ∧ Respaced cs ds := by
  cases h with
  | keep _ h => exact ⟨_, rfl, h⟩
  | blank _ => exact absurd rfl hc

/-- A text without blanks stays as it is. -/
theorem eq_of_notMem {cs ds : List Char} (h : Respaced cs ds) (hb : ' ' ∉ cs) : ds = cs := by
  induction h with
  | nil => rfl
  | keep c _ ih =>
    rw [List.mem_cons, not_or] at hb
    rw [ih hb.2]
  | blank => exact absurd List.mem_cons_self hb

end Respaced

theorem blank_notMem_escaped {c : Char} (hc : c ≠ ' ') : ' ' ∉ escaped c := by
  by_cases hlt : c.toNat < 0x20
  · exact forall_char_lt (p := fun c => ' ' ∉ escaped c) (by decide) c hlt
  · rw [escaped, if_neg hlt]
    split <;> simp [Ne.symm hc]

/-- However its blanks are written, a printed character is spelled. -/
theorem spelling_of_respaced {c : Char} {w : List Char} (h : Respaced (escaped c) w) :
    Spelling c w := by
  by_cases hc : c = ' '
  · subst hc
    have he : escaped ' ' = [' '] := by decide
    rw [he] at h
    cases h with
    | keep _ h =>
      cases h
      exact he ▸ spelling_escaped ' '
    | blank h =>
      cases h
      exact .number (w := ['0', '0', '2', '0']) (n := 0x20) rfl rfl rfl
  · rw [h.eq_of_notMem (blank_notMem_escaped hc)]
    exact spelling_escaped c

theorem spelled_of_respaced {cs ds : List Char} (h : Respaced (cs.flatMap escaped) ds) :
    Spelled cs ds := by
  induction cs generalizing ds with
  | nil =>
    cases h
    exact .nil
  | cons c cs ih =>
    rw [List.flatMap_cons] at h
    obtain ⟨w, ds, rfl, hw, hds⟩ := h.of_append
    exact .cons (spelling_of_respaced hw) (ih hds)

end RadioLink.Json

import RadioLink.Proofs.Json.Place

/-!
# Literals and numbers in a text

A literal is taken up to its closing quotation mark, whether its text is wanted or not; what stands
behind a backslash in it, be it a quotation mark, does not close it. A number is taken without a
change of place.

    scans_string : Scans string (some (.inside d)) fun _ => .outside d
-/

namespace RadioLink.Json

open Reader Text.Reader

variable {α σ : Type}

/-! ### Literals -/

theorem step_inside {c : Char} (hq : c ≠ '"') (hb : c ≠ '\\') (d : Nat) :
    step (some (.inside d)) c = some (.inside d) := by
  simp [step, Place.next, hq, hb]

theorem step_inside_of_hexValue {c : Char} {n : Nat} (h : Hex.value? c.toNat = some n) (d : Nat) :
    step (some (.inside d)) c = some (.inside d) := by
  refine step_inside ?_ ?_ d
  · rintro rfl
    cases h
  · rintro rfl
    cases h

theorem scans_hexWord (d : Nat) : Scans hexWord (some (.inside d)) fun _ => .inside d := by
  rintro _ cs n rest - hrun
  simp only [hexWord] at hrun
  split at hrun
  · next m mid hm =>
    cases hrun
    unfold fourDigits? at hm
    split at hm
    · next c₁ c₂ c₃ c₄ cs =>
      split at hm
      · next h₁ h₂ h₃ h₄ =>
        cases hm
        refine ⟨[c₁, c₂, c₃, c₄], rfl, ?_⟩
        rw [scan_cons, step_inside_of_hexValue h₁, scan_cons, step_inside_of_hexValue h₂, scan_cons,
          step_inside_of_hexValue h₃, scan_cons, step_inside_of_hexValue h₄, scan_nil]
      · cases hm
    · cases hm
  · cases hrun

/-- `inString` takes the character behind a backslash as part of the literal, whatever it is. -/
theorem scans_inString (d : Nat) : Scans inString (some (.escape d)) fun _ => .inside d := by
  refine scans_peek_bind fun h => ?_
  cases h with
  | none => exact scans_fail _ _
  | some c => exact scansOn_advance_bind (scans_pure rfl)

theorem scans_inPair {c : Char} {o : Option Place} {p : Place} (h : step o c = some p) :
    Scans (inPair c) o fun _ => p := by
  refine scans_peek_bind fun h' => ?_
  cases h' with
  | none => exact scans_fail _ _
  | some d =>
    show ScansOn (some d) (if d = c then _ else _) _ _
    split
    · next heq => exact heq ▸ scansOn_advance h
    · exact scans_fail _ _

theorem scans_numberEscape (d : Nat) :
    Scans numberEscape (some (.inside d)) fun _ => .inside d := by
  refine (scans_hexWord d).bind fun n => ?_
  split
  · exact scans_fail _
  · split
    · -- the second half of a pair is a new escape, and it ends in the literal again
      refine (scans_inPair (p := .escape d) rfl).bind fun _ => ?_
      refine (scans_inPair (p := .inside d) rfl).bind fun _ => ?_
      refine (scans_hexWord d).bind fun m => ?_
      split
      · exact scans_pure rfl
      · exact scans_fail _
    · exact scans_pure rfl

theorem scans_escape (d : Nat) : Scans escape (some (.escape d)) fun _ => .inside d := by
  refine (scans_inString d).bind fun c => ?_
  split
  · exact scans_pure rfl
  · split
    · exact scans_numberEscape d
    · exact scans_fail _

theorem scans_skippedEscape (d : Nat) :
    Scans skippedEscape (some (.escape d)) fun _ => .inside d := by
  refine (scans_inString d).bind fun c => ?_
  split
  · exact scans_pure rfl
  · split
    · exact (scans_hexWord d).bind fun _ => scans_pure rfl
    · exact scans_fail _

/-- `quotation` takes a literal up to its closing mark. -/
theorem scans_quotation {plain : Char → Bool} {ended bad : Fault} {keep : σ → Char → σ}
    {escape : σ → Reader σ} {d : Nat}
    (h : ∀ acc, Scans (escape acc) (some (.escape d)) fun _ => .inside d) (acc : σ) :
    Scans (quotation plain ended bad keep escape acc) (some (.inside d)) fun _ => .outside d := by
  rintro _ cs a rest - hrun
  replace hrun : quotationFrom plain ended bad keep escape acc cs = .ok (a, rest) := hrun
  fun_induction quotationFrom plain ended bad keep escape acc cs with
  | case1 => cases hrun
  | case2 =>
    cases hrun
    exact ⟨['"'], rfl, rfl⟩
  | case3 => cases hrun
  | case4 acc cs acc' mid hescape _ ih =>
    -- a backslash, what the escape takes, and the rest of the literal
    obtain ⟨used, rfl, hused⟩ := h acc _ rfl hescape
    obtain ⟨used', rfl, hused'⟩ := ih hrun
    refine ⟨'\\' :: (used ++ used'), by simp, ?_⟩
    have hstep : step (some (.inside d)) '\\' = some (.escape d) := rfl
    rw [scan_cons, hstep, scan_append, hused, hused']
  | case5 acc c cs hquote hslash _ ih =>
    obtain ⟨used, rfl, hused⟩ := ih hrun
    refine ⟨c :: used, rfl, ?_⟩
    rw [scan_cons, step_inside hquote hslash, hused]
  | case6 => cases hrun

theorem scans_string (d : Nat) : Scans string (some (.inside d)) fun _ => .outside d := by
  refine (scans_quotation (fun acc => ?_) []).bind fun acc => scans_pure rfl
  exact (scans_escape d).bind fun _ => scans_pure rfl

theorem scans_skippedString (d : Nat) :
    Scans skippedString (some (.inside d)) fun _ => .outside d :=
  scans_quotation (fun _ => scans_skippedEscape d) ()

/-! ### Numbers -/

theorem balanced_float (negative : Bool) (digits : Nat) (exponent : Int) :
    Balanced (float negative digits exponent) := by
  unfold float
  split
  · exact balanced_pure _
  · exact balanced_fail _

theorem balanced_someDigits : Balanced someDigits := by
  refine balanced_takeWhile_isDigit.bind fun ds => ?_
  split
  · intro d
    refine scans_peek_bind fun h => ?_
    split
    · exact scans_fail _ _
    · exact scans_fail _ _
  · exact balanced_pure _

theorem balanced_exponentSign : Balanced exponentSign := by
  intro d
  refine scans_peek_bind fun h => ?_
  split
  · exact scansOn_advance_bind (scans_pure rfl)
  · exact scansOn_advance_bind (scans_pure rfl)
  · exact scansOn_pure rfl

theorem balanced_exponent (negative : Bool) (digits : Nat) (shift : Int) :
    Balanced (exponent negative digits shift) := by
  refine balanced_exponentSign.bind fun down => ?_
  refine balanced_someDigits.bind fun ds => ?_
  dsimp only
  split
  · exact balanced_float _ _ _
  · split
    · exact balanced_float _ _ _
    · exact balanced_fail _

theorem balanced_afterDigits (negative : Bool) (digits : Nat) (shift : Int) :
    Balanced (afterDigits negative digits shift) := by
  intro d
  refine scans_peek_bind fun h => ?_
  split
  · exact scansOn_advance_bind (balanced_exponent _ _ _ d)
  · exact scansOn_advance_bind (balanced_exponent _ _ _ d)
  · exact balanced_float _ _ _ d _

theorem balanced_fraction (negative : Bool) (digits : Nat) (shift : Int) :
    Balanced (fraction negative digits shift) :=
  balanced_someDigits.bind fun _ => balanced_afterDigits _ _ _

/-- `integerDigits first` accounts for the digit `first`, already taken, as well. -/
theorem scans_integerDigits (first : Char) (d : Nat) :
    Scans (integerDigits first) (step (some (.outside d)) first) fun _ => .outside d := by
  unfold integerDigits
  split
  · next h =>
    subst h
    refine scans_peek_bind fun h => ?_
    split
    · split
      · exact scans_fail _ _
      · exact scansOn_pure rfl
    · exact scansOn_pure rfl
  · split
    · next h =>
      rw [step_outside_of_isNeutral (isNeutral_of_isDigit h)]
      exact (balanced_takeWhile_isDigit d).bind fun _ => scans_pure rfl
    · exact scans_fail _

theorem scans_unsignedNumber (negative : Bool) (first : Char) (d : Nat) :
    Scans (unsignedNumber negative first) (step (some (.outside d)) first) fun _ => .outside d := by
  refine (scans_integerDigits first d).bind fun ds => ?_
  refine scans_peek_bind fun h => ?_
  split
  · exact scansOn_advance_bind (balanced_fraction _ _ _ d)
  · exact scansOn_advance_bind (balanced_exponent _ _ _ d)
  · exact scansOn_advance_bind (balanced_exponent _ _ _ d)
  · split
    · exact scansOn_pure rfl
    · exact balanced_float _ _ _ d _

theorem scans_digitAfterSign_bind {fault : Fault} {f : Char → Reader α} {d : Nat}
    (hf : ∀ c, Scans (f c) (step (some (.outside d)) c) fun _ => .outside d) :
    Scans (digitAfterSign fault >>= f) (some (.outside d)) fun _ => .outside d := by
  intro _ cs a rest _ hrun
  obtain ⟨c, mid, hc, hfc⟩ := run_bind_eq_ok_iff.1 hrun
  cases cs with
  | nil => cases hc
  | cons c' cs =>
    cases hc
    obtain ⟨used, rfl, hused⟩ := hf c _ rfl hfc
    exact ⟨c :: used, rfl, hused⟩

theorem scans_number {first : Char} (h : startsNumber first) (d : Nat) :
    Scans (number first) (step (some (.outside d)) first) fun _ => .outside d := by
  unfold number
  split
  · -- the digit behind a minus is taken unseen and checked afterwards
    rw [step_outside_of_isNeutral (isNeutral_of_startsNumber h)]
    exact scans_digitAfterSign_bind fun c => scans_unsignedNumber true c d
  · exact scans_unsignedNumber false first d

theorem balanced_skippedDigits : Balanced skippedDigits := by
  refine balanced_takeWhile_isDigit.bind fun ds => ?_
  split
  · exact balanced_fail _
  · exact balanced_pure _

theorem balanced_skippedExponent : Balanced skippedExponent :=
  balanced_exponentSign.bind fun _ => balanced_skippedDigits

theorem balanced_skippedFraction : Balanced skippedFraction := by
  refine balanced_skippedDigits.bind fun _ d => ?_
  refine scans_peek_bind fun h => ?_
  split
  · exact scansOn_advance_bind (balanced_skippedExponent d)
  · exact scansOn_advance_bind (balanced_skippedExponent d)
  · exact scansOn_pure rfl

theorem scans_skippedRest (first : Char) (d : Nat) :
    Scans (skippedRest first) (step (some (.outside d)) first) fun _ => .outside d := by
  refine (scans_integerDigits first d).bind fun _ => ?_
  refine scans_peek_bind fun h => ?_
  split
  · exact scansOn_advance_bind (balanced_skippedFraction d)
  · exact scansOn_advance_bind (balanced_skippedExponent d)
  · exact scansOn_advance_bind (balanced_skippedExponent d)
  · exact scansOn_pure rfl

theorem scans_skippedNumber {first : Char} (h : startsNumber first) (d : Nat) :
    Scans (skippedNumber first) (step (some (.outside d)) first) fun _ => .outside d := by
  unfold skippedNumber
  split
  · rw [step_outside_of_isNeutral (isNeutral_of_startsNumber h)]
    exact scans_digitAfterSign_bind fun c => scans_skippedRest c d
  · exact scans_skippedRest first d

end RadioLink.Json

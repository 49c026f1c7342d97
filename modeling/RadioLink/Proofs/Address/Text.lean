import RadioLink.Error
import RadioLink.Proofs.Hex

/-!
# Addresses as text

`ofString?` takes the blanks around a text away and reads six groups between separators. `Separated`
says how groups make a text, and what a group may be is a parameter: `IsPair`, as an address is
meant to be written, or `IsGroup`, which has a sign and a digit as well because `octet?` reads a
group like any other number:

    ofString?_eq_some_iff :
      ofString? s = some a ↔ Separated IsGroup a.octets.toList (Text.trim s.toList)

`toString` shows what was read with the same digits, in capitals and between colons, and a shown
address is read back as itself.
-/

namespace RadioLink.Address

/-! ### Groups -/

/-- The two digits of `b`, each in either case. -/
inductive IsPair (b : UInt8) : List Char → Prop
  | mk {h l : Char} : Hex.IsDigit (b.toNat / 16) h → Hex.IsDigit (b.toNat % 16) l → IsPair b [h, l]

/-- What `octet?` reads as `b`: an `IsPair`, or a plus sign and one digit. -/
inductive IsGroup (b : UInt8) : List Char → Prop
  | pair {g : List Char} : IsPair b g → IsGroup b g
  | signed {l : Char} : Hex.IsDigit b.toNat l → IsGroup b ['+', l]

/-- `Separated group bs cs`: `cs` is a `group` for each byte of `bs`, with a separator between any
two of them. -/
inductive Separated (group : UInt8 → List Char → Prop) : List UInt8 → List Char → Prop
  | last {b : UInt8} {g : List Char} : group b g → Separated group [b] g
  | next {b : UInt8} {g : List Char} {c : Char} {bs : List UInt8} {cs : List Char} : group b g →
      isSeparator c → Separated group bs cs → Separated group (b :: bs) (g ++ c :: cs)

variable {b : UInt8} {bs : List UInt8} {c : Char} {cs g : List Char} {gs : List (List Char)}

theorem Separated.imp {p q : UInt8 → List Char → Prop} (hpq : ∀ b g, p b g → q b g)
    (h : Separated p bs cs) : Separated q bs cs := by
  induction h with
  | last hg => exact .last (hpq _ _ hg)
  | next hg hc _ ih => exact .next (hpq _ _ hg) hc ih

/-! ### Reading a group -/

theorem not_isSeparator_of_isDigit {n : Nat} (h : Hex.IsDigit n c) : isSeparator c = false :=
  h.of_forall (p := fun c => isSeparator c = false) (by decide)

theorem ne_plus_of_isDigit {n : Nat} (h : Hex.IsDigit n c) : c ≠ '+' :=
  h.of_forall (p := fun c => c ≠ '+') (by decide)

theorem not_isSeparator_of_isGroup (h : IsGroup b g) : ∀ c ∈ g, isSeparator c = false := by
  cases h with
  | pair hp =>
    cases hp with
    | mk hh hl => simp [not_isSeparator_of_isDigit hh, not_isSeparator_of_isDigit hl]
  | signed hl =>
    have hplus : isSeparator '+' = false := by decide
    simp [hplus, not_isSeparator_of_isDigit hl]

theorem isPair_of_isDigit {h l : Nat} {c d : Char} (hc : Hex.IsDigit h c) (hd : Hex.IsDigit l d) :
    IsPair (UInt8.ofNat (16 * h + l)) [c, d] := by
  have hh := hc.lt
  have hl := hd.lt
  have hvalue : (UInt8.ofNat (16 * h + l)).toNat = 16 * h + l := by
    rw [UInt8.toNat_ofNat']
    omega
  refine .mk ?_ ?_
  · rw [hvalue, show (16 * h + l) / 16 = h by omega]
    exact hc
  · rw [hvalue, show (16 * h + l) % 16 = l by omega]
    exact hd

theorem isGroup_of_octet? (h : octet? g = some b) : IsGroup b g := by
  unfold octet? at h
  split at h
  · next c d =>
    split at h
    · next hc =>
      -- the sign of a number, with a single digit behind it
      obtain ⟨n, hn, rfl⟩ := Option.map_eq_some_iff.1 h
      have hd := Hex.value?_eq_some_iff.1 hn
      have hvalue : (UInt8.ofNat n).toNat = n := by
        have := hd.lt
        rw [UInt8.toNat_ofNat']
        omega
      exact hc ▸ .signed (hvalue.symm ▸ hd)
    · split at h
      · next hh hl =>
        cases h
        exact .pair (isPair_of_isDigit (Hex.value?_eq_some_iff.1 hh) (Hex.value?_eq_some_iff.1 hl))
      · cases h
  · cases h

theorem octet?_of_isGroup (h : IsGroup b g) : octet? g = some b := by
  cases h with
  | pair hp =>
    cases hp with
    | mk hh hl =>
      simp only [octet?, if_neg (ne_plus_of_isDigit hh), Hex.value?_eq_some_iff.2 hh,
        Hex.value?_eq_some_iff.2 hl]
      rw [Nat.div_add_mod, UInt8.ofNat_toNat]
  | signed hl =>
    simp only [octet?, if_pos, Hex.value?_eq_some_iff.2 hl, Option.map_some, UInt8.ofNat_toNat]

/-- **`octet?` reads `g` as `b` exactly if `IsGroup b g`.** -/
theorem octet?_eq_some_iff : octet? g = some b ↔ IsGroup b g :=
  ⟨isGroup_of_octet?, octet?_of_isGroup⟩

/-! ### Taking a text apart -/

theorem groups_of_isSeparator (hc : isSeparator c) (cs : List Char) :
    groups (c :: cs) = [] :: groups cs := if_pos hc

theorem groups_of_not_isSeparator (hc : isSeparator c = false) (hcs : groups cs = g :: gs) :
    groups (c :: cs) = (c :: g) :: gs := by
  rw [groups] at hcs
  rw [groups, List.foldr_cons, hcs, if_neg (by simp [hc])]

theorem exists_groups (cs : List Char) : ∃ g gs, groups cs = g :: gs := by
  induction cs with
  | nil => exact ⟨[], [], rfl⟩
  | cons c cs ih =>
    obtain ⟨g, gs, hgs⟩ := ih
    cases hc : isSeparator c with
    | true => exact ⟨[], _, groups_of_isSeparator hc cs⟩
    | false => exact ⟨c :: g, gs, groups_of_not_isSeparator hc hgs⟩

/-- Characters `g` without separators in front of a text belong to its first group. -/
theorem groups_append (hg : ∀ c ∈ g, isSeparator c = false) {g' : List Char}
    (hcs : groups cs = g' :: gs) : groups (g ++ cs) = (g ++ g') :: gs := by
  induction g with
  | nil => exact hcs
  | cons c g ih =>
    rw [List.forall_mem_cons] at hg
    exact groups_of_not_isSeparator hg.1 (ih hg.2)

/-- The first of the `groups` is all of the text, or it ends at the first separator. -/
theorem text_of_groups (h : groups cs = g :: gs) :
    (gs = [] ∧ cs = g) ∨ ∃ c rest, isSeparator c ∧ cs = g ++ c :: rest ∧ groups rest = gs := by
  induction cs generalizing g with
  | nil =>
    cases h
    exact .inl ⟨rfl, rfl⟩
  | cons c cs ih =>
    obtain ⟨g', gs', hgs⟩ := exists_groups cs
    cases hc : isSeparator c with
    | true =>
      rw [groups_of_isSeparator hc] at h
      cases h
      exact .inr ⟨c, cs, hc, rfl, rfl⟩
    | false =>
      rw [groups_of_not_isSeparator hc hgs] at h
      cases h
      rcases ih hgs with ⟨rfl, rfl⟩ | ⟨d, rest, hd, rfl, hrest⟩
      · exact .inl ⟨rfl, rfl⟩
      · exact .inr ⟨d, rest, hd, rfl, hrest⟩

theorem mapM_octet?_cons : (g :: gs).mapM octet? = some bs ↔
    ∃ b bs', octet? g = some b ∧ gs.mapM octet? = some bs' ∧ bs = b :: bs' := by
  simp only [List.mapM_cons, Option.bind_eq_bind, Option.bind_eq_some_iff, Option.pure_def,
    Option.some.injEq]
  constructor
  · rintro ⟨b, hb, bs', hbs', rfl⟩
    exact ⟨b, bs', hb, hbs', rfl⟩
  · rintro ⟨b, bs', hb, hbs', rfl⟩
    exact ⟨b, hb, bs', hbs', rfl⟩

/-- When `octet?` reads each of the `groups` as a byte of `bs`, the text is `Separated IsGroup bs`.
-/
theorem separated_of_mapM (h : (groups cs).mapM octet? = some bs) : Separated IsGroup bs cs := by
  generalize hgs : groups cs = gs at h
  induction gs generalizing cs bs with
  | nil =>
    obtain ⟨g, gs, hne⟩ := exists_groups cs
    cases hgs.symm.trans hne
  | cons g gs ih =>
    obtain ⟨b, bs', hb, hbs', rfl⟩ := mapM_octet?_cons.1 h
    -- the first group ends with the text, or at a separator with the other groups behind it
    rcases text_of_groups hgs with ⟨rfl, rfl⟩ | ⟨c, rest, hc, rfl, hrest⟩
    · cases hbs'
      exact .last (octet?_eq_some_iff.1 hb)
    · exact .next (octet?_eq_some_iff.1 hb) hc (ih hrest hbs')

theorem mapM_of_separated (h : Separated IsGroup bs cs) :
    (groups cs).mapM octet? = some bs := by
  induction h with
  | @last b g hg =>
    have hnil : groups [] = [[]] := rfl
    have hgroups : groups g = [g] := by
      simpa using groups_append (not_isSeparator_of_isGroup hg) hnil
    rw [hgroups]
    exact mapM_octet?_cons.2 ⟨b, [], octet?_eq_some_iff.2 hg, rfl, rfl⟩
  | @next b g c bs cs hg hc _ ih =>
    have hgroups : groups (g ++ c :: cs) = g :: groups cs := by
      simpa using groups_append (not_isSeparator_of_isGroup hg) (groups_of_isSeparator hc cs)
    rw [hgroups]
    exact mapM_octet?_cons.2 ⟨b, bs, octet?_eq_some_iff.2 hg, ih, rfl⟩

theorem ofList?_eq_some_iff {a : Address} : ofList? bs = some a ↔ a.octets.toList = bs := by
  unfold ofList?
  constructor
  · intro h
    split at h
    · cases h
      rfl
    · cases h
  · rintro rfl
    rw [dif_pos a.octets.length_toList]
    congr

/-- **`ofString? s = some a` exactly if `s`, without the blanks around it, is `Separated` into an
`IsGroup` for each octet of `a`.** -/
theorem ofString?_eq_some_iff {s : String} {a : Address} :
    ofString? s = some a ↔ Separated IsGroup a.octets.toList (Text.trim s.toList) := by
  rw [ofString?, Option.bind_eq_some_iff]
  constructor
  · rintro ⟨bs, hbs, ha⟩
    rw [ofList?_eq_some_iff.1 ha]
    exact separated_of_mapM hbs
  · intro h
    exact ⟨_, mapM_of_separated h, ofList?_eq_some_iff.2 rfl⟩

theorem ofString_eq_ok_iff {s : String} {a : Address} :
    ofString s = .ok a ↔ Separated IsGroup a.octets.toList (Text.trim s.toList) := by
  rw [← ofString?_eq_some_iff, ofString]
  cases ofString? s with
  | none => exact ⟨nofun, nofun⟩
  | some a' => simp

/-! ### Texts without a sign -/

theorem plus_notMem_of_separated (h : Separated IsPair bs cs) : '+' ∉ cs := by
  have hpair {b : UInt8} {g : List Char} (hg : IsPair b g) : '+' ∉ g := by
    cases hg with
    | mk hh hl => simp [(ne_plus_of_isDigit hh).symm, (ne_plus_of_isDigit hl).symm]
  induction h with
  | last hg => exact hpair hg
  | next hg hc _ ih =>
    intro hmem
    rcases List.mem_append.1 hmem with hmem | hmem
    · exact hpair hg hmem
    · rcases List.mem_cons.1 hmem with rfl | hmem
      · exact absurd hc (by decide)
      · exact ih hmem

theorem separated_isPair_iff (hcs : '+' ∉ cs) :
    Separated IsGroup bs cs ↔ Separated IsPair bs cs := by
  constructor
  · intro h
    have hpair {b : UInt8} {g : List Char} (hg : IsGroup b g) (hmem : '+' ∉ g) : IsPair b g := by
      cases hg with
      | pair hp => exact hp
      | signed => exact absurd List.mem_cons_self hmem
    induction h with
    | last hg => exact .last (hpair hg hcs)
    | next hg hc _ ih =>
      rw [List.mem_append, not_or, List.mem_cons, not_or] at hcs
      exact .next (hpair hg hcs.1) hc (ih hcs.2.2)
  · intro h
    exact h.imp fun _ _ => .pair

theorem mem_of_mem_trim (h : c ∈ Text.trim cs) : c ∈ cs := by
  have hsuffix := (List.dropWhile_suffix Text.isBlank (l := cs)).subset
  rw [Text.trim, List.mem_reverse] at h
  exact hsuffix (List.mem_reverse.1 ((List.dropWhile_suffix _).subset h))

theorem trim_of_not_isBlank (h : ∀ c ∈ cs, Text.isBlank c = false) : Text.trim cs = cs := by
  have hdrop {ds : List Char} (hds : ∀ c ∈ ds, Text.isBlank c = false) :
      ds.dropWhile Text.isBlank = ds := by
    cases ds with
    | nil => rfl
    | cons d ds => exact List.dropWhile_cons_of_neg (by simp [hds d List.mem_cons_self])
  rw [Text.trim, hdrop h, hdrop fun c hc => h c (List.mem_reverse.1 hc), List.reverse_reverse]

theorem not_isBlank_of_separated (h : Separated IsPair bs cs) :
    ∀ c ∈ cs, Text.isBlank c = false := by
  have hpair {b : UInt8} {g : List Char} (hg : IsPair b g) : ∀ c ∈ g, Text.isBlank c = false := by
    have hdigit {n : Nat} {c : Char} (hc : Hex.IsDigit n c) : Text.isBlank c = false :=
      hc.of_forall (p := fun c => Text.isBlank c = false) (by decide)
    cases hg with
    | mk hh hl => simp [hdigit hh, hdigit hl]
  induction h with
  | last hg => exact hpair hg
  | @next b g d bs cs hg hd _ ih =>
    have hblank : Text.isBlank d = false := by
      simp only [isSeparator, Bool.or_eq_true, decide_eq_true_eq] at hd
      rcases hd with rfl | rfl <;> decide
    intro c hc
    rcases List.mem_append.1 hc with hc | hc
    · exact hpair hg c hc
    · rcases List.mem_cons.1 hc with rfl | hc
      · exact hblank
      · exact ih c hc

/-! ### Showing an address -/

/-- The character as `toString` would show it: separators are colons, letters are capitals. -/
def shown (c : Char) : Char := if isSeparator c then ':' else c.toUpper

theorem shown_of_isDigit {n : Nat} (h : Hex.IsDigit n c) : shown c = Hex.digitUpper n := by
  cases h with
  | small hn => exact (by decide : ∀ n < 16, shown (Hex.digit n) = Hex.digitUpper n) n hn
  | capital hn => exact (by decide : ∀ n < 16, shown (Hex.digitUpper n) = Hex.digitUpper n) n hn

theorem map_shown_of_isPair (h : IsPair b g) : g.map shown = Hex.encodeByteUpper b := by
  cases h with
  | mk hh hl => simp [shown_of_isDigit hh, shown_of_isDigit hl, Hex.encodeByteUpper]

/-- What is read from pairs of digits is shown by `pairs` with the same digits. -/
theorem pairs_of_separated (h : Separated IsPair bs cs) : pairs bs = cs.map shown := by
  induction h with
  | last hg => exact (map_shown_of_isPair hg).symm
  | @next b g c bs cs hg hc hrest ih =>
    have hcolon : shown c = ':' := if_pos hc
    have hpairs : pairs (b :: bs) = Hex.encodeByteUpper b ++ ':' :: pairs bs := by
      cases hrest <;> rfl
    rw [hpairs, ih, List.map_append, List.map_cons, map_shown_of_isPair hg, hcolon]

theorem isPair_encodeByteUpper (b : UInt8) : IsPair b (Hex.encodeByteUpper b) := by
  have hb := b.toNat_lt
  exact .mk (.capital (by omega)) (.capital (by omega))

theorem separated_pairs (hbs : bs ≠ []) : Separated IsPair bs (pairs bs) := by
  induction bs with
  | nil => exact absurd rfl hbs
  | cons b bs ih =>
    cases bs with
    | nil => exact .last (isPair_encodeByteUpper b)
    | cons b' bs => exact .next (isPair_encodeByteUpper b) rfl (ih (List.cons_ne_nil _ _))

theorem separated_toString (a : Address) :
    Separated IsPair a.octets.toList (Text.trim (toString a).toList) := by
  have htext : (toString a).toList = pairs a.octets.toList := String.toList_ofList
  have hne : a.octets.toList ≠ [] := by
    intro hnil
    have hlength := a.octets.length_toList
    rw [hnil] at hlength
    cases hlength
  have hpairs := separated_pairs hne
  rw [htext, trim_of_not_isBlank (not_isBlank_of_separated hpairs)]
  exact hpairs

/-- **`Address.ofString` reads six groups.** `ofString s = .ok a` exactly if the trimmed text is
`Separated IsGroup a.octets.toList`, and every other text is refused with `invalidAddress s`.
Without a plus sign in `s` there are only `IsPair`s, and `toString a` is the trimmed text, in
capitals and between colons. Every `toString a` is read back as `a`. -/
theorem reads_six_groups (s : String) :
    (∀ a, ofString s = .ok a ↔ Separated IsGroup a.octets.toList (Text.trim s.toList)) ∧
    (∀ e, ofString s = .error e → e = .invalidAddress s) ∧
    ('+' ∉ s.toList → ∀ a,
      (ofString s = .ok a ↔ Separated IsPair a.octets.toList (Text.trim s.toList)) ∧
      (ofString s = .ok a → (toString a).toList = (Text.trim s.toList).map shown)) ∧
    ∀ a : Address, ofString (toString a) = .ok a := by
  refine ⟨fun a => ofString_eq_ok_iff, ?_, ?_, ?_⟩
  · intro e he
    unfold ofString at he
    split at he
    · cases he
    · cases he
      rfl
  · intro hplus a
    have hread : ofString s = .ok a ↔ Separated IsPair a.octets.toList (Text.trim s.toList) := by
      rw [ofString_eq_ok_iff]
      exact separated_isPair_iff fun hmem => hplus (mem_of_mem_trim hmem)
    refine ⟨hread, fun ha => ?_⟩
    show (String.ofList (pairs a.octets.toList)).toList = _
    rw [String.toList_ofList, pairs_of_separated (hread.1 ha)]
  · intro a
    exact ofString_eq_ok_iff.2 ((separated_toString a).imp fun _ _ => .pair)

/-- Small letters, hyphens among colons, and blanks around the text. -/
theorem reads_six_groups_mixed :
    let a : Address := ⟨#v[0xAA, 0xBB, 0x0C, 0xDD, 0xEE, 0x0F]⟩
    '+' ∉ "\t aa-bb:0c-dd:ee-0F\n".toList ∧ ofString "\t aa-bb:0c-dd:ee-0F\n" = .ok a ∧
      (toString a).toList = "AA:BB:0C:DD:EE:0F".toList := by
  intro a
  have hplus : '+' ∉ "\t aa-bb:0c-dd:ee-0F\n".toList := by decide +kernel
  obtain ⟨-, -, hread, -⟩ := reads_six_groups "\t aa-bb:0c-dd:ee-0F\n"
  have hsome : ofString? "\t aa-bb:0c-dd:ee-0F\n" = some a := by decide +kernel
  have ha : ofString "\t aa-bb:0c-dd:ee-0F\n" = .ok a := by rw [ofString, hsome]
  have hshown := (hread hplus a).2 ha
  refine ⟨hplus, ha, hshown.trans ?_⟩
  decide +kernel

/-- `"+F"` is read as `0x0F`, although the text is not made of `IsPair`s. -/
theorem plus_sign_read :
    ofString "AA:BB:CC:DD:EE:+F" = .ok ⟨#v[0xAA, 0xBB, 0xCC, 0xDD, 0xEE, 0x0F]⟩ ∧
    ∀ bs, ¬ Separated IsPair bs (Text.trim "AA:BB:CC:DD:EE:+F".toList) := by
  constructor
  · have hsome : ofString? "AA:BB:CC:DD:EE:+F" = some ⟨#v[0xAA, 0xBB, 0xCC, 0xDD, 0xEE, 0x0F]⟩ := by
      decide +kernel
    rw [ofString, hsome]
  · intro bs h
    refine plus_notMem_of_separated h ?_
    decide +kernel

end RadioLink.Address

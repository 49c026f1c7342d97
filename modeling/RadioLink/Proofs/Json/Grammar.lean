import RadioLink.Proofs.Hex
import RadioLink.Proofs.Json.Members

/-!
# Passing over a value

`Grammar` says which texts are values: words, numbers, literals, and lists and objects of values
with blanks around them, nested to any depth. `skippedValue` keeps the containers that are open on a
stack, and gets through every value of the grammar:

    reads_skippedValue : IsValue v → Reads skippedValue v ()

In the midst of a value the stack decides how it goes on. So what is proved of the parts of a value
is that, however deep they stand, they leave the stack as it was (`Passed`).
-/

namespace RadioLink.Json

open Reader Text.Reader

/-! ### The grammar -/

/-- What a literal may hold between its quotation marks. An escape by number need not stand for a
character. -/
inductive IsCharacters : List Char → Prop
  | nil : IsCharacters []
  | plain {c es} : 0x20 ≤ c.toNat → c ≠ '"' → c ≠ '\\' → IsCharacters es → IsCharacters (c :: es)
  | short {l es} : l ∈ "\"\\/bfnrt".toList → IsCharacters es → IsCharacters ('\\' :: l :: es)
  | number {w es} : w.length = 4 → (∀ c ∈ w, ∃ n, Hex.IsDigit n c) → IsCharacters es →
      IsCharacters ('\\' :: 'u' :: (w ++ es))

inductive IsFraction : List Char → Prop
  | none : IsFraction []
  | point {ds} : IsDigits ds → IsFraction ('.' :: ds)

inductive IsExponent : List Char → Prop
  | none : IsExponent []
  | power {e sign ds} : e = 'e' ∨ e = 'E' → sign = [] ∨ sign = ['+'] ∨ sign = ['-'] → IsDigits ds →
      IsExponent (e :: (sign ++ ds))

inductive IsNumber : List Char → Prop
  | mk {sign w f x} : sign = [] ∨ sign = ['-'] → IsWhole w → IsFraction f → IsExponent x →
      IsNumber (sign ++ (w ++ (f ++ x)))

/-- The opening bracket. -/
def Container.opener : Container → Char
  | .list => '['
  | .object => '\x7b'

/-- What a text can be in a value. -/
inductive Part where
  | value
  /-- A value with blanks around it. -/
  | element
  /-- An element of a list, or a member of an object. -/
  | item (k : Container)
  /-- Items with commas between them. -/
  | items (k : Container)

/-- The grammar of JSON, by the parts of a value. -/
inductive Grammar : Part → List Char → Prop
  | null : Grammar .value ['n', 'u', 'l', 'l']
  | true : Grammar .value ['t', 'r', 'u', 'e']
  | false : Grammar .value ['f', 'a', 'l', 's', 'e']
  | literal {es} : IsCharacters es → Grammar .value ('"' :: (es ++ ['"']))
  | number {ds} : IsNumber ds → Grammar .value ds
  | empty (k : Container) {g} : IsBlanks g → Grammar .value (k.opener :: (g ++ [k.closer]))
  | filled {k ts} : Grammar (.items k) ts → Grammar .value (k.opener :: (ts ++ [k.closer]))
  | element {g v h} : IsBlanks g → Grammar .value v → IsBlanks h →
      Grammar .element (g ++ (v ++ h))
  | ofList {t} : Grammar .element t → Grammar (.item .list) t
  | member {g es h t} : IsBlanks g → IsCharacters es → IsBlanks h → Grammar .element t →
      Grammar (.item .object) (g ++ '"' :: (es ++ '"' :: (h ++ ':' :: t)))
  | last {k t} : Grammar (.item k) t → Grammar (.items k) t
  | more {k t ts} : Grammar (.item k) t → Grammar (.items k) ts →
      Grammar (.items k) (t ++ ',' :: ts)

/-- The text is a value. -/
abbrev IsValue : List Char → Prop := Grammar .value

/-! ### Literals -/

theorem exists_fourDigits? {w : List Char} (hlen : w.length = 4)
    (hw : ∀ c ∈ w, ∃ n, Hex.IsDigit n c) : ∃ n, fourDigits? w = some (n, []) := by
  obtain ⟨a, b, c, d, rfl⟩ : ∃ a b c d, w = [a, b, c, d] := by
    match w, hlen with
    | [a, b, c, d], _ => exact ⟨a, b, c, d, rfl⟩
  obtain ⟨na, ha⟩ := hw a (by simp)
  obtain ⟨nb, hb⟩ := hw b (by simp)
  obtain ⟨nc, hc⟩ := hw c (by simp)
  obtain ⟨nd, hd⟩ := hw d (by simp)
  refine ⟨((na * 16 + nb) * 16 + nc) * 16 + nd, ?_⟩
  rw [← Hex.value?_eq_some_iff] at ha hb hc hd
  simp only [fourDigits?, ha, hb, hc, hd]

theorem exists_shortEscape? {l : Char} (h : l ∈ "\"\\/bfnrt".toList) :
    ∃ c, shortEscape? l = some c := by
  have hall : "\"\\/bfnrt".toList.all (fun l => (shortEscape? l).isSome) = true := by decide
  exact Option.isSome_iff_exists.1 (List.all_eq_true.1 hall l h)

theorem run_skippedString {es : List Char} (h : IsCharacters es) (rest : List Char) :
    skippedString.run (es ++ '"' :: rest) = .ok ((), rest) := by
  show quotationFrom _ _ _ _ _ () _ = _
  induction h with
  | nil => rw [List.nil_append, quotationFrom, if_pos rfl]
  | plain hp hq hb _ ih =>
    rw [List.cons_append, quotationFrom_of_plain (by simpa [isPlain] using hp) hq hb]
    exact ih
  | @short l es hl _ ih =>
    obtain ⟨c, hc⟩ := exists_shortEscape? hl
    have hrun : skippedEscape.run (l :: (es ++ '"' :: rest)) = .ok ((), es ++ '"' :: rest) := by
      simp [skippedEscape, inString, run_bind, hc]
    rw [List.cons_append, List.cons_append, quotationFrom_of_escape hrun]
    exact ih
  | @number w es hlen hw _ ih =>
    obtain ⟨n, hn⟩ := exists_fourDigits? hlen hw
    have hrun : skippedEscape.run ('u' :: (w ++ (es ++ '"' :: rest)))
        = .ok ((), es ++ '"' :: rest) := by
      simp [skippedEscape, inString, run_bind, shortEscape?, run_hexWord hn]
    rw [List.cons_append, List.cons_append, List.append_assoc, quotationFrom_of_escape hrun]
    exact ih

/-! ### Numbers -/

variable {ds w f x rest : List Char}

theorem run_skippedDigits (h : IsDigits ds)
    (hrest : ∀ c, rest.head? = some c → isDigit c = false) :
    skippedDigits.run (ds ++ rest) = .ok ((), rest) := by
  obtain ⟨htake, hdrop⟩ := takeWhile_digits h.2 hrest
  have hrun : (takeWhile isDigit : Reader (List Char)).run (ds ++ rest) = .ok (ds, rest) := by
    rw [run_takeWhile, htake, hdrop]
  rw [skippedDigits, run_bind_of_ok hrun]
  split
  · exact absurd rfl h.1
  · rfl

theorem run_skippedExponent {sign : List Char} (hsign : sign = [] ∨ sign = ['+'] ∨ sign = ['-'])
    (hds : IsDigits ds) (hrest : EndsNumber rest) :
    skippedExponent.run (sign ++ (ds ++ rest)) = .ok ((), rest) := by
  have hdigits := run_skippedDigits hds fun c hc => (hrest c hc).1
  have hrun : ∃ down, exponentSign.run (sign ++ (ds ++ rest)) = .ok (down, ds ++ rest) := by
    rcases hsign with rfl | rfl | rfl
    · obtain ⟨d, ds, rfl⟩ := List.exists_cons_of_ne_nil hds.1
      have hd : isDigit d = true := hds.2 d List.mem_cons_self
      refine ⟨false, ?_⟩
      rw [exponentSign, run_bind, run_peek, List.nil_append, List.cons_append, List.head?_cons]
      dsimp only
      split
      · next heq => cases heq; cases hd
      · next heq => cases heq; cases hd
      · rfl
    · exact ⟨false, rfl⟩
    · exact ⟨true, rfl⟩
  obtain ⟨down, hrun⟩ := hrun
  rw [skippedExponent, run_bind_of_ok hrun]
  exact hdigits

/-- In front of an exponent, or of what ends a number, there is no more of the digits. -/
theorem head_of_isExponent (h : IsExponent x) (hrest : EndsNumber rest) {c : Char}
    (hc : (x ++ rest).head? = some c) : isDigit c = false ∧ c ≠ '.' := by
  cases h with
  | none => exact ⟨(hrest c hc).1, (hrest c hc).2.1⟩
  | power he =>
    cases hc
    rcases he with rfl | rfl <;> decide

theorem head_of_isFraction (hf : IsFraction f) (hx : IsExponent x) (hrest : EndsNumber rest)
    {c : Char} (hc : (f ++ (x ++ rest)).head? = some c) : isDigit c = false := by
  cases hf with
  | none => exact (head_of_isExponent hx hrest hc).1
  | point =>
    cases hc
    decide

/-- `skippedFraction` takes the digits of a fraction, and an exponent if there is one. -/
theorem run_skippedFraction (hds : IsDigits ds) (hx : IsExponent x) (hrest : EndsNumber rest) :
    skippedFraction.run (ds ++ (x ++ rest)) = .ok ((), rest) := by
  have hdigits := run_skippedDigits hds fun c hc => (head_of_isExponent hx hrest hc).1
  rw [skippedFraction, run_bind_of_ok hdigits, run_bind, run_peek]
  cases hx with
  | none =>
    rw [List.nil_append]
    dsimp only
    split
    · next heq => exact absurd rfl (hrest _ heq).2.2.1
    · next heq => exact absurd rfl (hrest _ heq).2.2.2
    · rfl
  | power he hsign hpower =>
    have hrun := run_skippedExponent hsign hpower hrest
    rw [← List.append_assoc] at hrun
    rcases he with rfl | rfl <;> exact hrun

/-- `skippedRest d` takes the rest of a number without a sign that starts with `d`. -/
theorem run_skippedRest {d : Char} (hw : IsWhole (d :: ds)) (hf : IsFraction f) (hx : IsExponent x)
    (hrest : EndsNumber rest) :
    (skippedRest d).run (ds ++ (f ++ (x ++ rest))) = .ok ((), rest) := by
  have hdigits := run_integerDigits hw fun c hc => head_of_isFraction hf hx hrest hc
  rw [skippedRest, run_bind_of_ok hdigits, run_bind, run_peek]
  cases hf with
  | point hds =>
    rw [List.cons_append]
    exact run_skippedFraction hds hx hrest
  | none =>
    cases hx with
    | none =>
      rw [List.nil_append, List.nil_append]
      dsimp only
      split
      · next heq => exact absurd rfl (hrest _ heq).2.1
      · next heq => exact absurd rfl (hrest _ heq).2.2.1
      · next heq => exact absurd rfl (hrest _ heq).2.2.2
      · rfl
    | power he hsign hpower =>
      have hrun := run_skippedExponent hsign hpower hrest
      rw [← List.append_assoc] at hrun
      rcases he with rfl | rfl <;> exact hrun

theorem IsWhole.exists_cons (h : IsWhole w) : ∃ d ds, w = d :: ds ∧ isDigit d = true := by
  cases h with
  | zero => exact ⟨'0', [], rfl, rfl⟩
  | @digits d ds _ hds => exact ⟨d, ds, rfl, hds.2 d List.mem_cons_self⟩

/-- A number starts with a minus or a digit, and `skippedNumber` takes all of it. -/
theorem IsNumber.passed (h : IsNumber ds) : ∃ c cs, ds = c :: cs ∧ startsNumber c = true ∧
    ∀ ⦃rest⦄, EndsNumber rest → (skippedNumber c).run (cs ++ rest) = .ok ((), rest) := by
  cases h with
  | @mk sign w f x hsign hw hf hx =>
    obtain ⟨d, ds, rfl, hd⟩ := hw.exists_cons
    have hrest' (rest : List Char) : (d :: ds ++ (f ++ x)) ++ rest
        = d :: (ds ++ (f ++ (x ++ rest))) := by simp
    rcases hsign with rfl | rfl
    · refine ⟨d, ds ++ (f ++ x), rfl, by simp [startsNumber, hd], fun rest hrest => ?_⟩
      have hminus : d ≠ '-' := digit_ne_minus hd
      rw [skippedNumber, if_neg hminus, List.append_assoc, List.append_assoc]
      exact run_skippedRest hw hf hx hrest
    · refine ⟨'-', d :: ds ++ (f ++ x), rfl, rfl, fun rest hrest => ?_⟩
      rw [skippedNumber, if_pos rfl, hrest']
      exact run_skippedRest hw hf hx hrest

/-! ### Containers -/

variable {comma : Bool} {k : Container} {inside outer : List Container} {n : Nesting}
  {c : Char} {cs mid : List Char}

theorem skippedLoop_of_step (h : (skippedStep comma k outer).run cs = .ok (n, mid)) :
    skippedLoop ⟨comma, k :: outer⟩ cs = skippedLoop n mid := by
  rw [skippedLoop]
  dsimp only
  split
  · next he => rw [h] at he; cases he
  · next he => rw [h] at he; cases he; rfl

theorem skippedLoop_of_fault {fault : Fault}
    (h : (skippedStep comma k outer).run cs = .error fault) :
    skippedLoop ⟨comma, k :: outer⟩ cs = .error fault := by
  rw [skippedLoop]
  dsimp only
  split
  · next he => rw [h] at he; cases he; rfl
  · next he => rw [h] at he; cases he

/-- Inside a container, `skippedLoop` passes over blanks. -/
theorem skippedLoop_append_of_isBlanks {g : List Char} (hg : IsBlanks g) (cs : List Char) :
    skippedLoop ⟨comma, k :: outer⟩ (g ++ cs) = skippedLoop ⟨comma, k :: outer⟩ cs := by
  have hstep := lenient_skippedStep comma k outer hg cs
  cases hrun : (skippedStep comma k outer).run cs with
  | error fault =>
    rw [hrun] at hstep
    rw [skippedLoop_of_fault hstep, skippedLoop_of_fault hrun]
  | ok next =>
    rw [hrun] at hstep
    rw [skippedLoop_of_step hstep, skippedLoop_of_step hrun]

theorem skippedLoop_closer (rest : List Char) :
    skippedLoop ⟨comma, k :: outer⟩ (k.closer :: rest) = skippedLoop ⟨true, outer⟩ rest := by
  apply skippedLoop_of_step
  rw [skippedStep, run_bind_of_ok (run_take_cons (by cases k <;> rfl)), if_pos rfl]
  rfl

/-- From the first character `c` of a value, the reader gets to the end of the value with the
containers that were open before. -/
def Passes (inside : List Container) (c : Char) (cs : List Char) : Prop :=
  ∀ ⦃rest⦄, EndsNumber rest → ∃ n mid, (skippedFrom inside c).run (cs ++ rest) = .ok (n, mid) ∧
    skippedLoop n mid = skippedLoop ⟨true, inside⟩ rest

/-- `t` is a value behind some blanks, and the reader `Passes` it. -/
def Begins (inside : List Container) (t : List Char) : Prop :=
  ∃ g c cs, t = g ++ c :: cs ∧ IsBlanks g ∧ isBlank c = false ∧ c ≠ ']' ∧ Passes inside c cs

/-- The reader gets through a part of a value, and leaves the stack as it was. -/
def Passed : Part → List Char → Prop
  | .value, v => ∀ inside, Begins inside v
  | .element, t => ∀ k outer, Begins (k :: outer) t
  | .item k, t | .items k, t => ∀ outer rest, EndsNumber rest →
    skippedLoop ⟨false, k :: outer⟩ (t ++ rest) = skippedLoop ⟨true, k :: outer⟩ rest ∧
    skippedLoop ⟨true, k :: outer⟩ (',' :: (t ++ rest)) = skippedLoop ⟨true, k :: outer⟩ rest

/-- A value that is taken whole, without a stack, `Begins` anywhere. -/
theorem begins_of_whole (hblank : isBlank c = false) (hc : c ≠ ']')
    (hrun : ∀ ⦃rest⦄, EndsNumber rest →
      (skippedFrom inside c).run (cs ++ rest) = .ok (⟨true, inside⟩, rest)) :
    Begins inside (c :: cs) :=
  ⟨[], c, cs, rfl, isBlanks_nil, hblank, hc, fun rest hrest => ⟨_, rest, hrun hrest, rfl⟩⟩

theorem endsNumber_closer (k : Container) (rest : List Char) : EndsNumber (k.closer :: rest) := by
  refine endsNumber_cons ?_ rest
  cases k <;> decide

theorem run_skippedFrom_opener (k : Container) (inside : List Container) (cs : List Char) :
    (skippedFrom inside k.opener).run cs = .ok (⟨false, k :: inside⟩, cs) := by
  cases k <;> rfl

/-- A container `Begins` anywhere if `skippedLoop` gets through what is in it. -/
theorem begins_container (h : ∀ ⦃rest⦄, skippedLoop ⟨false, k :: inside⟩ (cs ++ k.closer :: rest)
    = skippedLoop ⟨true, inside⟩ rest) : Begins inside (k.opener :: (cs ++ [k.closer])) := by
  have hblank : isBlank k.opener = false ∧ k.opener ≠ ']' := by cases k <;> decide
  refine ⟨[], k.opener, cs ++ [k.closer], rfl, isBlanks_nil, hblank.1, hblank.2, fun rest _ => ?_⟩
  refine ⟨_, _, run_skippedFrom_opener k inside _, ?_⟩
  rw [List.append_assoc, List.singleton_append]
  exact @h rest

theorem begins_number (h : IsNumber ds) : Begins inside ds := by
  obtain ⟨c, cs, rfl, hstart, hrun⟩ := h.passed
  -- what starts a number starts nothing else
  have hword : c ≠ 'n' ∧ c ≠ 't' ∧ c ≠ 'f' ∧ c ≠ '"' ∧ c ≠ '[' ∧ c ≠ '\x7b' ∧ c ≠ ']' := by
    refine ⟨?_, ?_, ?_, ?_, ?_, ?_, ?_⟩ <;> rintro rfl <;> cases hstart
  obtain ⟨hn, ht, hf, hq, hl, ho, hc⟩ := hword
  refine begins_of_whole (isBlank_of_startsNumber hstart) hc fun rest hrest => ?_
  unfold skippedFrom
  dsimp only
  rw [if_neg hn, if_neg ht, if_neg hf, if_neg hq, if_neg hl, if_neg ho, if_pos hstart,
    run_bind_of_ok (hrun hrest)]
  rfl

theorem begins_literal {es : List Char} (h : IsCharacters es) :
    Begins inside ('"' :: (es ++ ['"'])) := by
  refine begins_of_whole rfl (by decide) fun rest _ => ?_
  show (skippedString >>= _).run _ = _
  rw [List.append_assoc, List.singleton_append, run_bind_of_ok (run_skippedString h rest)]
  rfl

/-- Blanks around a value belong to the container that it stands in. -/
theorem Begins.pad {g h v : List Char} (hv : Begins (k :: outer) v) (hg : IsBlanks g)
    (hh : IsBlanks h) : Begins (k :: outer) (g ++ (v ++ h)) := by
  obtain ⟨g', c, cs, rfl, hg', hblank, hc, hpass⟩ := hv
  refine ⟨g ++ g', c, cs ++ h, by simp, hg.append hg', hblank, hc, fun rest hrest => ?_⟩
  obtain ⟨n, mid, hrun, hloop⟩ := hpass (endsNumber_append_of_isBlanks hh hrest)
  refine ⟨n, mid, by rwa [List.append_assoc], ?_⟩
  rw [hloop, skippedLoop_append_of_isBlanks hh]

theorem Begins.run_skippedStart {t : List Char} (h : Begins inside t) (hrest : EndsNumber rest) :
    ∃ n mid, (skippedStart inside).run (t ++ rest) = .ok (n, mid) ∧
      skippedLoop n mid = skippedLoop ⟨true, inside⟩ rest := by
  obtain ⟨g, c, cs, rfl, hg, hblank, -, hpass⟩ := h
  obtain ⟨n, mid, hrun, hloop⟩ := hpass hrest
  refine ⟨n, mid, ?_, hloop⟩
  rw [List.append_assoc, skippedStart, ((lenient_take _).bind _) hg, List.cons_append,
    run_bind_of_ok (run_take_cons hblank)]
  exact hrun

/-- An element of a list is passed over, be it the first one or behind a comma. -/
theorem Begins.listItem {t : List Char} (h : Begins (.list :: outer) t) (hrest : EndsNumber rest) :
    skippedLoop ⟨false, .list :: outer⟩ (t ++ rest) = skippedLoop ⟨true, .list :: outer⟩ rest ∧
    skippedLoop ⟨true, .list :: outer⟩ (',' :: (t ++ rest))
      = skippedLoop ⟨true, .list :: outer⟩ rest := by
  constructor
  · -- behind the opening bracket the list could also end at once
    obtain ⟨g, c, cs, rfl, hg, hblank, hc, hpass⟩ := h
    obtain ⟨n, mid, hrun, hloop⟩ := hpass hrest
    rw [List.append_assoc, skippedLoop_append_of_isBlanks hg, ← hloop, List.cons_append]
    apply skippedLoop_of_step
    have hcloser : c ≠ Container.list.closer := hc
    rw [skippedStep, run_bind_of_ok (run_take_cons hblank)]
    dsimp only
    rw [if_neg hcloser, if_neg Bool.false_ne_true]
    exact hrun
  · -- the comma is taken first, and a value has to follow it
    obtain ⟨n, mid, hrun, hloop⟩ := h.run_skippedStart hrest
    rw [← hloop]
    apply skippedLoop_of_step
    rw [skippedStep, run_bind_of_ok (run_take_cons rfl), if_neg (by decide), if_pos rfl, if_pos rfl]
    exact hrun

/-- The rest of a member is passed over, its opening quotation mark having been taken. -/
theorem Begins.run_skippedMember {es h t : List Char} (ht : Begins (.object :: outer) t)
    (hes : IsCharacters es) (hh : IsBlanks h) (hrest : EndsNumber rest) :
    ∃ n mid, (skippedMember (.object :: outer) '"').run (es ++ '"' :: (h ++ ':' :: t) ++ rest)
      = .ok (n, mid) ∧ skippedLoop n mid = skippedLoop ⟨true, .object :: outer⟩ rest := by
  obtain ⟨n, mid, hrun, hloop⟩ := ht.run_skippedStart hrest
  refine ⟨n, mid, ?_, hloop⟩
  have htext : es ++ '"' :: (h ++ ':' :: t) ++ rest = es ++ '"' :: (h ++ ':' :: (t ++ rest)) := by
    simp
  rw [htext, skippedMember, if_pos rfl, run_bind_of_ok (run_skippedString hes _),
    (lenient_colon.bind _) hh, run_bind_of_ok (run_colon_cons _)]
  exact hrun

theorem Begins.objectItem {g es h t : List Char} (ht : Begins (.object :: outer) t)
    (hg : IsBlanks g) (hes : IsCharacters es) (hh : IsBlanks h) (hrest : EndsNumber rest) :
    skippedLoop ⟨false, .object :: outer⟩ (g ++ '"' :: (es ++ '"' :: (h ++ ':' :: t)) ++ rest)
      = skippedLoop ⟨true, .object :: outer⟩ rest ∧
    skippedLoop ⟨true, .object :: outer⟩
        (',' :: (g ++ '"' :: (es ++ '"' :: (h ++ ':' :: t)) ++ rest))
      = skippedLoop ⟨true, .object :: outer⟩ rest := by
  obtain ⟨n, mid, hrun, hloop⟩ := ht.run_skippedMember hes hh hrest
  rw [List.append_assoc, List.cons_append]
  constructor
  · rw [skippedLoop_append_of_isBlanks hg, ← hloop]
    apply skippedLoop_of_step
    rw [skippedStep, run_bind_of_ok (run_take_cons rfl), if_neg (by decide),
      if_neg Bool.false_ne_true]
    exact hrun
  · rw [← hloop]
    apply skippedLoop_of_step
    rw [skippedStep, run_bind_of_ok (run_take_cons rfl), if_neg (by decide), if_pos rfl, if_pos rfl,
      ((lenient_take _).bind _) hg, run_bind_of_ok (run_take_cons rfl)]
    exact hrun

/-! ### Values -/

/-- Whatever is a part of a value is `Passed`, however deep it stands: by induction on the
`Grammar`. -/
theorem Grammar.passed {p : Part} {t : List Char} (h : Grammar p t) : Passed p t := by
  -- the stack is not fixed, as a part of a container is read with one more container open
  induction h with
  | null | true | false =>
    intro inside
    exact begins_of_whole rfl (by decide) fun rest _ => rfl
  | literal hes =>
    intro inside
    exact begins_literal hes
  | number hds =>
    intro inside
    exact begins_number hds
  | empty k hg =>
    intro inside
    apply begins_container
    intro rest
    rw [skippedLoop_append_of_isBlanks hg, skippedLoop_closer]
  | @filled k ts _ ih =>
    intro inside
    apply begins_container
    intro rest
    rw [(ih inside _ (endsNumber_closer k rest)).1, skippedLoop_closer]
  | element hg _ hh ih =>
    intro k outer
    exact (ih (k :: outer)).pad hg hh
  | ofList _ ih =>
    intro outer rest hrest
    exact (ih .list outer).listItem hrest
  | member hg hes hh _ ih =>
    intro outer rest hrest
    exact (ih .object outer).objectItem hg hes hh hrest
  | last _ ih => exact ih
  | @more k t ts _ _ iht ihts =>
    intro outer rest hrest
    -- behind the first item there is a comma, and what follows it is behind a comma too
    have hcomma : EndsNumber (',' :: (ts ++ rest)) := endsNumber_cons (by decide) _
    obtain ⟨hfirst, hnext⟩ := iht outer _ hcomma
    obtain ⟨-, hlater⟩ := ihts outer rest hrest
    rw [List.append_assoc, List.cons_append]
    exact ⟨hfirst.trans hlater, hnext.trans hlater⟩

/-- **Every value of the grammar is passed over**, and nothing behind it. -/
theorem reads_skippedValue {v : List Char} (h : IsValue v) : Reads skippedValue v () := by
  intro rest hrest
  have hpassed : ∀ inside, Begins inside v := h.passed
  obtain ⟨n, mid, hrun, hloop⟩ := (hpassed []).run_skippedStart hrest
  rw [skippedValue, run_bind_of_ok hrun]
  show skippedLoop n mid = _
  rw [hloop, skippedLoop]

end RadioLink.Json

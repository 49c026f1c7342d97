import RadioLink.Json.Shape
import RadioLink.Proofs.Reading

/-!
# Places in a text

Seen from far away, JSON text is literals between brackets. A place in a text is where it stands in
this respect: outside all literals, inside one, or just behind a backslash in one, and how many
brackets are open. Of a reader it is asked what it does to the place:

    Scans r o q : r.run cs = .ok (a, rest) → ∃ used, cs = used ++ rest ∧ scan o used = some (q a)

Outside the literals only blanks, commas, colons and the characters of numbers and words may stand.
The place says nothing about which values stand where, only how a text can go on.
-/

namespace RadioLink.Json

open Reader Text.Reader

variable {α β : Type}

/-! ### Places -/

/-- Where a text stands, with `depth` brackets open. -/
inductive Place where
  | outside (depth : Nat)
  | inside (depth : Nat)
  /-- Behind a backslash in a literal. -/
  | escape (depth : Nat)
  deriving DecidableEq, Repr

/-- Whether a character may stand outside literals without changing the place: blanks, digits, and
what else is in numbers, words and between values. -/
def isNeutral (c : Char) : Bool :=
  isBlank c || isDigit c || ",:+-.eEnulltruefalse".toList.contains c

/-- The place after `c`, unless it cannot stand there. -/
def Place.next : Place → Char → Option Place
  | .outside depth, c =>
    if isNeutral c then some (.outside depth)
    else if c = '"' then some (.inside depth)
    else if c = '\x7b' ∨ c = '[' then some (.outside (depth + 1))
    else if c = '\x7d' ∨ c = ']' then
      match depth with
      | 0 => none
      | depth + 1 => some (.outside depth)
    else none
  | .inside depth, c =>
    if c = '"' then some (.outside depth)
    else if c = '\\' then some (.escape depth)
    else some (.inside depth)
  | .escape depth, _ => some (.inside depth)

/-- The place after `c`, if the text could be read so far. -/
def step (o : Option Place) (c : Char) : Option Place := o.bind (·.next c)

/-- The place after the text `cs`. -/
def scan (o : Option Place) (cs : List Char) : Option Place := cs.foldl step o

@[simp] theorem scan_nil (o : Option Place) : scan o [] = o := rfl

@[simp] theorem scan_cons (o : Option Place) (c : Char) (cs : List Char) :
    scan o (c :: cs) = scan (step o c) cs := rfl

@[simp] theorem scan_append (o : Option Place) (cs ds : List Char) :
    scan o (cs ++ ds) = scan (scan o cs) ds := List.foldl_append

theorem scan_none (cs : List Char) : scan none cs = none := by
  induction cs with
  | nil => rfl
  | cons c cs ih => exact ih

theorem step_outside_of_isNeutral {c : Char} (h : isNeutral c) (d : Nat) :
    step (some (.outside d)) c = some (.outside d) := by
  simp [step, Place.next, h]

theorem scan_outside_of_isNeutral {cs : List Char} (h : ∀ c ∈ cs, isNeutral c) (d : Nat) :
    scan (some (.outside d)) cs = some (.outside d) := by
  induction cs with
  | nil => rfl
  | cons c cs ih =>
    rw [scan_cons, step_outside_of_isNeutral (h c List.mem_cons_self),
      ih fun c' hc' => h c' (List.mem_cons_of_mem _ hc')]

theorem scan_takeWhile_of_isNeutral {p : Char → Bool} (h : ∀ c, p c → isNeutral c) (cs : List Char)
    (d : Nat) : scan (some (.outside d)) (cs.takeWhile p) = some (.outside d) :=
  scan_outside_of_isNeutral (fun c hc => h c (List.all_eq_true.1 List.all_takeWhile c hc)) d

theorem isNeutral_of_isBlank {c : Char} (h : isBlank c) : isNeutral c := by simp [isNeutral, h]

theorem isNeutral_of_isDigit {c : Char} (h : isDigit c) : isNeutral c := by simp [isNeutral, h]

theorem isNeutral_of_startsNumber {c : Char} (h : startsNumber c) : isNeutral c := by
  rw [startsNumber, Bool.or_eq_true, decide_eq_true_iff] at h
  rcases h with rfl | h
  · decide
  · exact isNeutral_of_isDigit h

/-! ### What readers do to the place -/

/-- On a text that starts with `h`, what the reader takes moves the place from `o` to `q a`. -/
def ScansOn (h : Option Char) (r : Reader α) (o : Option Place) (q : α → Place) : Prop :=
  ∀ ⦃cs a rest⦄, cs.head? = h → r.run cs = .ok (a, rest) →
    ∃ used, cs = used ++ rest ∧ scan o used = some (q a)

/-- What the reader takes moves the place from `o` to `q a`, where `a` is the value read. -/
def Scans (r : Reader α) (o : Option Place) (q : α → Place) : Prop := ∀ h, ScansOn h r o q

/-- What the reader takes stands outside literals and closes the brackets that it opens. -/
def Balanced (r : Reader α) : Prop := ∀ d, Scans r (some (.outside d)) fun _ => .outside d

/-- The reader refuses every text. -/
def Refuses (r : Reader α) : Prop := Yields r fun _ => False

variable {o : Option Place} {q : α → Place} {s : β → Place}

theorem Refuses.scans {r : Reader α} (h : Refuses r) : Scans r o q :=
  fun _ _ _ _ _ hrun => (h hrun).elim

theorem scans_fail (fault : Fault) : Scans (fail fault : Reader α) o q :=
  Refuses.scans (yields_fail fault)

theorem scans_pure {a : α} (h : o = some (q a)) : Scans (Pure.pure a : Reader α) o q := by
  intro _ cs _ rest _ hrun
  cases hrun
  exact ⟨[], rfl, h⟩

theorem scansOn_pure {h : Option Char} {a : α} (ho : o = some (q a)) :
    ScansOn h (Pure.pure a : Reader α) o q := scans_pure ho h

theorem Scans.bind {r : Reader α} {f : α → Reader β} (hr : Scans r o q)
    (hf : ∀ a, Scans (f a) (some (q a)) s) : Scans (r >>= f) o s := by
  intro h cs b rest hh hrun
  obtain ⟨a, mid, hra, hfa⟩ := run_bind_eq_ok_iff.1 hrun
  obtain ⟨used, rfl, hused⟩ := hr h hh hra
  obtain ⟨used', rfl, hused'⟩ := hf a _ rfl hfa
  refine ⟨used ++ used', (List.append_assoc ..).symm, ?_⟩
  rw [scan_append, hused, hused']

theorem Balanced.bind {r : Reader α} {f : α → Reader β} (hr : Balanced r)
    (hf : ∀ a, Balanced (f a)) : Balanced (r >>= f) := fun d => (hr d).bind fun a => hf a d

theorem balanced_pure (a : α) : Balanced (Pure.pure a : Reader α) := fun _ => scans_pure rfl

theorem balanced_fail (fault : Fault) : Balanced (fail fault : Reader α) :=
  fun _ => scans_fail fault

/-- `peek` leaves the place, and tells how the text starts. -/
theorem scans_peek_bind {f : Option Char → Reader α} (hf : ∀ h, ScansOn h (f h) o q) :
    Scans (peek >>= f) o q := by
  intro h cs a rest hh hrun
  exact hf cs.head? rfl hrun

theorem scansOn_advance {c : Char} {p : Place} (h : step o c = some p) :
    ScansOn (some c) advance o fun _ => p := by
  intro cs a rest hhead hrun
  cases cs with
  | nil => cases hhead
  | cons d cs =>
    cases hhead
    cases hrun
    exact ⟨[c], rfl, h⟩

theorem scansOn_advance_bind {c : Char} {f : Unit → Reader α} (hf : Scans (f ()) (step o c) q) :
    ScansOn (some c) (advance >>= f) o q := by
  intro cs a rest hhead hrun
  cases cs with
  | nil => cases hhead
  | cons d cs =>
    cases hhead
    obtain ⟨used, rfl, hused⟩ := hf _ rfl hrun
    exact ⟨c :: used, rfl, hused⟩

theorem balanced_takeWhile_isDigit : Balanced (takeWhile isDigit) := by
  intro d _ cs _ rest _ hrun
  cases hrun
  refine ⟨cs.takeWhile isDigit, (List.takeWhile_append_dropWhile).symm, ?_⟩
  exact scan_takeWhile_of_isNeutral (fun _ => isNeutral_of_isDigit) cs d

/-! ### Tokens -/

theorem scan_takeWhile_isBlank (cs : List Char) (d : Nat) :
    scan (some (.outside d)) (cs.takeWhile isBlank) = some (.outside d) :=
  scan_takeWhile_of_isNeutral (fun _ => isNeutral_of_isBlank) cs d

/-- `take` moves the place by the character that it takes; the blanks before it do not. -/
theorem scans_take_bind {d : Nat} {fault : Fault} {f : Char → Reader α}
    (hf : ∀ c, Scans (f c) (step (some (.outside d)) c) q) :
    Scans (take fault >>= f) (some (.outside d)) q := by
  intro _ cs a rest _ hrun
  obtain ⟨c, mid, htake, hfc⟩ := run_bind_eq_ok_iff.1 hrun
  have hcs : cs.takeWhile isBlank ++ cs.dropWhile isBlank = cs := List.takeWhile_append_dropWhile
  simp only [take] at htake
  split at htake
  · cases htake
  · next heq =>
    cases htake
    obtain ⟨used, rfl, hused⟩ := hf c _ rfl hfc
    refine ⟨cs.takeWhile isBlank ++ c :: used, ?_, ?_⟩
    · rw [List.append_assoc, List.cons_append, ← heq, hcs]
    · rw [scan_append, scan_takeWhile_isBlank, scan_cons, hused]

theorem scans_token_bind {d : Nat} {f : Option Char → Reader α}
    (hf : ∀ h, ScansOn h (f h) (some (.outside d)) q) :
    Scans (token >>= f) (some (.outside d)) q := by
  intro _ cs a rest _ hrun
  obtain ⟨h, mid, htoken, hfh⟩ := run_bind_eq_ok_iff.1 hrun
  cases htoken
  obtain ⟨used, hused, hscan⟩ := hf _ rfl hfh
  refine ⟨cs.takeWhile isBlank ++ used, ?_, ?_⟩
  · rw [List.append_assoc, ← hused, List.takeWhile_append_dropWhile]
  · rw [scan_append, scan_takeWhile_isBlank, hscan]

theorem balanced_word {cs : List Char} (h : cs.all isNeutral) : Balanced (word cs) := by
  induction cs with
  | nil => exact balanced_pure ()
  | cons c cs ih =>
    rw [List.all_cons, Bool.and_eq_true] at h
    intro d
    refine scans_peek_bind fun o => ?_
    cases o with
    | none => exact scans_fail _ _
    | some c' =>
      show ScansOn (some c') (if c' = c then _ else _) _ _
      split
      · next heq =>
        subst heq
        apply scansOn_advance_bind
        rw [step_outside_of_isNeutral h.1]
        exact ih h.2 d
      · exact scans_fail _ _

theorem balanced_colon : Balanced colon := by
  intro d
  refine scans_token_bind fun o => ?_
  split
  · exact scans_fail _ _
  · exact scansOn_advance rfl
  · exact scans_fail _ _

/-- What `atEnd` takes does not change the place. -/
theorem scan_of_atEnd {cs rest : List Char} (h : atEnd.run cs = .ok ((), rest)) (d : Nat) :
    scan (some (.outside d)) cs = some (.outside d) := by
  obtain ⟨o, mid, htoken, hend⟩ := run_bind_eq_ok_iff.1 h
  cases htoken
  cases hd : cs.dropWhile isBlank with
  | nil =>
    have hscan := scan_takeWhile_isBlank cs d
    have hcs : cs.takeWhile isBlank ++ cs.dropWhile isBlank = cs := List.takeWhile_append_dropWhile
    rw [hd, List.append_nil] at hcs
    rwa [hcs] at hscan
  | cons c cs' =>
    rw [hd] at hend
    cases hend

/-- **A text that is read whole by a `Balanced` reader is balanced.** -/
theorem scan_of_parse {r : Reader α} (hr : Balanced r) {text : String} {a : α}
    (h : r.parse text = .ok a) (d : Nat) :
    scan (some (.outside d)) text.toList = some (.outside d) := by
  rw [parse] at h
  split at h
  · next hrun =>
    obtain ⟨b, mid, hb, hrest⟩ := run_bind_eq_ok_iff.1 hrun
    obtain ⟨u, rest, hend, -⟩ := run_bind_eq_ok_iff.1 hrest
    obtain ⟨used, hused, hscan⟩ := hr d _ rfl hb
    rw [hused, scan_append, hscan]
    exact scan_of_atEnd hend d
  · cases h

end RadioLink.Json

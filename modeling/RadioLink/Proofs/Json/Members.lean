import Mathlib.Data.List.Forall2
import RadioLink.Proofs.Json.Blanks
import RadioLink.Proofs.Json.Number
import RadioLink.Proofs.Json.Spelling

/-!
# Objects, member by member

An object is read by taking in one member after the other. When each of some member texts takes the
reader from one state to the next, reading the object they make ends in the last state:

    reads_members : IsBlanks g → TakesSpaced member s ts s' →
      Reads (members member s) (g ++ (commaSeparated ts ++ ['\x7d'])) s'

If what is read depends on the names alone that were met, the members may come in any order, and
with others among them that are passed over (`Unordered.exists_reads`).
-/

namespace RadioLink.Json

open Reader Text.Reader

variable {α β σ : Type}

/-! ### Values -/

/-- A character that is no digit, dot or exponent mark ends a number. -/
theorem endsNumber_cons {c : Char} (h : isDigit c = false ∧ c ≠ '.' ∧ c ≠ 'e' ∧ c ≠ 'E')
    (rest : List Char) : EndsNumber (c :: rest) := by
  intro d hd
  cases hd
  exact h

theorem endsNumber_nil : EndsNumber [] := by
  intro d hd
  cases hd

theorem endsNumber_append_of_isBlanks {g rest : List Char} (hg : IsBlanks g)
    (hrest : EndsNumber rest) : EndsNumber (g ++ rest) := by
  cases g with
  | nil => exact hrest
  | cons c g =>
    refine endsNumber_cons ?_ (g ++ rest)
    have hc := hg c List.mem_cons_self
    simp only [isBlank, Bool.or_eq_true, decide_eq_true_eq] at hc
    rcases hc with ((rfl | rfl) | rfl) | rfl <;> decide

theorem Reads.map {r : Reader α} {cs : List Char} {a : α} (h : Reads r cs a) (f : α → β) :
    Reads (do return f (← r)) cs (f a) := by
  intro rest hrest
  rw [run_bind_of_ok (h hrest)]
  rfl

theorem reads_colon {r : Reader α} {cs : List Char} {a : α} (h : Reads r cs a) :
    Reads (do colon; r) (':' :: cs) a := by
  intro rest hrest
  rw [List.cons_append, run_bind_of_ok (run_colon_cons _)]
  exact h hrest

/-- Something written behind a colon, with blanks around the colon. -/
def IsValued (p : List Char → Prop) (cs : List Char) : Prop :=
  ∃ g h v, IsBlanks g ∧ IsBlanks h ∧ p v ∧ cs = g ++ ':' :: (h ++ v)

theorem reads_colon_of_isValued {r : Reader α} {p : List Char → Prop} {a : α} (hr : Lenient r)
    (h : ∀ v, p v → Reads r v a) {cs : List Char} (hcs : IsValued p cs) :
    Reads (do colon; r) cs a := by
  obtain ⟨g, k, v, hg, hk, hv, rfl⟩ := hcs
  intro rest hrest
  rw [List.append_assoc, (lenient_colon.bind _) hg, List.cons_append,
    run_bind_of_ok (run_colon_cons _), List.append_assoc, hr hk]
  exact h v hv hrest

theorem reads_field {r : Reader α} {cs : List Char} {a : α} (h : Reads r cs a) (name : String) :
    Reads (field name (none : Option β) r) (':' :: cs) a := reads_colon h

/-- `orNull r` reads what `r` reads, when that is not `null`. -/
theorem reads_orNull {r : Reader α} {c : Char} {cs : List Char} {a : α} (h : Reads r (c :: cs) a)
    (hblank : isBlank c = false) (hnull : c ≠ 'n') : Reads (orNull r) (c :: cs) (some a) := by
  intro rest hrest
  rw [orNull, List.cons_append, run_bind_of_ok (run_token_cons hblank)]
  split
  · next heq => exact absurd (Option.some.inj heq) hnull
  · exact (h.map some) hrest

/-! ### Literals -/

/-- A literal of the text `s`, in whatever way its characters are spelled. -/
def IsLiteral (s : String) (ds : List Char) : Prop :=
  ∃ es, Spelled s.toList es ∧ ds = '"' :: (es ++ ['"'])

theorem IsLiteral.append_eq {s : String} {ds : List Char} (h : IsLiteral s ds)
    (rest : List Char) : ∃ es, Spelled s.toList es ∧ ds ++ rest = '"' :: (es ++ '"' :: rest) := by
  obtain ⟨es, hs, rfl⟩ := h
  exact ⟨es, hs, by simp⟩

theorem reads_text {s : String} {ds : List Char} (h : IsLiteral s ds) : Reads text ds s := by
  intro rest _
  obtain ⟨es, hs, heq⟩ := h.append_eq rest
  rw [heq, text, run_bind_of_ok (run_take_cons rfl), if_pos rfl]
  exact run_string hs rest

theorem reads_checkedText {check : String → Except String α} {s : String} {a : α}
    (ha : check s = .ok a) {ds : List Char} (h : IsLiteral s ds) :
    Reads (checkedText check) ds a := by
  intro rest hrest
  rw [checkedText, run_bind_of_ok (reads_text h hrest), ha]
  rfl

theorem isLiteral_of_respaced {s : String} {ds : List Char} (h : Respaced (literal s) ds) :
    IsLiteral s ds := by
  obtain ⟨ds, rfl, hds⟩ := h.of_cons (by decide)
  obtain ⟨es, fs, rfl, hes, hfs⟩ := hds.of_append
  exact ⟨es, spelled_of_respaced hes, by rw [hfs.eq_of_notMem (by decide)]⟩

/-! ### Names of members -/

theorem run_memberName?_first {name : String} {ds : List Char} (h : IsLiteral name ds)
    (rest : List Char) : (memberName? true).run (ds ++ rest) = .ok (some name, rest) := by
  obtain ⟨es, hs, heq⟩ := h.append_eq rest
  rw [heq, memberName?, run_bind_of_ok (run_take_cons rfl), if_neg (by decide), if_pos rfl,
    if_pos rfl, run_bind_of_ok (run_string hs rest)]
  rfl

theorem run_memberName?_next {name : String} {g ds : List Char} (hg : IsBlanks g)
    (h : IsLiteral name ds) (rest : List Char) :
    (memberName? false).run (',' :: (g ++ (ds ++ rest))) = .ok (some name, rest) := by
  obtain ⟨es, hs, heq⟩ := h.append_eq rest
  rw [heq, memberName?, run_bind_of_ok (run_take_cons rfl), if_neg (by decide),
    if_neg Bool.false_ne_true, if_pos rfl, ((lenient_take _).bind _) hg,
    run_bind_of_ok (run_take_cons rfl), if_pos rfl, run_bind_of_ok (run_string hs rest)]
  rfl

theorem run_memberName?_close (first : Bool) (rest : List Char) :
    (memberName? first).run ('\x7d' :: rest) = .ok (none, rest) := by
  rw [memberName?, run_bind_of_ok (run_take_cons rfl), if_pos rfl]
  rfl

/-! ### Members -/

variable {member : σ → String → Reader σ} {s s' s'' : σ}

theorem membersFrom_of_close {first : Bool} {cs rest : List Char}
    (h : (memberName? first).run cs = .ok (none, rest)) :
    membersFrom member first s cs = .ok (s, rest) := by
  rw [membersFrom]
  split
  · next he => rw [h] at he; cases he
  · next he => rw [h] at he; cases he; rfl
  · next he => rw [h] at he; cases he

theorem membersFrom_of_fault {first : Bool} {cs : List Char} {fault : Fault}
    (h : (memberName? first).run cs = .error fault) :
    membersFrom member first s cs = .error fault := by
  rw [membersFrom]
  split
  · next he => rw [h] at he; cases he; rfl
  · next he => rw [h] at he; cases he
  · next he => rw [h] at he; cases he

theorem membersFrom_of_name {first : Bool} {cs mid : List Char} {name : String}
    (h : (memberName? first).run cs = .ok (some name, mid)) :
    membersFrom member first s cs =
      match (member s name).run mid with
      | .error fault => .error fault
      | .ok (s, rest) => membersFrom member false s rest := by
  rw [membersFrom]
  split
  · next he => rw [h] at he; cases he
  · next he => rw [h] at he; cases he
  · next he =>
    rw [h] at he
    cases he
    split
    · next hm => rw [hm]
    · next hm => rw [hm]

/-- Blanks in front of the next member do not matter. -/
theorem membersFrom_append_of_isBlanks {g : List Char} (hg : IsBlanks g) (first : Bool) (s : σ)
    (cs : List Char) : membersFrom member first s (g ++ cs) = membersFrom member first s cs := by
  have hname := lenient_memberName? first hg cs
  cases hrun : (memberName? first).run cs with
  | error fault =>
    rw [hrun] at hname
    rw [membersFrom_of_fault hname, membersFrom_of_fault hrun]
  | ok found =>
    rw [hrun] at hname
    obtain ⟨name, mid⟩ := found
    cases name with
    | none => rw [membersFrom_of_close hname, membersFrom_of_close hrun]
    | some name => rw [membersFrom_of_name hname, membersFrom_of_name hrun]

/-- The texts are members with blanks around them, each of which takes the reader from one state to
the next. -/
inductive TakesSpaced (member : σ → String → Reader σ) : σ → List (List Char) → σ → Prop
  | nil {s : σ} : TakesSpaced member s [] s
  | cons {s s' s'' : σ} {g name ds value h ts} : IsBlanks g → IsLiteral name ds →
      Reads (member s name) value s' → IsBlanks h → TakesSpaced member s' ts s'' →
      TakesSpaced member s ((g ++ (ds ++ (value ++ h))) :: ts) s''

theorem commaSeparated_cons (t : List Char) (ts : List (List Char)) :
    commaSeparated (t :: ts) = t ++ ts.flatMap (',' :: ·) := by
  induction ts generalizing t with
  | nil => simp [commaSeparated]
  | cons u us ih =>
    have hu := ih u
    rw [commaSeparated] at hu ⊢
    rw [List.intersperse_cons_cons, List.flatten_cons, List.flatten_cons, hu]
    rfl

/-- What follows members starts with a comma, or it is what follows the last of them. -/
theorem endsNumber_flatMap_append (ts : List (List Char)) {rest : List Char}
    (hrest : EndsNumber rest) : EndsNumber (ts.flatMap (',' :: ·) ++ rest) := by
  cases ts with
  | nil => exact hrest
  | cons t ts => exact endsNumber_cons (by decide) _

/-- `membersFrom` gets through members that follow another one. -/
theorem membersFrom_flatMap_append {ts : List (List Char)} (h : TakesSpaced member s ts s')
    {rest : List Char} (hrest : EndsNumber rest) :
    membersFrom member false s (ts.flatMap (',' :: ·) ++ rest) =
      membersFrom member false s' rest := by
  induction h with
  | nil => rfl
  | @cons s s' s'' g name ds value k ts hg hname hvalue hk _ ih =>
    -- the value ends at a blank, at the comma of the next member, or where the members end
    have hends := endsNumber_append_of_isBlanks hk (endsNumber_flatMap_append ts hrest)
    have htext : ((g ++ (ds ++ (value ++ k))) :: ts).flatMap (',' :: ·) ++ rest
        = ',' :: (g ++ (ds ++ (value ++ (k ++ (ts.flatMap (',' :: ·) ++ rest))))) := by simp
    rw [htext, membersFrom_of_name (run_memberName?_next hg hname _), hvalue hends]
    exact (membersFrom_append_of_isBlanks hk false s' _).trans ih

/-- `membersFrom` gets through the first members of an object. -/
theorem membersFrom_commaSeparated_append {t : List Char} {ts : List (List Char)}
    (h : TakesSpaced member s (t :: ts) s') {rest : List Char} (hrest : EndsNumber rest) :
    membersFrom member true s (commaSeparated (t :: ts) ++ rest) =
      membersFrom member false s' rest := by
  cases h with
  | @cons _ s₁ _ g name ds value k _ hg hname hvalue hk hts =>
    have hends := endsNumber_append_of_isBlanks hk (endsNumber_flatMap_append ts hrest)
    have htext : commaSeparated ((g ++ (ds ++ (value ++ k))) :: ts) ++ rest
        = g ++ (ds ++ (value ++ (k ++ (ts.flatMap (',' :: ·) ++ rest)))) := by
      rw [commaSeparated_cons]
      simp
    rw [htext, membersFrom_append_of_isBlanks hg,
      membersFrom_of_name (run_memberName?_first hname _), hvalue hends]
    exact (membersFrom_append_of_isBlanks hk false s₁ _).trans
      (membersFrom_flatMap_append hts hrest)

/-- **`members` takes in the members of an object in order**, whatever blanks there are. -/
theorem reads_members {g : List Char} (hg : IsBlanks g) {ts : List (List Char)}
    (h : TakesSpaced member s ts s') :
    Reads (members member s) (g ++ (commaSeparated ts ++ ['\x7d'])) s' := by
  intro rest hrest
  show membersFrom member true s (g ++ (commaSeparated ts ++ ['\x7d']) ++ rest) = .ok (s', rest)
  rw [List.append_assoc, membersFrom_append_of_isBlanks hg, List.append_assoc,
    List.singleton_append]
  cases ts with
  | nil =>
    cases h
    exact membersFrom_of_close (run_memberName?_close true rest)
  | cons t ts =>
    rw [membersFrom_commaSeparated_append h (endsNumber_cons (by decide) rest)]
    exact membersFrom_of_close (run_memberName?_close false rest)

/-- A member that is refused behind others ends the object. -/
theorem membersFrom_of_refused {t : List Char} {ts : List (List Char)}
    (h : TakesSpaced member s (t :: ts) s') {name : String} {ds rest : List Char}
    (hname : IsLiteral name ds) {fault : Fault}
    (hvalue : (member s' name).run rest = .error fault) :
    membersFrom member true s (commaSeparated (t :: ts) ++ ',' :: (ds ++ rest)) = .error fault := by
  have hrun := run_memberName?_next isBlanks_nil hname rest
  rw [List.nil_append] at hrun
  rw [membersFrom_commaSeparated_append h (endsNumber_cons (by decide) _),
    membersFrom_of_name hrun, hvalue]

/-! ### Objects by their entries -/

/-- A member of an object: its name, and what its value may be written as. -/
abbrev Entry := String × (List Char → Prop)

/-- The member `e`, in whatever way its name is spelled and with blanks between the tokens. -/
def IsMember (e : Entry) (cs : List Char) : Prop :=
  ∃ g ds w h, IsBlanks g ∧ IsLiteral e.1 ds ∧ IsValued e.2 w ∧ IsBlanks h ∧
    cs = g ++ (ds ++ (w ++ h))

/-- A member without blanks. -/
theorem isMember_of_tight {e : Entry} {ds v : List Char} (hds : IsLiteral e.1 ds) (hv : e.2 v) :
    IsMember e (ds ++ ':' :: v) :=
  ⟨[], ds, ':' :: v, [], isBlanks_nil, hds, ⟨[], [], v, isBlanks_nil, isBlanks_nil, hv, rfl⟩,
    isBlanks_nil, by simp⟩

/-- An object with just these members, in this order. -/
def IsObject (entries : List Entry) (cs : List Char) : Prop :=
  ∃ g ts, IsBlanks g ∧ List.Forall₂ IsMember entries ts ∧
    cs = '\x7b' :: (g ++ (commaSeparated ts ++ ['\x7d']))

/-- Members whose names are not among `names`, those that count. -/
def Strange (names : List String) (value : List Char → Prop) (entries : List Entry) : Prop :=
  ∀ e ∈ entries, e.1 ∉ names ∧ e.2 = value

/-- An object with the `known` members and any number of others that hold a `value`, in any order.
-/
def IsExtended (names : List String) (value : List Char → Prop) (known : List Entry)
    (cs : List Char) : Prop :=
  ∃ others entries, Strange names value others ∧ entries.Perm (known ++ others) ∧
    IsObject entries cs

/-- When each member adds what its name stands for to the `state` of the names met, and none that
counts comes twice, the members take the reader to the `state` of all names. -/
theorem takesSpaced_of_forall {names : List String} {state : List String → σ}
    {entries : List Entry} {ts : List (List Char)} (met : List String)
    (hstep : ∀ e ∈ entries, ∀ met, (e.1 ∈ names → e.1 ∉ met) → ∀ w, IsValued e.2 w →
      Reads (member (state met) e.1) w (state (e.1 :: met)))
    (hmet : ∀ e ∈ entries, e.1 ∈ names → e.1 ∉ met)
    (hdistinct : entries.Pairwise fun e f => ¬ (e.1 = f.1 ∧ e.1 ∈ names))
    (hts : List.Forall₂ IsMember entries ts) :
    TakesSpaced member (state met) ts (state ((entries.map (·.1)).reverse ++ met)) := by
  induction hts generalizing met with
  | nil => exact .nil
  | @cons e t entries ts ht _ ih =>
    obtain ⟨g, ds, w, h, hg, hds, hw, hh, rfl⟩ := ht
    obtain ⟨hfirst, hrest⟩ := List.pairwise_cons.1 hdistinct
    have hread := hstep e List.mem_cons_self met (hmet e List.mem_cons_self) w hw
    refine .cons hg hds hread hh ?_
    rw [List.map_cons, List.reverse_cons, List.append_assoc, List.singleton_append]
    refine ih (e.1 :: met) (fun f hf => hstep f (List.mem_cons_of_mem _ hf)) ?_ hrest
    intro f hf hname hmem
    rcases List.mem_cons.1 hmem with heq | hmem
    · exact hfirst f hf ⟨heq.symm, heq ▸ hname⟩
    · exact hmet f (List.mem_cons_of_mem _ hf) hname hmem

section Extended

variable {names : List String} {value : List Char → Prop} {known others entries : List Entry}

/-- No name that counts comes twice, if it does not among the `known` members. -/
theorem Strange.pairwise (hothers : Strange names value others)
    (hperm : entries.Perm (known ++ others)) (hdistinct : (known.map (·.1)).Nodup) :
    entries.Pairwise fun e f => ¬ (e.1 = f.1 ∧ e.1 ∈ names) := by
  have hsymm : ∀ {e f : Entry}, ¬ (e.1 = f.1 ∧ e.1 ∈ names) → ¬ (f.1 = e.1 ∧ f.1 ∈ names) := by
    rintro e f hnot ⟨heq, hname⟩
    exact hnot ⟨heq.symm, heq ▸ hname⟩
  refine (hperm.symm.pairwise_iff hsymm).1 (List.pairwise_append.2 ⟨?_, ?_, ?_⟩)
  · refine (List.pairwise_map.1 hdistinct).imp ?_
    rintro e f hne ⟨heq, -⟩
    exact hne heq
  · refine List.pairwise_of_forall_mem_list ?_
    rintro e he f - ⟨-, hname⟩
    exact (hothers e he).1 hname
  · rintro e he f hf ⟨heq, hname⟩
    exact (hothers f hf).1 (heq ▸ hname)

/-- Of the names that count, those of the `known` members are there. -/
theorem Strange.mem_names_iff (hothers : Strange names value others)
    (hperm : entries.Perm (known ++ others)) {name : String} (hname : name ∈ names) :
    name ∈ entries.map (·.1) ↔ name ∈ known.map (·.1) := by
  rw [(hperm.map _).mem_iff, List.map_append, List.mem_append, or_iff_left]
  intro hother
  obtain ⟨e, he, rfl⟩ := List.mem_map.1 hother
  exact (hothers e he).1 hname

/-- What is read of an object depends on the names alone that were met so far: each member that is
known adds what its name stands for (`reads`), and the others add nothing (`skips`). -/
structure Unordered (member : σ → String → Reader σ) (names : List String)
    (value : List Char → Prop) (known : List Entry) (state : List String → σ) : Prop where
  reads : ∀ e ∈ known, ∀ met, e.1 ∉ met → ∀ w, IsValued e.2 w →
    Reads (member (state met) e.1) w (state (e.1 :: met))
  skips : ∀ name, name ∉ names → ∀ met w, IsValued value w →
    Reads (member (state met) name) w (state (name :: met))
  counts : known.map (·.1) ⊆ names
  nodup : (known.map (·.1)).Nodup

/-- **The order of the members does not matter, and nor do members nobody knows.** -/
theorem Unordered.exists_reads {state : List String → σ}
    (h : Unordered member names value known state)
    (hstate : ∀ met, (∀ name ∈ names, name ∈ met ↔ name ∈ known.map (·.1)) → state met = s')
    {cs : List Char} (hcs : IsExtended names value known cs) :
    ∃ ds, cs = '\x7b' :: ds ∧ Reads (members member (state [])) ds s' := by
  obtain ⟨others, entries, hothers, hperm, g, ts, hg, hts, rfl⟩ := hcs
  have hstep : ∀ e ∈ entries, ∀ met, (e.1 ∈ names → e.1 ∉ met) → ∀ w, IsValued e.2 w →
      Reads (member (state met) e.1) w (state (e.1 :: met)) := by
    intro e he met hmet w hw
    rcases List.mem_append.1 (hperm.mem_iff.1 he) with he | he
    · exact h.reads e he met (hmet (h.counts (List.mem_map_of_mem he))) w hw
    · obtain ⟨hname, hvalue⟩ := hothers e he
      exact h.skips e.1 hname met w (hvalue ▸ hw)
  have htakes := takesSpaced_of_forall [] hstep (fun _ _ _ => nofun)
    (hothers.pairwise hperm h.nodup) hts
  have hend : state ((entries.map (·.1)).reverse ++ []) = s' := by
    refine hstate _ fun name hname => ?_
    rw [List.append_nil, List.mem_reverse]
    exact hothers.mem_names_iff hperm hname
  exact ⟨_, rfl, reads_members hg (hend ▸ htakes)⟩

end Extended

/-! ### Printed objects with some blanks written by number -/

theorem respaced_flatMap {ts : List (List Char)} {es : List Char}
    (h : Respaced (ts.flatMap (',' :: ·)) es) :
    ∃ us, es = us.flatMap (',' :: ·) ∧ List.Forall₂ Respaced ts us := by
  induction ts generalizing es with
  | nil =>
    cases h
    exact ⟨[], rfl, .nil⟩
  | cons t ts ih =>
    rw [List.flatMap_cons, List.cons_append] at h
    obtain ⟨es, rfl, hes⟩ := h.of_cons (by decide)
    obtain ⟨u, es, rfl, hu, hts⟩ := hes.of_append
    obtain ⟨us, rfl, hus⟩ := ih hts
    exact ⟨u :: us, rfl, .cons hu hus⟩

theorem respaced_object {ts : List (List Char)} {es : List Char} (h : Respaced (object ts) es) :
    ∃ us, es = object us ∧ List.Forall₂ Respaced ts us := by
  obtain ⟨es, rfl, hes⟩ := h.of_cons (by decide)
  obtain ⟨es, fs, rfl, hes, hfs⟩ := hes.of_append
  rw [hfs.eq_of_notMem (by decide)]
  cases ts with
  | nil =>
    cases hes
    exact ⟨[], rfl, .nil⟩
  | cons t ts =>
    rw [commaSeparated_cons] at hes
    obtain ⟨u, es, rfl, hu, hes⟩ := hes.of_append
    obtain ⟨us, rfl, hus⟩ := respaced_flatMap hes
    refine ⟨u :: us, ?_, .cons hu hus⟩
    rw [object, commaSeparated_cons]

theorem respaced_memberText {name : String} {value es : List Char}
    (h : Respaced (memberText name value) es) :
    ∃ ds v, es = ds ++ ':' :: v ∧ IsLiteral name ds ∧ Respaced value v := by
  obtain ⟨ds, es, rfl, hds, h⟩ := h.of_append
  obtain ⟨v, rfl, hv⟩ := h.of_cons (by decide)
  exact ⟨ds, v, rfl, isLiteral_of_respaced hds, hv⟩

/-- However its blanks are respaced, a printed member is the member. -/
theorem isMember_of_respaced {e : Entry} {value t : List Char}
    (hvalue : ∀ v, Respaced value v → e.2 v) (h : Respaced (memberText e.1 value) t) :
    IsMember e t := by
  obtain ⟨ds, v, rfl, hname, hv⟩ := respaced_memberText h
  exact isMember_of_tight hname (hvalue v hv)

/-- However its blanks are respaced, a printed object is an object with the printed members. -/
theorem isObject_of_respaced {entries : List Entry} {ts : List (List Char)} {cs : List Char}
    (h : List.Forall₂ (fun e t => ∀ u, Respaced t u → IsMember e u) entries ts)
    (hcs : Respaced (object ts) cs) : IsObject entries cs := by
  obtain ⟨us, rfl, hus⟩ := respaced_object hcs
  refine ⟨[], us, isBlanks_nil, ?_, rfl⟩
  clear hcs
  induction h generalizing us with
  | nil =>
    cases hus
    exact .nil
  | cons he _ ih =>
    cases hus with
    | cons hu hus => exact .cons (he _ hu) (ih _ hus)

/-- An object with the `known` members alone, in their own order, is an extended one. -/
theorem IsObject.isExtended {names : List String} {value : List Char → Prop}
    {entries : List Entry} {cs : List Char} (h : IsObject entries cs) :
    IsExtended names value entries cs :=
  ⟨[], entries, nofun, by rw [List.append_nil], h⟩

/-! ### Records -/

theorem reads_record {expected : String} {object elements : Reader α} {cs : List Char}
    {a : α} (h : Reads object cs a) : Reads (record expected object elements) ('\x7b' :: cs) a := by
  intro rest hrest
  rw [record, List.cons_append, run_bind_of_ok (run_take_cons rfl), if_pos rfl]
  exact h hrest

theorem reads_textObject {insert : σ → String → String → σ} {empty : σ} {cs : List Char}
    {s : σ} (h : Reads (members (fun s name => do
      colon
      return insert s name (← text)) empty) cs s) :
    Reads (textObject insert empty) ('\x7b' :: cs) s := by
  intro rest hrest
  rw [textObject, List.cons_append, run_bind_of_ok (run_take_cons rfl), if_pos rfl]
  exact h hrest

/-! ### Whole texts -/

/-- Only blanks may be left of a whole text. -/
theorem parse_of_run {r : Reader α} {cs rest : List Char} {a : α} (h : r.run cs = .ok (a, rest))
    (hrest : IsBlanks rest) : r.parse (String.ofList cs) = .ok a := by
  rw [parse, String.toList_ofList, run_bind_of_ok h, run_bind_of_ok (run_atEnd_of_isBlanks hrest)]
  rfl

theorem parse_of_error {r : Reader α} {cs : List Char} {fault : Fault}
    (h : r.run cs = .error fault) : r.parse (String.ofList cs) = .error fault := by
  rw [parse, String.toList_ofList, run_bind_of_error h]

end RadioLink.Json

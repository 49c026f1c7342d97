import RadioLink.Proofs.Air.Ends

/-!
# What flows through a link

Each end of a link writes into a `Pipe` that the other end reads from, `pipe?`. `Pipe.Changes` says
once and for all what an act can make of that pipe, so bytes come out in the order in which they
went in: only a `read` at the other end takes any out, at the front, and what anybody else does
leaves those that are there at the front (`prefix_foldl`). Nothing goes into a pipe any more once it
is closed (`isClosed_foldl`).
-/

namespace RadioLink

/-- The other end of the same link. -/
def LinkEnd.other (e : LinkEnd) : LinkEnd := ⟨e.link, e.side.other⟩

@[simp] theorem Side.other_other (s : Side) : s.other.other = s := by
  cases s <;> rfl

@[simp] theorem LinkEnd.other_other (e : LinkEnd) : e.other.other = e := by
  simp [other]

theorem LinkEnd.eq_of_side {e e' : LinkEnd} (hlink : e.link = e'.link) (hside : e.side = e'.side) :
    e = e' := by
  cases e
  cases e'
  congr

/-! ### Reading from a pipe -/

namespace Pipe

/-- The results of `p.read size`, by what is in the pipe. -/
inductive Reads (p : Pipe) (size : Nat) : ReadResult × Pipe → Prop where
  | data {bytes : Bytes} {p' : Pipe} (content : p.content = bytes ++ p'.content)
      (some : bytes ≠ []) (most : bytes.length ≤ size) (closed : p'.closed = p.closed) :
      Reads p size (.data bytes, p')
  | ended (empty : p.content = []) (closed : p.closed = true) : Reads p size (.ended, p)
  | disrupted {f : StreamFault} (empty : p.content = []) (fault : p.fault = some f) :
      Reads p size (.fault f, p)
  | pending (empty : p.content = []) (opened : p.closed = false) : Reads p size (.pending, p)

theorem reads_read (p : Pipe) {size : Nat} (h : size ≠ 0) : p.Reads size (p.read size) := by
  unfold read
  rw [if_neg h]
  split
  · next hsome =>
    refine .data (List.take_append_drop size p.content).symm (fun hnil => ?_)
      (List.length_take_le ..) rfl
    rcases List.take_eq_nil_iff.1 hnil with hsize | hempty
    · exact h hsize
    · exact hsome hempty
  · next hempty =>
    have hempty : p.content = [] := Classical.not_not.1 hempty
    split
    · next hfault => exact .disrupted hempty hfault
    · split
      · next hclosed => exact .ended hempty hclosed
      · next hopened => exact .pending hempty (by simpa using hopened)

theorem of_read_data {p : Pipe} {size : Nat} {bytes : Bytes} (h : size ≠ 0)
    (hr : (p.read size).1 = .data bytes) :
    p.content = bytes ++ (p.read size).2.content ∧ bytes ≠ [] ∧ bytes.length ≤ size := by
  have hreads := p.reads_read h
  generalize p.read size = q at hr hreads
  cases hreads with
  | data content some most =>
    cases hr
    exact ⟨content, some, most⟩
  | ended | disrupted | pending => cases hr

theorem of_read_ended {p : Pipe} {size : Nat} (h : size ≠ 0) (hr : (p.read size).1 = .ended) :
    p.content = [] ∧ p.closed = true := by
  have hreads := p.reads_read h
  generalize p.read size = q at hr hreads
  cases hreads with
  | ended empty closed => exact ⟨empty, closed⟩
  | data | disrupted | pending => cases hr

theorem of_read_fault {p : Pipe} {size : Nat} {f : StreamFault} (h : size ≠ 0)
    (hr : (p.read size).1 = .fault f) : p.content = [] ∧ p.fault = some f := by
  have hreads := p.reads_read h
  generalize p.read size = q at hr hreads
  cases hreads with
  | disrupted empty fault =>
    cases hr
    exact ⟨empty, fault⟩
  | data | ended | pending => cases hr

theorem of_read_pending {p : Pipe} {size : Nat} (h : size ≠ 0) (hr : (p.read size).1 = .pending) :
    p.content = [] := by
  have hreads := p.reads_read h
  generalize p.read size = q at hr hreads
  cases hreads with
  | pending empty => exact empty
  | data | ended | disrupted => cases hr

theorem read_ne_abort (p : Pipe) {size : Nat} (h : size ≠ 0) : (p.read size).1 ≠ .abort := by
  have hreads := p.reads_read h
  generalize p.read size = q at hreads
  cases hreads <;> exact nofun

/-! ### What acts make of a pipe -/

/-- What an act can make of the pipe that `e` writes into. -/
inductive Changes (p : Pipe) (e : LinkEnd) : Air.Act → Pipe → Prop where
  | same {x : Air.Act} : Changes p e x p
  | writes (bytes : Bytes) : Changes p e (.write e bytes) (p.write bytes).2
  | reads (size : Nat) : Changes p e (.read e.other size) (p.read size).2
  | closes {x : Air.Act} : Changes p e x p.close
  | disrupts (fault : StreamFault) : Changes p e (.disrupt e fault) (p.disrupt fault)

variable {p p' : Pipe} {e : LinkEnd} {x : Air.Act}

/-- An act other than a `read` at the other end leaves what is there at the front. -/
theorem Changes.front (h : p.Changes e x p') (hx : ∀ size, x ≠ .read e.other size) :
    p.content <+: p'.content := by
  cases h with
  | same | closes | disrupts => exact List.prefix_refl _
  | writes bytes =>
    rw [content_write]
    exact List.prefix_append ..
  | reads size => exact absurd rfl (hx size)

/-- A closed pipe stays closed, and takes nothing in. -/
theorem Changes.closed (h : p.Changes e x p') (hclosed : p.closed = true) :
    p'.closed = true ∧ p'.content.length ≤ p.content.length := by
  cases h with
  | same => exact ⟨hclosed, Nat.le_refl _⟩
  | closes => exact ⟨rfl, Nat.le_refl _⟩
  | disrupts => exact ⟨hclosed, Nat.le_refl _⟩
  | writes bytes =>
    unfold write
    dsimp only
    split
    · exact ⟨hclosed, Nat.le_refl _⟩
    · exact ⟨hclosed, Nat.le_refl _⟩
  | reads size =>
    refine ⟨?_, length_content_read p size⟩
    unfold read
    split
    · exact hclosed
    · split
      · exact hclosed
      · split
        · exact hclosed
        · exact hclosed

end Pipe

/-! ### Pipes at the ends of links -/

namespace Link

theorem outgoing_write (l : Link) (s s' : Side) (bytes : Bytes) :
    ((l.write s bytes).2.half s').outgoing
      = if s' = s then ((l.half s).outgoing.write bytes).2 else (l.half s').outgoing := by
  unfold write
  dsimp only
  split <;> next heq => rw [half_setHalf, heq]; split <;> rfl

theorem outgoing_read (l : Link) (s s' : Side) (size : Nat) :
    ((l.read s size).2.half s').outgoing
      = if s' = s.other then ((l.half s.other).outgoing.read size).2 else (l.half s').outgoing := by
  have hpeer : ((l.setHalf { l.half s.other with
      outgoing := ((l.half s.other).outgoing.read size).2 } s.other).half s').outgoing
      = if s' = s.other then ((l.half s.other).outgoing.read size).2
        else (l.half s').outgoing := by
    rw [half_setHalf]
    split <;> rfl
  unfold read
  dsimp only
  split
  · rw [half_setHalf, ← hpeer]
    split
    · next hs => rw [hs]
    · rfl
  · exact hpeer

theorem fst_read (l : Link) (s : Side) (size : Nat) :
    (l.read s size).1 = ((l.half s.other).outgoing.read size).1 := by
  unfold read
  dsimp only
  split <;> rfl

end Link

namespace Air

variable {air : Air} {e : LinkEnd} {p : Pipe}

/-- The pipe that the end `e` writes into. -/
def pipe? (air : Air) (e : LinkEnd) : Option Pipe :=
  air.links[e.link]?.map fun l => (l.half e.side).outgoing

theorem outgoing_of_pipe? (h : air.pipe? e = some p) : air.outgoing e = p.content := by
  obtain ⟨l, hl, rfl⟩ := Option.map_eq_some_iff.1 h
  rw [outgoing, hl]
  rfl

theorem outgoing_of_size (h : air.links.size ≤ e.link) : air.outgoing e = [] := by
  rw [outgoing, Array.getElem?_eq_none h]
  rfl

theorem pipe?_updateLink_self {f : Link → Link} {l : Link} (hl : air.links[e.link]? = some l) :
    (air.updateLink e.link f).pipe? e = some ((f l).half e.side).outgoing := by
  rw [pipe?, updateLink, Array.getElem?_modify, if_pos rfl, hl]
  rfl

theorem pipe?_updateLink {i : Nat} {f : Link → Link} (h : air.pipe? e = some p) :
    (air.updateLink i f).pipe? e = some p ∨ ∃ l, i = e.link ∧ air.links[i]? = some l ∧
      (l.half e.side).outgoing = p ∧
      (air.updateLink i f).pipe? e = some ((f l).half e.side).outgoing := by
  obtain ⟨l, hl, rfl⟩ := Option.map_eq_some_iff.1 h
  by_cases hi : i = e.link
  · subst hi
    exact .inr ⟨l, rfl, hl, rfl, pipe?_updateLink_self hl⟩
  · left
    rw [pipe?, updateLink, Array.getElem?_modify, if_neg hi, hl]
    rfl

/-- `updateLink` changes no pipe but those of its own link. -/
theorem changes_updateLink {x : Act} {i : Nat} {f : Link → Link} (h : air.pipe? e = some p)
    (hf : ∀ l, air.links[i]? = some l → i = e.link →
      (l.half e.side).outgoing.Changes e x ((f l).half e.side).outgoing) :
    ∃ p', (air.updateLink i f).pipe? e = some p' ∧ p.Changes e x p' := by
  obtain hkept | ⟨l, hi, hl, rfl, hnew⟩ := pipe?_updateLink (i := i) (f := f) h
  · exact ⟨p, hkept, .same⟩
  · exact ⟨_, hnew, hf l hl hi⟩

/-- `closeListener` keeps every pipe, also of those whom it refuses. -/
theorem pipe?_closeListener (air : Air) (id : Nat) (e : LinkEnd) :
    (air.closeListener id).pipe? e = air.pipe? e := by
  unfold closeListener
  split
  · rfl
  · next l _ =>
    show ((l.queue.foldl (fun links i => links.modify i refuse) air.links)[e.link]?).map _ = _
    rw [getElem?_foldl_refuse, pipe?]
    split
    · rw [Option.map_map]
      refine Option.map_congr fun link _ => ?_
      obtain ⟨caller, callee, phase⟩ := link
      cases phase <;> rfl
    · rfl

theorem changes_write (stream : LinkEnd) (bytes : Bytes) (h : air.pipe? e = some p) :
    ∃ p', (air.write stream bytes).2.pipe? e = some p' ∧
      p.Changes e (.write stream bytes) p' := by
  unfold write
  split
  · exact ⟨p, h, .same⟩
  · next l hl =>
    refine changes_updateLink h fun l' hl' hi => ?_
    cases hl.symm.trans hl'
    rw [Link.outgoing_write]
    split
    · next hs =>
      obtain rfl := LinkEnd.eq_of_side hi.symm hs
      exact .writes bytes
    · exact .same

theorem changes_read (stream : LinkEnd) (size : Nat) (h : air.pipe? e = some p) :
    ∃ p', (air.read stream size).2.pipe? e = some p' ∧ p.Changes e (.read stream size) p' := by
  unfold read
  split
  · exact ⟨p, h, .same⟩
  · next l hl =>
    refine changes_updateLink h fun l' hl' hi => ?_
    cases hl.symm.trans hl'
    rw [Link.outgoing_read]
    split
    · next hs =>
      obtain rfl : e = stream.other := LinkEnd.eq_of_side hi.symm hs
      rw [hs]
      have hreads := Pipe.Changes.reads (p := (l.half stream.side.other).outgoing)
        (e := stream.other) size
      rwa [LinkEnd.other_other] at hreads
    · exact .same

theorem changes_disrupt (stream : LinkEnd) (fault : StreamFault) (h : air.pipe? e = some p) :
    ∃ p', (air.disrupt stream fault).pipe? e = some p' ∧
      p.Changes e (.disrupt stream fault) p' := by
  refine changes_updateLink h fun l _ hi => ?_
  show Pipe.Changes _ e (.disrupt stream fault) ((l.setHalf _ stream.side).half e.side).outgoing
  rw [Link.half_setHalf]
  split
  · next hs =>
    obtain rfl := LinkEnd.eq_of_side hi.symm hs
    exact .disrupts fault
  · exact .same

/-- What any act makes of `pipe? e` is one of its `Changes`. -/
theorem changes_perform (x : Act) (h : air.pipe? e = some p) :
    ∃ p', (air.perform x).pipe? e = some p' ∧ p.Changes e x p' := by
  have hsame {air' : Air} (hair : air'.pipe? e = air.pipe? e) :
      ∃ p', air'.pipe? e = some p' ∧ p.Changes e x p' := ⟨p, hair.trans h, .same⟩
  cases x with
  | listen owner endpoint =>
    unfold perform listen
    dsimp only
    split <;> exact hsame rfl
  | close id => exact hsame (pipe?_closeListener air id e)
  | connect caller callee endpoint =>
    unfold perform connect
    dsimp only
    split
    · exact hsame rfl
    · refine hsame ?_
      obtain ⟨l, hl, -⟩ := Option.map_eq_some_iff.1 h
      -- the end is one of an older link than the new one
      have hlt := (Array.getElem?_eq_some_iff.1 hl).1
      rw [pipe?, Array.getElem?_push, if_neg (Nat.ne_of_lt hlt), pipe?]
  | abandon link =>
    refine changes_updateLink h fun l _ _ => ?_
    split
    · cases e.side <;> exact .same
    · cases e.side <;> exact .closes
    · exact .same
  | accept id =>
    unfold perform accept
    dsimp only
    split
    · exact hsame rfl
    · split
      · split <;> exact hsame rfl
      · exact changes_updateLink h fun l _ _ => by cases e.side <;> exact .same
  | write stream bytes => exact changes_write stream bytes h
  | read stream size => exact changes_read stream size h
  | shutdown stream =>
    refine changes_updateLink h fun l _ _ => ?_
    cases stream.side <;> cases e.side <;> first | exact .same | exact .closes
  | drop stream => exact changes_updateLink h fun l _ _ => by cases e.side <;> exact .closes
  | disrupt stream fault => exact changes_disrupt stream fault h
  | ask _ | switchOn _ | switchOff _ | bond _ _ | unbond _ _ | failNext _ _ | cancelDiscovery _ =>
    exact hsame rfl

/-- As long as nobody reads at `e.other`, what is in the pipe of `e` stays there, at the front. -/
theorem prefix_foldl {acts : List Act} (h : air.pipe? e = some p)
    (hacts : ∀ size, .read e.other size ∉ acts) :
    ∃ p', (acts.foldl perform air).pipe? e = some p' ∧ p.content <+: p'.content := by
  induction acts generalizing air p with
  | nil => exact ⟨p, h, List.prefix_refl _⟩
  | cons x acts ih =>
    obtain ⟨q, hq, hchanges⟩ := changes_perform x h
    obtain ⟨p', hp', hprefix⟩ := ih hq fun size hmem => hacts size (List.mem_cons_of_mem _ hmem)
    refine ⟨p', hp', (hchanges.front fun size heq => hacts size ?_).trans hprefix⟩
    rw [heq]
    exact List.mem_cons_self

/-- A `read` at `e.other` is a `Pipe.read` of the pipe of `e`. -/
theorem read_of_pipe? (h : air.pipe? e = some p) (size : Nat) :
    (air.read e.other size).1 = (p.read size).1 ∧
      (air.perform (.read e.other size)).pipe? e = some (p.read size).2 := by
  obtain ⟨l, hl, rfl⟩ := Option.map_eq_some_iff.1 h
  have hside : e.other.side.other = e.side := Side.other_other _
  have hread : air.read e.other size = ((l.read e.other.side size).1,
      air.updateLink e.link fun _ => (l.read e.other.side size).2) := by
    unfold read
    rw [show air.links[e.other.link]? = some l from hl]
    rfl
  refine ⟨by rw [hread, Link.fst_read, hside], ?_⟩
  rw [show air.perform (.read e.other size) = (air.read e.other size).2 from rfl, hread,
    pipe?_updateLink_self hl, Link.outgoing_read, hside, if_pos rfl]

/-- Whether the pipe of `e` is closed: nothing more can come to the other end than what is there. -/
def isClosed (air : Air) (e : LinkEnd) : Bool := (air.pipe? e).any (·.closed)

theorem isClosed_iff : air.isClosed e = true ↔ ∃ p, air.pipe? e = some p ∧ p.closed = true :=
  Option.any_eq_true ..

/-- Once `isClosed e`, it stays so, and `outgoing e` does not grow. -/
theorem isClosed_foldl (acts : List Act) (h : air.isClosed e = true) :
    (acts.foldl perform air).isClosed e = true ∧
      ((acts.foldl perform air).outgoing e).length ≤ (air.outgoing e).length := by
  induction acts generalizing air with
  | nil => exact ⟨h, Nat.le_refl _⟩
  | cons x acts ih =>
    obtain ⟨p, hp, hclosed⟩ := isClosed_iff.1 h
    obtain ⟨q, hq, hchanges⟩ := changes_perform x hp
    obtain ⟨hqclosed, hqle⟩ := hchanges.closed hclosed
    obtain ⟨hclosed', hle⟩ := ih (isClosed_iff.2 ⟨q, hq, hqclosed⟩)
    rw [outgoing_of_pipe? hq] at hle
    rw [outgoing_of_pipe? hp]
    exact ⟨hclosed', Nat.le_trans hle hqle⟩

/-- The fault that the other end of `e` meets behind what is there for it. -/
def fault? (air : Air) (e : LinkEnd) : Option StreamFault := (air.pipe? e).bind (·.fault)

theorem fault?_of_pipe? {f : StreamFault} (h : air.pipe? e = some p) (hfault : p.fault = some f) :
    air.fault? e = some f := by
  rw [fault?, h]
  exact hfault

theorem pipe?_connect {caller callee : Address} {endpoint : Endpoint} {link : Nat}
    (h : (air.connect caller callee endpoint).1 = .ok link) (side : Side) :
    (air.perform (.connect caller callee endpoint)).pipe? ⟨link, side⟩ = some {} := by
  obtain rfl := eq_size_of_connect h
  unfold connect at h
  unfold perform connect
  dsimp only at h ⊢
  split at h
  · cases h
  · rw [pipe?, Array.getElem?_push, if_pos rfl]
    cases side <;> rfl

end Air
end RadioLink

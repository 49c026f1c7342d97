import RadioLink.Proofs.Air.Acts

/-!
# Whose an end of a link is

An end of a link is `Given` to somebody: that of the caller when the link comes about, that of the
callee when it is accepted. From then on it may pass from one owner to another, but never has two
(`Air.Divided`). Only a `write` at an end brings anything across there (`length_outgoing_perform`),
so what an end carries is what its owners have written.
-/

namespace RadioLink

theorem Pipe.length_content_read (p : Pipe) (size : Nat) :
    (p.read size).2.content.length ≤ p.content.length := by
  unfold read
  split
  · exact Nat.le_refl _
  · split
    · simp
    · split
      · exact Nat.le_refl _
      · split <;> exact Nat.le_refl _

theorem Link.length_content_read (l : Link) (side side' : Side) (size : Nat) :
    ((l.read side size).2.half side').outgoing.content.length
      ≤ (l.half side').outgoing.content.length := by
  have hpeer (side' : Side) :
      ((l.setHalf { l.half side.other with outgoing := ((l.half side.other).outgoing.read size).2 }
        side.other).half side').outgoing.content.length
        ≤ (l.half side').outgoing.content.length := by
    rw [half_setHalf]
    split
    · next heq =>
      rw [heq]
      exact Pipe.length_content_read ..
    · exact Nat.le_refl _
  unfold read
  dsimp only
  split
  · -- an end that has read to the end is marked, which leaves its own pipe
    rw [half_setHalf]
    split
    · next heq =>
      rw [heq]
      exact hpeer side
    · exact hpeer side'
  · exact hpeer side'

namespace Air

variable {air air' : Air} {e : LinkEnd} {id : Nat}

/-! ### Who can bring something across -/

theorem length_outgoing_updateLink {i : Nat} {f : Link → Link}
    (hf : ∀ l, air.links[i]? = some l → ∀ side,
      ((f l).half side).outgoing.content.length ≤ (l.half side).outgoing.content.length) :
    ((air.updateLink i f).outgoing e).length ≤ (air.outgoing e).length := by
  simp only [outgoing, updateLink, Array.getElem?_modify]
  split
  · next hi =>
    cases hl : air.links[e.link]? with
    | none => exact Nat.le_refl _
    | some l => exact hf l (hi ▸ hl) e.side
  · exact Nat.le_refl _

/-- Unless the act is a `write` at `e`, `outgoing e` does not grow. -/
theorem length_outgoing_perform {x : Act} (hx : ∀ bytes, x ≠ .write e bytes) :
    ((air.perform x).outgoing e).length ≤ (air.outgoing e).length := by
  have hsame {air' : Air} (h : air'.outgoing e = air.outgoing e) :
      (air'.outgoing e).length ≤ (air.outgoing e).length := Nat.le_of_eq (congrArg _ h)
  cases x with
  | listen owner endpoint =>
    unfold perform listen
    dsimp only
    split <;> exact Nat.le_refl _
  | close id =>
    unfold perform closeListener
    dsimp only
    split
    · exact Nat.le_refl _
    · next l _ =>
      -- the links that waited in the queue are refused, which leaves their pipes
      refine hsame ?_
      show ((l.queue.foldl (fun links i => links.modify i refuse)
        air.links)[e.link]?.map _).getD [] = _
      rw [getElem?_foldl_refuse, outgoing]
      split
      · rw [Option.map_map]
        refine congrArg (Option.getD · []) (Option.map_congr fun link _ => ?_)
        obtain ⟨caller, callee, phase⟩ := link
        cases phase <;> rfl
      · rfl
  | connect caller callee endpoint => exact hsame (outgoing_connect ..)
  | abandon link => exact hsame (outgoing_abandon link)
  | accept id =>
    unfold perform accept
    dsimp only
    split
    · exact Nat.le_refl _
    · split
      · split <;> exact Nat.le_refl _
      · exact length_outgoing_updateLink fun _ _ side => by cases side <;> exact Nat.le_refl _
  | write stream bytes =>
    refine hsame ?_
    rw [perform, outgoing_write, if_neg fun heq : e = stream => hx bytes (heq ▸ rfl),
      List.append_nil]
  | read stream size =>
    unfold perform read
    dsimp only
    split
    · exact Nat.le_refl _
    · next l hl =>
      refine length_outgoing_updateLink fun l' hl' side => ?_
      cases hl.symm.trans hl'
      exact l.length_content_read stream.side side size
  | shutdown stream => exact hsame (outgoing_shutdown stream)
  | drop stream => exact hsame (outgoing_drop stream)
  | disrupt stream fault => exact hsame (outgoing_disrupt stream fault)
  | ask _ | switchOn _ | switchOff _ | bond _ _ | unbond _ _ | failNext _ _ | cancelDiscovery _ =>
    exact Nat.le_refl _

theorem length_outgoing_foldl {acts : List Act} (h : ∀ x ∈ acts, ∀ bytes, x ≠ .write e bytes) :
    ((acts.foldl perform air).outgoing e).length ≤ (air.outgoing e).length := by
  induction acts generalizing air with
  | nil => exact Nat.le_refl _
  | cons x acts ih =>
    exact Nat.le_trans (ih fun y hy => h y (List.mem_cons_of_mem x hy))
      (length_outgoing_perform (h x List.mem_cons_self))

/-- A `write` at a link that does not exist changes nothing. -/
theorem outgoing_write_of_size (h : air.links.size ≤ e.link) (bytes : Bytes) :
    (air.write e bytes).2 = air := by
  unfold write
  rw [Array.getElem?_eq_none h]

theorem size_le_perform (air : Air) (x : Act) : air.links.size ≤ (air.perform x).links.size := by
  have he := air.effect x
  generalize air.note x = entry at he
  cases he with
  | keeps h | answers h | leaves h => exact Nat.le_of_eq h.size.symm
  | joins _ _ _ _ _ _ _ _ size => exact size ▸ Nat.le_succ _
  | opens _ _ _ _ _ size | givesUp _ _ _ _ _ _ size | accepts _ _ _ _ _ _ _ _ _ _ _ size
  | clears _ _ _ _ _ _ size | closes _ _ _ _ _ _ size => exact Nat.le_of_eq size.symm

theorem size_le_foldl (air : Air) (acts : List Act) :
    air.links.size ≤ (acts.foldl perform air).links.size := by
  induction acts generalizing air with
  | nil => exact Nat.le_refl _
  | cons x acts ih => exact Nat.le_trans (air.size_le_perform x) (ih _)

/-- From `air` to `air'` nobody has connected, nor written anything. -/
structure Idle (air air' : Air) : Prop where
  attempts : ∀ a, (air'.radio a).attempts = (air.radio a).attempts
  links : air'.links.size = air.links.size
  outgoing : ∀ e, air'.outgoing e = air.outgoing e

namespace Idle

theorem refl : air.Idle air := ⟨fun _ => rfl, rfl, fun _ => rfl⟩

theorem drop (h : air.Idle air') (stream : LinkEnd) : air.Idle (air'.drop stream) where
  attempts := h.attempts
  links := Array.size_modify.trans h.links
  outgoing e := (outgoing_drop stream).trans (h.outgoing e)

theorem cancelDiscovery (h : air.Idle air') (a : Address) : air.Idle (air'.cancelDiscovery a) where
  attempts b := by
    rw [Air.cancelDiscovery, radio_updateRadio, ← h.attempts b]
    split
    · next heq => rw [heq]
    · rfl
  links := h.links
  outgoing := h.outgoing

end Idle

/-! ### Ends that have been given to somebody -/

/-- The end `e` has been given to somebody: a caller's with its link, a callee's once the link does
not wait any more. -/
def Given (air : Air) (e : LinkEnd) : Prop :=
  ∃ p, air.phase? e.link = some p ∧ (e.side = .callee → p ≠ .waiting)

theorem Given.lt_size (h : air.Given e) : e.link < air.links.size := by
  obtain ⟨p, hp, -⟩ := h
  exact lt_size_of_phase hp

/-- What has been `Given` stays so, whatever is done. -/
theorem Given.perform (h : air.Given e) (hair : air.Orderly) (x : Act) :
    (air.perform x).Given e := by
  obtain ⟨p, hp, hside⟩ := h
  have hturn := (air.effect x).turn hair e.link
  generalize air.note x = entry at hturn
  cases hturn with
  | stays same => exact ⟨p, same.trans hp, hside⟩
  | comes _ _ _ before => cases before.symm.trans hp
  | isGivenUp _ after => exact ⟨_, after, fun _ => nofun⟩
  | isAccepted _ _ _ _ after => exact ⟨_, after, fun _ => nofun⟩
  | isRefused _ _ _ after => exact ⟨_, after, fun _ => nofun⟩

theorem Given.foldl (h : air.Given e) (hair : air.Orderly) (acts : List Act) :
    (acts.foldl Air.perform air).Given e := by
  induction acts generalizing air with
  | nil => exact h
  | cons x acts ih => exact ih (h.perform hair x) (hair.perform x)

/-- `connect` gives a link with the next number. -/
theorem eq_size_of_connect {caller callee : Address} {endpoint : Endpoint} {link : Nat}
    (h : (air.connect caller callee endpoint).1 = .ok link) : link = air.links.size := by
  unfold connect at h
  dsimp only at h
  split at h
  · cases h
  · exact (Except.ok.inj h).symm

/-- `connect` makes the caller's end `Given`, which it was not before. -/
theorem given_connect {caller callee : Address} {endpoint : Endpoint} {link : Nat}
    (h : (air.connect caller callee endpoint).1 = .ok link) :
    ¬ air.Given ⟨link, .caller⟩ ∧ (air.connect caller callee endpoint).2.Given ⟨link, .caller⟩ := by
  have he := air.effect_connect caller callee endpoint
  unfold note at he
  unfold connect at h
  dsimp only at h he
  split at h
  · cases h
  · next hreach =>
    rw [hreach] at he
    cases h
    cases he with
    | joins _ _ _ phase =>
      exact ⟨fun hgiven => Nat.lt_irrefl _ hgiven.lt_size, _, (phase _).trans (if_pos rfl), nofun⟩

theorem side_of_accept {stream : LinkEnd} (h : (air.accept id).1 = .connected stream) :
    stream.side = .callee := by
  unfold accept at h
  split at h
  · cases h
  · split at h
    · split at h <;> cases h
    · cases h
      rfl

/-- `accept` makes the callee's end `Given`, which it was not before. -/
theorem given_accept {stream : LinkEnd} (hair : air.Orderly)
    (h : (air.accept id).1 = .connected stream) :
    ¬ air.Given stream ∧ (air.accept id).2.Given stream := by
  have he := air.effect_accept id
  unfold note at he
  dsimp only at he
  split at he
  · next stream' air' haccept =>
    obtain rfl : stream = stream' := by
      rw [haccept] at h
      exact (Accepted.connected.inj h).symm
    generalize air'.remote? stream = sender at he
    cases he with
    | accepts _ i skipped rest before gone here phase =>
      have hmem : i ∈ air.queue id := by
        rw [before]
        simp
      refine ⟨fun ⟨p, hp, hside⟩ => hside rfl ?_, _, (phase _).trans (if_pos rfl), nofun⟩
      exact Option.some.inj (hp.symm.trans (hair.waiting_of_mem hmem here))
  · next hnone => exact (hnone stream (air.accept id).2 (Prod.ext h rfl)).elim

/-! ### Owners -/

/-- Each end has one owner at most under `owns`, and none before it is `Given`. -/
structure Divided {ι : Type} (air : Air) (owns : ι → LinkEnd → Prop) : Prop where
  one : ∀ i j e, owns i e → owns j e → i = j
  given : ∀ i e, owns i e → air.Given e

namespace Divided

variable {ι : Type} {owns owns' : ι → LinkEnd → Prop}

theorem perform (h : air.Divided owns) (hair : air.Orderly) (x : Act) :
    (air.perform x).Divided owns :=
  ⟨h.one, fun i e hi => (h.given i e hi).perform hair x⟩

/-- Owners may let go of what they own. -/
theorem mono (h : air.Divided owns) (hsub : ∀ i e, owns' i e → owns i e) : air.Divided owns' :=
  ⟨fun i j e hi hj => h.one i j e (hsub i e hi) (hsub j e hj),
    fun i e hi => h.given i e (hsub i e hi)⟩

/-- An end `m` that is `Given` and that nobody owns may come to `k`. -/
theorem gain (h : air.Divided owns) {m : LinkEnd} {k : ι} (hm : air.Given m)
    (hfree : ∀ i, ¬ owns i m) (hsub : ∀ i e, owns' i e → owns i e ∨ i = k ∧ e = m) :
    air.Divided owns' where
  one i j e hi hj := by
    obtain hi | ⟨rfl, rfl⟩ := hsub i e hi
    · obtain hj | ⟨rfl, rfl⟩ := hsub j e hj
      · exact h.one i j e hi hj
      · exact absurd hi (hfree i)
    · obtain hj | ⟨rfl, -⟩ := hsub j e hj
      · exact absurd hj (hfree j)
      · rfl
  given i e hi := by
    obtain hi | ⟨-, rfl⟩ := hsub i e hi
    · exact h.given i e hi
    · exact hm

/-- An end `m` that `j` owns may pass to `k`. -/
theorem pass (h : air.Divided owns) {m : LinkEnd} {j k : ι} (hm : owns j m)
    (hsub : ∀ i e, owns' i e → owns i e ∧ (i = j → e ≠ m) ∨ i = k ∧ e = m) : air.Divided owns' :=
  have hrest : air.Divided fun i e => owns i e ∧ (i = j → e ≠ m) := h.mono fun _ _ hi => hi.1
  hrest.gain (h.given j m hm) (fun i hi => hi.2 (h.one i j m hi.1 hm) rfl) hsub

end Divided
end Air
end RadioLink

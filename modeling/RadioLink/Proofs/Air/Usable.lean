import RadioLink.Proofs.Air.Flow

/-!
# Ends that seem good for another frame

An end of a link `isUsable` for another frame until whoever has it has written there in vain, read
to the end or shut it down. Nothing that is done at the other end, or elsewhere, changes that: not
that the other end is let go of, nor that a radio is switched off.
-/

namespace RadioLink

namespace Air

/-- Whether the act is a `write`, `read` or `shutdown` at `e`, which only the owner of that end may
do. -/
def Act.Handles (e : LinkEnd) : Act → Prop
  | .write stream _ | .read stream _ | .shutdown stream => stream = e
  | _ => False

variable {air : Air} {e : LinkEnd} {x : Act}

theorem isUsable_iff : air.isUsable e = true ↔
    ∃ l, air.links[e.link]? = some l ∧ (l.half e.side).usable = true := by
  unfold isUsable
  cases air.links[e.link]? <;> simp

theorem isUsable_updateLink {i : Nat} {f : Link → Link} (h : air.isUsable e = true)
    (hf : ∀ l, air.links[i]? = some l → i = e.link → (l.half e.side).usable = true →
      ((f l).half e.side).usable = true) : (air.updateLink i f).isUsable e = true := by
  obtain ⟨l, hl, husable⟩ := isUsable_iff.1 h
  rw [isUsable_iff, updateLink, Array.getElem?_modify]
  split
  · next hi =>
    subst hi
    exact ⟨f l, by rw [hl]; rfl, hf l hl rfl husable⟩
  · exact ⟨l, hl, husable⟩

/-- `setHalf` at `side` leaves the half at the other side as usable as it was. -/
theorem usable_setHalf {l : Link} {half : Link.Half} {side side' : Side}
    (h : (l.half side').usable = true) (hhalf : side' = side → half.usable = true) :
    ((l.setHalf half side).half side').usable = true := by
  rw [Link.half_setHalf]
  split
  · next hside => exact hhalf hside
  · exact h

theorem isUsable_write {stream : LinkEnd} (h : air.isUsable e = true) (hne : stream ≠ e)
    (bytes : Bytes) : (air.write stream bytes).2.isUsable e = true := by
  unfold write
  split
  · exact h
  · next l hl =>
    refine isUsable_updateLink h fun l' hl' hi husable => ?_
    cases hl.symm.trans hl'
    unfold Link.write
    dsimp only
    split
    · exact usable_setHalf husable fun hside => absurd (LinkEnd.eq_of_side hi hside.symm) hne
    · exact usable_setHalf husable fun hside => hside ▸ husable

theorem isUsable_read {stream : LinkEnd} (h : air.isUsable e = true) (hne : stream ≠ e)
    (size : Nat) : (air.read stream size).2.isUsable e = true := by
  unfold read
  split
  · exact h
  · next l hl =>
    refine isUsable_updateLink h fun l' hl' hi husable => ?_
    cases hl.symm.trans hl'
    have hpeer (p : Pipe) : ((l.setHalf { l.half stream.side.other with outgoing := p }
        stream.side.other).half e.side).usable = true :=
      usable_setHalf husable fun hside => hside ▸ husable
    unfold Link.read
    dsimp only
    split
    · exact usable_setHalf (hpeer _) fun hside => absurd (LinkEnd.eq_of_side hi hside.symm) hne
    · exact hpeer _

/-- **No act but those that handle `e` makes it unusable.** -/
theorem isUsable_perform (h : air.isUsable e = true) (hx : ¬ x.Handles e) :
    (air.perform x).isUsable e = true := by
  -- The three acts at an end are those that `Handles` is about; all others touch neither flag.
  cases x with
  | write stream bytes => exact isUsable_write h hx bytes
  | read stream size => exact isUsable_read h hx size
  | shutdown stream =>
    refine isUsable_updateLink h fun l _ hi husable => usable_setHalf husable fun hside => ?_
    exact absurd (LinkEnd.eq_of_side hi hside.symm) hx
  | listen owner endpoint =>
    unfold perform listen
    dsimp only
    split <;> exact h
  | close id =>
    obtain ⟨l, hl, husable⟩ := isUsable_iff.1 h
    unfold perform closeListener
    dsimp only
    split
    · exact h
    · next listener _ =>
      refine isUsable_iff.2 ?_
      show ∃ l, (listener.queue.foldl (fun links i => links.modify i refuse)
        air.links)[e.link]? = some l ∧ _
      rw [getElem?_foldl_refuse]
      split
      · refine ⟨refuse l, by rw [hl]; rfl, ?_⟩
        obtain ⟨caller, callee, phase⟩ := l
        cases phase <;> exact husable
      · exact ⟨l, hl, husable⟩
  | connect caller callee endpoint =>
    unfold perform connect
    dsimp only
    split
    · exact h
    · obtain ⟨l, hl, husable⟩ := isUsable_iff.1 h
      have hlt := (Array.getElem?_eq_some_iff.1 hl).1
      refine isUsable_iff.2 ⟨l, ?_, husable⟩
      rw [Array.getElem?_push, if_neg (Nat.ne_of_lt hlt), hl]
  | abandon link =>
    refine isUsable_updateLink h fun l _ _ husable => ?_
    split
    · cases hside : e.side <;> rw [hside] at husable <;> exact husable
    · cases hside : e.side <;> rw [hside] at husable <;> exact husable
    · exact husable
  | accept id =>
    unfold perform accept
    dsimp only
    split
    · exact h
    · split
      · split <;> exact h
      · refine isUsable_updateLink h fun l _ _ husable => ?_
        cases hside : e.side <;> rw [hside] at husable <;> exact husable
  | drop stream =>
    refine isUsable_updateLink h fun l _ _ husable => ?_
    cases hside : e.side <;> rw [hside] at husable <;> exact husable
  | disrupt stream fault =>
    exact isUsable_updateLink h fun l _ _ husable =>
      usable_setHalf husable fun hside => hside ▸ husable
  | ask _ | switchOn _ | switchOff _ | bond _ _ | unbond _ _ | failNext _ _ | cancelDiscovery _ =>
    exact h

theorem isUsable_foldl {acts : List Act} (h : air.isUsable e = true)
    (hacts : ∀ x ∈ acts, ¬ x.Handles e) : (acts.foldl perform air).isUsable e = true := by
  induction acts generalizing air with
  | nil => exact h
  | cons x acts ih =>
    exact ih (isUsable_perform h (hacts x List.mem_cons_self))
      fun y hy => hacts y (List.mem_cons_of_mem x hy)

/-- A new link is usable at either end. -/
theorem isUsable_connect {caller callee : Address} {endpoint : Endpoint} {link : Nat}
    (h : (air.connect caller callee endpoint).1 = .ok link) (side : Side) :
    (air.connect caller callee endpoint).2.isUsable ⟨link, side⟩ = true := by
  obtain rfl := eq_size_of_connect h
  unfold connect at h ⊢
  dsimp only at h ⊢
  split at h
  · cases h
  · refine isUsable_iff.2 ⟨_, Array.getElem?_push_size, ?_⟩
    cases side <;> rfl

end Air
end RadioLink

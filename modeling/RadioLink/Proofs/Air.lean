import RadioLink.Air.Connection
import RadioLink.Air.Radio
import RadioLink.Air.Stream

/-!
# What ends of links have written

Of all that can be done to the air, only `write` and `read` change `outgoing`, what has been written
at the end of a link and not been read yet. `outgoing_write`: a write appends what it says was
taken, at its own end.
-/

namespace RadioLink

/-- The number of bytes that a `write` with this result has brought across. -/
def Pipe.Written.count : Pipe.Written → Nat
  | .taken count => count
  | .full | .broken => 0

theorem Pipe.content_write (bytes : Bytes) (p : Pipe) :
    (p.write bytes).2.content = p.content ++ bytes.take (p.write bytes).1.count := by
  unfold Pipe.write
  dsimp only
  split
  · next h => simp [h]
  · split
    · simp [Written.count]
    · split
      · simp [Written.count]
      · simp only [Written.count]
        rw [List.take_eq_take_min, Nat.min_comm]

theorem Pipe.count_write_le (bytes : Bytes) (p : Pipe) :
    (p.write bytes).1.count ≤ bytes.length := by
  unfold Pipe.write
  dsimp only
  split
  · exact Nat.zero_le _
  · split
    · exact Nat.zero_le _
    · split
      · exact Nat.zero_le _
      · exact Nat.min_le_left ..

namespace Link

theorem half_setHalf (l : Link) (h : Half) (side side' : Side) :
    (l.setHalf h side).half side' = if side' = side then h else l.half side' := by
  cases side <;> cases side' <;> rfl

theorem fst_write (l : Link) (side : Side) (bytes : Bytes) :
    (l.write side bytes).1 = ((l.half side).outgoing.write bytes).1 := by
  unfold write
  dsimp only
  split
  · next heq => rw [heq]
  · next heq => rw [heq]

/-- `Link.write` at `side` appends to the content of that half, and leaves the other one. -/
theorem content_write (l : Link) (side side' : Side) (bytes : Bytes) :
    ((l.write side bytes).2.half side').outgoing.content
      = (l.half side').outgoing.content
        ++ if side' = side then bytes.take (l.write side bytes).1.count else [] := by
  have hpipe : ((l.write side bytes).2.half side').outgoing.content
      = if side' = side then ((l.half side).outgoing.write bytes).2.content
        else (l.half side').outgoing.content := by
    unfold write
    dsimp only
    split <;> next heq => rw [half_setHalf, heq]; split <;> rfl
  rw [hpipe, fst_write, Pipe.content_write]
  split
  · next h => rw [h]
  · rw [List.append_nil]

end Link

namespace Air

/-- What has been written at `e` and not been read yet, `[]` for a link that does not exist. -/
def outgoing (air : Air) (e : LinkEnd) : Bytes :=
  (air.links[e.link]?.map fun l => (l.half e.side).outgoing.content).getD []

variable {air : Air} {e : LinkEnd}

theorem outgoing_updateLink {i : Nat} {f : Link → Link}
    (hf : ∀ l side, ((f l).half side).outgoing.content = (l.half side).outgoing.content) :
    (air.updateLink i f).outgoing e = air.outgoing e := by
  simp only [outgoing, updateLink, Array.getElem?_modify]
  split
  · rw [Option.map_map]
    congr 2
    funext l
    exact hf l e.side
  · rfl

@[simp] theorem outgoing_drop (stream : LinkEnd) : (air.drop stream).outgoing e = air.outgoing e :=
  outgoing_updateLink fun _ side => by cases side <;> rfl

@[simp] theorem outgoing_shutdown (stream : LinkEnd) :
    (air.shutdown stream).outgoing e = air.outgoing e :=
  outgoing_updateLink fun _ side => by cases stream.side <;> cases side <;> rfl

@[simp] theorem outgoing_disrupt (stream : LinkEnd) (fault : StreamFault) :
    (air.disrupt stream fault).outgoing e = air.outgoing e :=
  outgoing_updateLink fun _ side => by cases stream.side <;> cases side <;> rfl

@[simp] theorem outgoing_abandon (link : Nat) : (air.abandon link).outgoing e = air.outgoing e :=
  outgoing_updateLink fun _ side => by split <;> cases side <;> rfl

@[simp] theorem outgoing_cancelDiscovery (a : Address) :
    (air.cancelDiscovery a).outgoing e = air.outgoing e := rfl

/-- Whether `connect` is heard does not depend on `cancelDiscovery`. -/
theorem fst_connect_cancelDiscovery (air : Air) (a caller callee : Address) (endpoint : Endpoint) :
    ((air.cancelDiscovery a).connect caller callee endpoint).1
      = (air.connect caller callee endpoint).1 := by
  have hradio (b : Address) : ((air.cancelDiscovery a).radio b).enabled = (air.radio b).enabled ∧
      ((air.cancelDiscovery a).radio b).faults = (air.radio b).faults ∧
      ((air.cancelDiscovery a).radio b).endpoints = (air.radio b).endpoints := by
    rw [cancelDiscovery, radio_updateRadio]
    split
    · next h => rw [h]; exact ⟨rfl, rfl, rfl⟩
    · exact ⟨rfl, rfl, rfl⟩
  have hreach : (air.cancelDiscovery a).reach caller callee endpoint
      = air.reach caller callee endpoint := by
    unfold reach
    rw [(hradio caller).1, (hradio caller).2.1, (hradio callee).1, (hradio callee).2.2]
    rfl
  unfold connect
  rw [hreach]
  dsimp only
  split <;> rfl

/-- The link that `connect` adds carries nothing yet. -/
@[simp] theorem outgoing_connect (air : Air) (e : LinkEnd) (caller callee : Address)
    (endpoint : Endpoint) : (air.connect caller callee endpoint).2.outgoing e = air.outgoing e := by
  unfold connect
  dsimp only
  split
  · rfl
  · simp only [outgoing, Array.getElem?_push]
    split
    · next h =>
      rw [h, Array.getElem?_eq_none (Nat.le_refl _)]
      cases e.side <;> rfl
    · rfl

theorem outgoing_write (air : Air) (e stream : LinkEnd) (bytes : Bytes) :
    (air.write stream bytes).2.outgoing e
      = air.outgoing e ++
        if e = stream then bytes.take (air.write stream bytes).1.count else [] := by
  unfold write
  split
  · simp [Pipe.Written.count]
  · next l hl =>
    have hother : e.link ≠ stream.link → e ≠ stream := fun h heq => h (heq ▸ rfl)
    simp only [outgoing, updateLink, Array.getElem?_modify]
    by_cases hlink : stream.link = e.link
    · rw [if_pos hlink, ← hlink, hl]
      have hside : e = stream ↔ e.side = stream.side := by
        cases e
        cases stream
        simp_all
      simp only [Option.map_some, Option.getD_some, Link.content_write, hside]
    · rw [if_neg hlink, if_neg (hother (Ne.symm hlink)), List.append_nil]

theorem count_write_le (air : Air) (stream : LinkEnd) (bytes : Bytes) :
    (air.write stream bytes).1.count ≤ bytes.length := by
  unfold write
  split
  · exact Nat.zero_le _
  · dsimp only
    rw [Link.fst_write]
    exact Pipe.count_write_le ..

end Air
end RadioLink

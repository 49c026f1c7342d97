import RadioLink.Proofs.World.Course
import RadioLink.Proofs.World.Sending

/-!
# The journal of a send

From when a send has got a connection on,

    carried events stream ++ rest.remaining = d.frame

and the connection is shut down when `rest.remaining` is empty. `Posting` says the like of a send
whose payload is at hand, whatever others do. Here others write on no end that they do not own, so
that `carried`, all that was brought across, is what the send has `written`, wherever its payload
comes from.
-/

namespace RadioLink

/-- The bytes of the frame of a send. -/
def Sending.frame (d : Sending) : Bytes := Outflow.frame d.message d.payload

/-- On `e` nothing of the frame is left to be written, and the stage of its `Outflow` is `.done`. -/
def Sending.IsOut (d : Sending) (e : LinkEnd) : Prop :=
  ∃ rest deadline, d.stage = .writing e rest deadline ∧ rest.stage = .done ∧ rest.remaining = []

/-- What has been brought across from the end `e`, whoever wrote it. -/
def carried (events : List Event) (e : LinkEnd) : Bytes := events.flatMap (·.writes e)

theorem carried_append (events later : List Event) (e : LinkEnd) :
    carried (events ++ later) e = carried events e ++ carried later e := List.flatMap_append

theorem carried_concat (events : List Event) (x : Event) (e : LinkEnd) :
    carried (events ++ [x]) e = carried events e ++ x.writes e := by
  simp [carried]

theorem carried_of_mute {events : List Event} {x : Event} {e : LinkEnd} (h : x.writes e = []) :
    carried (events ++ [x]) e = carried events e := by
  rw [carried_concat, h, List.append_nil]

theorem written_of_mute {t : Nat} {events : List Event} {x : Event} {e : LinkEnd}
    (h : x.writes e = []) : written t (events ++ [x]) e = written t events e := by
  rw [written_concat, h]
  split <;> exact List.append_nil _

theorem written_of_other {t : Nat} {events : List Event} {x : Event} (h : x.cause ≠ .task t)
    (e : LinkEnd) : written t (events ++ [x]) e = written t events e := by
  rw [written_concat, if_neg h, List.append_nil]

/-- Two tasks have not written more on `e` than it has `carried`. -/
theorem length_written_add_le {t r : Nat} (hne : r ≠ t) (events : List Event) (e : LinkEnd) :
    (written t events e).length + (written r events e).length ≤ (carried events e).length := by
  induction events with
  | nil => exact Nat.le_refl _
  | cons x events ih =>
    have hcons (q : Nat) : (written q (x :: events) e).length
        = (if x.cause = .task q then (x.writes e).length else 0) + (written q events e).length := by
      unfold written
      by_cases h : x.cause = .task q <;> simp [h]
    have hcarried : (carried (x :: events) e).length
        = (x.writes e).length + (carried events e).length := by simp [carried]
    rw [hcons, hcons, hcarried]
    by_cases ht : x.cause = .task t
    · have hr : x.cause ≠ .task r := ht ▸ fun heq => hne (Cause.task.inj heq).symm
      rw [if_pos ht, if_neg hr]
      omega
    · rw [if_neg ht]
      split <;> omega

/-- Where `written t` is all that `e` has `carried`, no other task has written there. -/
theorem written_of_alone {t r : Nat} {events : List Event} {e : LinkEnd}
    (h : carried events e = written t events e) (hne : r ≠ t) : written r events e = [] := by
  have hle := length_written_add_le hne events e
  rw [h] at hle
  exact List.eq_nil_of_length_eq_zero (by omega)

/-- Task `t` has shut the end `e` down when it had `carried` just `frame`. -/
def Shut (t : Nat) (events : List Event) (e : LinkEnd) (frame : Bytes) : Prop :=
  ∃ past x later, events = past ++ x :: later ∧ x.cause = .task t ∧
    x.after.air = x.before.air.shutdown e ∧ carried past e = frame

theorem Shut.concat {t : Nat} {events : List Event} {e : LinkEnd} {frame : Bytes}
    (h : Shut t events e frame) (x : Event) : Shut t (events ++ [x]) e frame := by
  obtain ⟨past, y, later, rfl, hrest⟩ := h
  exact ⟨past, y, later ++ [x], by simp, hrest⟩

/-- An event that is no step of task `t` does not make `Shut t` true. -/
theorem Shut.of_concat {t : Nat} {events : List Event} {x : Event} {e : LinkEnd} {frame : Bytes}
    (h : Shut t (events ++ [x]) e frame) (hcause : x.cause ≠ .task t) : Shut t events e frame := by
  obtain ⟨past, y, later, heq, hown, hrest⟩ := h
  obtain rfl | ⟨later, z, rfl⟩ := List.eq_nil_or_concat later
  · obtain ⟨-, hxy⟩ := List.append_inj' heq rfl
    cases hxy
    exact absurd hown hcause
  · rw [List.concat_eq_append, ← List.cons_append, ← List.append_assoc] at heq
    exact ⟨past, y, later, (List.append_inj' heq rfl).1, hown, hrest⟩

/-- What `e` has `carried` is a prefix of `frame`, and all of it is what task `t` has `written`;
nobody else has written on `e`, nor `t` on any other end. -/
structure OneFrame (t : Nat) (events : List Event) (frame : Bytes) (e : LinkEnd) : Prop where
  own : carried events e = written t events e
  others : ∀ r, r ≠ t → written r events e = []
  elsewhere : ∀ e', e' ≠ e → written t events e' = []
  beginning : carried events e <+: frame

/-- How far the send `d` of task `t` has come: until it is in `.writing` it has written nothing and
its `pens` have carried nothing; from then on what its stream has carried and what remains make up
`d.frame`. -/
inductive Journal (t : Nat) (events : List Event) (d : Sending) : Prop where
  | waiting (idle : d.stage.isWriting = false) (nothing : ∀ e, written t events e = [])
      (fresh : ∀ e ∈ d.stage.pens, carried events e = [])
  | writing {stream : LinkEnd} {rest : Outflow} {deadline : Timer}
      (stage : d.stage = .writing stream rest deadline)
      (elsewhere : ∀ e, e ≠ stream → written t events e = [])
      (alone : carried events stream = written t events stream)
      (frame : carried events stream ++ rest.remaining = d.frame)
      (shut : rest.stage = .done → Shut t events stream d.frame)

namespace Journal

variable {t : Nat} {events : List Event} {d : Sending} {x : Event} {e stream : LinkEnd}
  {rest : Outflow} {deadline : Timer}

theorem of_waiting (h : Journal t events d) (was : d.stage.isWriting = false) :
    (∀ e, written t events e = []) ∧ ∀ e ∈ d.stage.pens, carried events e = [] := by
  cases h with
  | waiting _ nothing fresh => exact ⟨nothing, fresh⟩
  | writing stage =>
    rw [stage] at was
    cases was

theorem of_writing (h : Journal t events d) (stage : d.stage = .writing stream rest deadline) :
    (∀ e, e ≠ stream → written t events e = []) ∧
    carried events stream = written t events stream ∧
    carried events stream ++ rest.remaining = d.frame ∧
    (rest.stage = .done → Shut t events stream d.frame) := by
  cases h with
  | waiting idle =>
    rw [stage] at idle
    cases idle
  | writing stage' elsewhere alone frame shut =>
    cases stage.symm.trans stage'
    exact ⟨elsewhere, alone, frame, shut⟩

/-! ### What events add -/

/-- An event that writes nothing on the `pens` of a send, and nothing at all if it is its own step,
keeps its `Journal`. -/
theorem quiet (h : Journal t events d) (hpens : ∀ e ∈ d.stage.pens, x.writes e = [])
    (hown : x.cause = .task t → ∀ e, x.writes e = []) : Journal t (events ++ [x]) d := by
  have hsame (e : LinkEnd) : written t (events ++ [x]) e = written t events e := by
    by_cases hcause : x.cause = .task t
    · exact written_of_mute (hown hcause e)
    · exact written_of_other hcause e
  cases h with
  | waiting idle nothing fresh =>
    apply Journal.waiting idle
    · intro e
      rw [hsame, nothing]
    · intro e he
      rw [carried_of_mute (hpens e he), fresh e he]
  | @writing stream _ _ stage elsewhere alone frame shut =>
    have hstream : stream ∈ d.stage.pens := by
      rw [stage]
      exact List.mem_cons_self
    have hcarried : carried (events ++ [x]) stream = carried events stream :=
      carried_of_mute (hpens stream hstream)
    apply Journal.writing stage
    · intro e he
      rw [hsame, elsewhere e he]
    · rw [hcarried, hsame, alone]
    · rw [hcarried, frame]
    · intro hdone
      exact (shut hdone).concat x

/-- A step from one stage to another without a connection keeps the `Journal`, if what the new
`pens` have carried is nothing. -/
theorem waits {stage : Sending.Stage} (h : Journal t events d) (was : d.stage.isWriting = false)
    (is : stage.isWriting = false) (hwrites : ∀ e, x.writes e = [])
    (hfresh : (∀ e ∈ d.stage.pens, carried events e = []) →
      ∀ e ∈ stage.pens, carried events e = []) :
    Journal t (events ++ [x]) { d with stage } := by
  obtain ⟨hnothing, hpens⟩ := h.of_waiting was
  apply Journal.waiting is
  · intro e
    rw [written_of_mute (hwrites e), hnothing]
  · intro e he
    rw [carried_of_mute (hwrites e), hfresh hpens e he]

/-- In the step to `.writing` nothing of the frame has been carried and all of it remains. -/
theorem begins (h : Journal t events d) (was : d.stage.isWriting = false)
    (start : Outflow.start d.message d.payload = .ok rest) (hwrites : ∀ e, x.writes e = [])
    (hfresh : (∀ e ∈ d.stage.pens, carried events e = []) → carried events stream = []) :
    Journal t (events ++ [x]) { d with stage := .writing stream rest deadline } := by
  obtain ⟨hnothing, hpens⟩ := h.of_waiting was
  obtain ⟨hremaining, hstage⟩ := Outflow.remaining_start start
  have hwritten (e : LinkEnd) : written t (events ++ [x]) e = [] := by
    rw [written_of_mute (hwrites e), hnothing]
  have hcarried : carried (events ++ [x]) stream = [] := by
    rw [carried_of_mute (hwrites stream), hfresh hpens]
  apply Journal.writing rfl
  · intro e _
    exact hwritten e
  · rw [hcarried, hwritten]
  · rw [hcarried, hremaining]
    rfl
  · intro hdone
    exact absurd hdone hstage

/-- The first `count` bytes of what is pending go over from `rest.remaining` to what the stream has
`carried`. -/
theorem writes {count : Nat} (h : Journal t events d)
    (stage : d.stage = .writing stream rest deadline) (hcause : x.cause = .task t)
    (hwrites : ∀ e, x.writes e = if e = stream then rest.pending.take count else []) :
    Journal t (events ++ [x]) { d with stage := .writing stream (rest.take count) deadline } := by
  obtain ⟨helsewhere, halone, hframe, hshut⟩ := h.of_writing stage
  apply Journal.writing rfl
  · intro e he
    rw [written_of_mute ((hwrites e).trans (if_neg he)), helsewhere e he]
  · rw [carried_concat, written_concat, if_pos hcause, halone]
  · rw [carried_concat, hwrites, if_pos rfl, List.append_assoc, Outflow.remaining_take]
    exact hframe
  · intro hdone
    exact (hshut hdone).concat x

/-- The step to the next piece leaves `rest.remaining` as it was; with `.shutdown` nothing remains,
so that `Shut` holds of the whole frame. -/
theorem goesOn {rest' : Outflow} (h : Journal t events d)
    (stage : d.stage = .writing stream rest deadline)
    (next : rest.next = .load rest' ∨ rest.next = .flush rest' ∨ rest.next = .shutdown rest')
    (hcause : x.cause = .task t) (hwrites : ∀ e, x.writes e = [])
    (hshut : rest.next = .shutdown rest' → x.after.air = x.before.air.shutdown stream) :
    Journal t (events ++ [x]) { d with stage := .writing stream rest' deadline } := by
  obtain ⟨helsewhere, halone, hframe, -⟩ := h.of_writing stage
  -- the next piece leaves as much, and only the last one finds that nothing is left
  have hturn := rest.turn_next
  have hremaining : rest'.remaining = rest.remaining ∧ (rest'.stage = .done →
      rest.next = .shutdown rest' ∧ rest.remaining = []) := by
    obtain hnext | hnext | hnext := next <;> rw [hnext] at hturn
    · cases hturn with
      | load remaining stage => exact ⟨remaining, fun hdone => absurd hdone stage⟩
    · cases hturn with
      | flush remaining stage => exact ⟨remaining, fun hdone => absurd hdone stage⟩
    · cases hturn with
      | shutdown remaining remaining' =>
        exact ⟨remaining'.trans remaining.symm, fun _ => ⟨hnext, remaining⟩⟩
  have hcarried : carried (events ++ [x]) stream = carried events stream :=
    carried_of_mute (hwrites stream)
  apply Journal.writing rfl
  · intro e he
    rw [written_of_mute (hwrites e), helsewhere e he]
  · rw [hcarried, written_of_mute (hwrites stream), halone]
  · rw [hcarried, hremaining.1]
    exact hframe
  · intro hdone
    obtain ⟨hnext, hnothing⟩ := hremaining.2 hdone
    rw [hnothing, List.append_nil] at hframe
    exact ⟨events, x, [], rfl, hcause, hshut hnext, hframe⟩

/-! ### What it comes to -/

theorem oneFrame_of_stage (h : Journal t events d)
    (stage : d.stage = .writing stream rest deadline) : OneFrame t events d.frame stream := by
  obtain ⟨helsewhere, halone, hframe, -⟩ := h.of_writing stage
  exact ⟨halone, fun r hr => written_of_alone halone hr, helsewhere, _, hframe⟩

/-- Each of the `pens` has carried nothing, or `OneFrame` holds of it. -/
theorem oneFrame_of_mem (h : Journal t events d) (he : e ∈ d.stage.pens) :
    carried events e = [] ∨ OneFrame t events d.frame e := by
  cases id h with
  | waiting _ _ fresh => exact .inl (fresh e he)
  | writing stage =>
    right
    have hone := h.oneFrame_of_stage stage
    rw [stage] at he
    rwa [List.mem_singleton.1 he]

theorem oneFrame_of_written (h : Journal t events d) (hne : written t events e ≠ []) :
    OneFrame t events d.frame e := by
  cases id h with
  | waiting _ nothing => exact absurd (nothing e) hne
  | @writing stream _ _ stage elsewhere =>
    by_cases he : e = stream
    · rw [he]
      exact h.oneFrame_of_stage stage
    · exact absurd (elsewhere e he) hne

/-- Where `d.IsOut e`, the end has `carried` all of `d.frame` and was `Shut` after it. -/
theorem whole_of_isOut (h : Journal t events d) (hout : d.IsOut e) :
    OneFrame t events d.frame e ∧ carried events e = d.frame ∧ Shut t events e d.frame := by
  obtain ⟨rest, deadline, hstage, hdone, hremaining⟩ := hout
  obtain ⟨-, -, hframe, hshut⟩ := h.of_writing hstage
  rw [hremaining, List.append_nil] at hframe
  exact ⟨h.oneFrame_of_stage hstage, hframe, hshut hdone⟩

end Journal

end RadioLink

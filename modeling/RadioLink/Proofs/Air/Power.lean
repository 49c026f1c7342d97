import RadioLink.Proofs.Air.Matching
import RadioLink.Proofs.Air.Places

/-!
# While a radio is off

Nothing new comes about at a radio that is off: `connect` by it or to it fails at once, and so does
`listen`. But `switchOff` settles nothing. An attempt that waits by then goes on waiting, at either
end of it, and a listener that has it in its queue can still accept it. These are all the
connections that a radio can have a part in until it is switched on again (`switched_off`), and
`accepted_while_off` is one of them.
-/

namespace RadioLink.Air

variable {air air' off : Air} {a b : Address} {id i : Nat}

/-! ### Links by their ends -/

/-- The radio at `a` is at one of the ends of link `i`. -/
def HasEnd (air : Air) (a : Address) (i : Nat) : Prop :=
  ∃ side, air.remote? ⟨i, side⟩ = some a

theorem lt_size_of_remote {e : LinkEnd} (h : air.remote? e = some a) : e.link < air.links.size := by
  obtain ⟨l, hl, -⟩ := Option.map_eq_some_iff.1 h
  exact (Array.getElem?_eq_some_iff.1 hl).1

theorem HasEnd.phase (h : air.HasEnd a i) : air.phase? i ≠ none := by
  obtain ⟨side, hside⟩ := h
  intro hnone
  exact Nat.not_le.2 (lt_size_of_remote hside) (phase?_eq_none_iff.1 hnone)

/-- An end at `a` after `connect` was there before, or `a` is the caller or the callee of the new
link. -/
theorem remote?_connect {caller callee : Address} {e : Endpoint} {stream : LinkEnd}
    (h : (air.connect caller callee e).2.remote? stream = some a) :
    air.remote? stream = some a ∨
      (a = caller ∨ a = callee) ∧ ∃ link, (air.connect caller callee e).1 = .ok link := by
  unfold connect at h ⊢
  dsimp only at h ⊢
  split at h
  · exact .inl h
  · rw [remote?] at h
    dsimp only at h
    rw [Array.getElem?_push] at h
    split at h
    · refine .inr ⟨?_, _, rfl⟩
      obtain ⟨link, side⟩ := stream
      cases side
      · exact .inr (Option.some.inj h).symm
      · exact .inl (Option.some.inj h).symm
    · exact .inl h

/-- Only an act `connect` that reaches a listener is noted as an attempt. -/
theorem connect_of_attempt {x : Act} {t : Attempt} (h : (air.note x).attempt? = some t) :
    ∃ e l, x = .connect t.caller t.callee e ∧
      air.reach t.caller t.callee e = .ok (t.listener, l) := by
  cases x with
  | connect caller callee e =>
    unfold note at h
    dsimp only at h
    split at h
    · next hreach =>
      cases h
      exact ⟨e, _, rfl, hreach⟩
    · cases h
  | ask _ | abandon _ | accept _ | close _ =>
    unfold note at h
    dsimp only at h
    split at h <;> cases h
  | _ => cases h

/-- A link with an end at `a` had it before the act, or the act is a `connect` by `a` or to it. -/
theorem HasEnd.of_perform {x : Act} (hair : air.Orderly) (h : (air.perform x).HasEnd a i) :
    air.HasEnd a i ∨ ∃ caller callee e link, x = .connect caller callee e ∧
      (a = caller ∨ a = callee) ∧ (air.connect caller callee e).1 = .ok link := by
  obtain ⟨side, hside⟩ := h
  by_cases hx : ∃ caller callee e, x = .connect caller callee e
  · obtain ⟨caller, callee, e, rfl⟩ := hx
    obtain hold | ⟨ha, link, hlink⟩ := remote?_connect hside
    · exact .inl ⟨side, hold⟩
    · exact .inr ⟨caller, callee, e, link, rfl, ha, hlink⟩
  · obtain ⟨-, hsize⟩ | ⟨_, _, _, hattempt, -⟩ := (air.effect x).attempt?_cases hair
    · have hlt : i < air.links.size := hsize ▸ lt_size_of_remote hside
      obtain ⟨b, hb⟩ : ∃ b, air.remote? ⟨i, side⟩ = some b := by
        rw [remote?, Array.getElem?_eq_getElem hlt]
        exact ⟨_, rfl⟩
      have hsame : a = b := Option.some.inj (hside.symm.trans (remote?_perform x hb))
      exact .inl ⟨side, hsame ▸ hb⟩
    · obtain ⟨e, -, rfl, -⟩ := connect_of_attempt hattempt
      exact absurd ⟨_, _, e, rfl⟩ hx

/-- A link comes into a queue only by a `connect` that reaches the listener. -/
theorem queue_perform {x : Act} (hid : id ≤ air.opened)
    (hi : i ∈ (air.perform x).queue id) : i ∈ air.queue id ∨
      ∃ caller callee e l, x = .connect caller callee e ∧
      air.reach caller callee e = .ok (id, l) := by
  have he := air.effect x
  generalize hnote : air.note x = entry at he
  cases he with
  | keeps hk | answers hk | leaves hk => exact .inl (hk.queue id ▸ hi)
  | opens _ queue => exact .inl (queue id (by omega) ▸ hi)
  | givesUp _ _ _ queue => exact .inl (queue id ▸ hi)
  | joins id' caller callee _ queue =>
    rw [queue] at hi
    split at hi
    · next heq =>
      obtain ⟨e, l, rfl, hreach⟩ := connect_of_attempt (congrArg Entry.attempt? hnote)
      exact .inr ⟨caller, callee, e, l, rfl, heq ▸ hreach⟩
    · exact .inl hi
  | accepts id' j skipped rest before _ _ _ queue =>
    rw [queue] at hi
    split at hi
    · next heq =>
      rw [heq, before]
      exact .inl (by simp [hi])
    · exact .inl hi
  | clears id' _ _ queue | closes id' _ _ queue =>
    rw [queue] at hi
    split at hi
    · cases hi
    · exact .inl hi

/-! ### A radio that is off -/

/-- `listen` fails with `radioDisabled` at a radio that is off. -/
theorem listen_of_off (h : (air.radio a).enabled = false) (e : Endpoint) :
    air.listen a e = (.error .radioDisabled, { air with opened := air.opened + 1 }) := by
  have hoff : ¬ (({ air with opened := air.opened + 1 } : Air).radio a).enabled = true := by
    show ¬ (air.radio a).enabled = true
    simp [h]
  exact if_neg hoff

/-- `reach` fails for a radio that is off, whether it is the caller or the callee. -/
theorem reach_of_off (h : (air.radio a).enabled = false) {caller callee : Address}
    (hend : a = caller ∨ a = callee) (e : Endpoint) :
    ∃ fault, air.reach caller callee e = .error fault := by
  have hoff : ¬ (air.radio a).enabled = true := by simp [h]
  unfold reach
  split
  · exact ⟨_, rfl⟩
  · next hcaller =>
    split
    · exact ⟨_, rfl⟩
    · split
      · exact ⟨_, rfl⟩
      · next hcallee =>
        rcases hend with rfl | rfl
        · exact absurd hoff hcaller
        · exact absurd hoff hcallee

theorem connect_of_off (h : (air.radio a).enabled = false) {caller callee : Address}
    (hend : a = caller ∨ a = callee) (e : Endpoint) :
    ∃ fault, (air.connect caller callee e).1 = .error fault := by
  obtain ⟨fault, hreach⟩ := reach_of_off h hend e
  refine ⟨fault, ?_⟩
  unfold connect
  rw [hreach]

/-! ### One act after the other -/

/-- The radio at `a` has been off from `off` to `air`: what its listeners have in their queues was
there by then, and so were all links that end at it. -/
structure StaysOff (a : Address) (off air : Air) : Prop where
  before : off.Orderly
  orderly : air.Orderly
  registered : air.Registered
  disabled : (air.radio a).enabled = false
  endpoints : (air.radio a).endpoints = []
  listeners : ∀ id e, air.place? id = some (a, e) → off.place? id = some (a, e)
  queues : ∀ id e, air.place? id = some (a, e) → ∀ i ∈ air.queue id, i ∈ off.queue id
  links : ∀ i, air.HasEnd a i → off.phase? i ≠ none
  settled : ∀ i p, off.phase? i = some p → p ≠ .waiting → air.phase? i = some p

theorem staysOff_switchOff (h : air.Orderly) (hreg : air.Registered) (a : Address) :
    StaysOff a (air.perform (.switchOff a)) (air.perform (.switchOff a)) where
  before := h.perform _
  orderly := h.perform _
  registered := hreg.perform h _
  disabled := by rw [perform, switchOff, radio_updateRadio, if_pos rfl]
  endpoints := by rw [perform, switchOff, radio_updateRadio, if_pos rfl]
  listeners _ _ hid := hid
  queues _ _ _ _ hi := hi
  links _ hi := hi.phase
  settled _ _ hp _ := hp

namespace StaysOff

/-- A `connect` by `a` or to it reaches nobody. -/
theorem not_reach (h : StaysOff a off air) {caller callee : Address}
    (hend : a = caller ∨ a = callee)
    {e : Endpoint} {reached : Nat × Listener} : air.reach caller callee e ≠ .ok reached := by
  intro hreach
  obtain ⟨fault, hfault⟩ := reach_of_off h.disabled hend e
  cases hreach.symm.trans hfault

/-- No listener comes to `a`. -/
theorem place?_of_perform (h : StaysOff a off air) {x : Act} {e : Endpoint}
    (hid : (air.perform x).place? id = some (a, e)) : air.place? id = some (a, e) := by
  obtain hold | ⟨rfl, -⟩ := place?_perform hid
  · exact hold
  · rw [perform, listen_of_off h.disabled] at hid
    exact hid

/-- Every act but `switchOn a` keeps `StaysOff`. -/
theorem perform (h : StaysOff a off air) {x : Act} (hx : x ≠ .switchOn a) :
    StaysOff a off (air.perform x) where
  before := h.before
  orderly := h.orderly.perform x
  registered := h.registered.perform h.orderly x
  disabled := by
    rw [Bool.eq_false_iff]
    intro hon
    obtain heq | ⟨hbefore, -⟩ := enabled_perform_iff.1 hon
    · exact hx heq
    · cases h.disabled.symm.trans hbefore
  endpoints := by
    refine List.eq_nil_iff_forall_not_mem.2 fun ⟨e, id⟩ hmem => ?_
    obtain hold | ⟨rfl, -⟩ := endpoints_perform hmem
    · rw [h.endpoints] at hold
      cases hold
    · rw [Air.perform, listen_of_off h.disabled] at hmem
      replace hmem : (e, id) ∈ (air.radio a).endpoints := hmem
      rw [h.endpoints] at hmem
      cases hmem
  listeners id e hid := h.listeners id e (h.place?_of_perform hid)
  queues id e hid i hi := by
    have hplace := h.place?_of_perform hid
    have hle : id ≤ air.opened :=
      h.orderly.numbered id (by rw [hplace]; exact Option.some_ne_none _)
    obtain hold | ⟨caller, callee, e', l, rfl, hreach⟩ := queue_perform hle hi
    · exact h.queues id e hplace i hold
    · -- whoever reaches a listener there has connected to the radio
      have hcallee : a = callee := by
        have heq := hplace.symm.trans (place?_of_reach h.registered hreach)
        exact congrArg Prod.fst (Option.some.inj heq)
      exact absurd hreach (h.not_reach (.inr hcallee))
  links i hi := by
    obtain hold | ⟨caller, callee, e, link, rfl, hend, hlink⟩ := HasEnd.of_perform h.orderly hi
    · exact h.links i hold
    · obtain ⟨fault, hfault⟩ := connect_of_off h.disabled hend e
      cases hlink.symm.trans hfault
  settled i p hp hne := ((air.effect x).turn h.orderly i).settled (h.settled i p hp hne) hne

theorem foldl (h : StaysOff a off air) {acts : List Act} (hacts : .switchOn a ∉ acts) :
    StaysOff a off (acts.foldl Air.perform air) := by
  induction acts generalizing air with
  | nil => exact h
  | cons x acts ih =>
    rw [List.mem_cons, not_or] at hacts
    exact ih (h.perform (Ne.symm hacts.1)) hacts.2

/-- A link that was there by then and waits now waited when the radio was switched off. -/
theorem waiting (h : StaysOff a off air) (hknown : off.phase? i ≠ none)
    (hw : air.phase? i = some .waiting) : off.phase? i = some .waiting := by
  obtain ⟨p, hp⟩ := Option.ne_none_iff_exists'.1 hknown
  by_cases hne : p = .waiting
  · rw [hp, hne]
  · exact absurd (Option.some.inj ((h.settled i p hp hne).symm.trans hw)) hne

end StaysOff

/-! ### What still comes about -/

/-- What `accept` hands out waited in the queue. -/
theorem waiting_of_accept {stream : LinkEnd} (h : air.Orderly)
    (haccept : (air.accept id).1 = .connected stream) :
    stream.link ∈ air.queue id ∧ air.phase? stream.link = some .waiting := by
  have hnote : air.note (.accept id) = .handedOut id stream ((air.accept id).2.remote? stream) := by
    unfold note
    dsimp only
    rw [show air.accept id = (.connected stream, (air.accept id).2) from Prod.ext haccept rfl]
  obtain hnone | ⟨id', j, hsome, hmem, hw, -⟩ := (air.effect (.accept id)).handOut?_cases h
  · rw [hnote] at hnone
    cases hnone
  · rw [hnote] at hsome
    cases hsome
    exact ⟨hmem, hw⟩

/-- `accept` at a radio that is off never waits: it hands out what is in its queue, or fails with
`listenerClosed`. -/
theorem accept_of_off {e : Endpoint} (hclosed : (air.radio a).endpoints = [])
    (hid : air.place? id = some (a, e)) :
    (air.accept id).1 = .error (.connectFailed .listenerClosed) ∨
      ∃ stream, (air.accept id).1 = .connected stream := by
  obtain ⟨l, hl, hplace⟩ := Option.map_eq_some_iff.1 hid
  have hunregistered : ¬ air.isRegistered id l = true := by
    rw [isRegistered, show l.owner = a from congrArg Prod.fst hplace, hclosed]
    exact Bool.false_ne_true
  unfold accept
  rw [hl]
  dsimp only
  split
  · exact .inl (by rw [if_neg hunregistered])
  · exact .inr ⟨_, rfl⟩

/-- What the radio at `a` still takes part in, in an `air` after it was switched off in `off`. -/
structure SwitchedOff (a : Address) (off air : Air) : Prop where
  /-- No attempt by `a` or to it joins a queue. -/
  connect : ∀ caller callee e, a = caller ∨ a = callee →
    ∃ fault, (air.connect caller callee e).1 = .error fault
  /-- An attempt by `a` or to it that brings a connection had done so before, or waited in a queue.
  -/
  answer : ∀ i stream, air.HasEnd a i → air.answer? i = some (.ok stream) →
    off.answer? i = some (.ok stream) ∨ off.phase? i = some .waiting
  /-- A listener at `a` accepts what waited in its queue, and then nothing more. -/
  accept : ∀ id e, air.place? id = some (a, e) →
    (air.accept id).1 = .error (.connectFailed .listenerClosed) ∨
      ∃ stream, (air.accept id).1 = .connected stream ∧ stream.link ∈ off.queue id ∧
        off.phase? stream.link = some .waiting
  /-- When a listener anywhere accepts an attempt by `a` or to it, that attempt waited in its queue.
  -/
  handOut : ∀ id stream, (air.accept id).1 = .connected stream → air.HasEnd a stream.link →
    off.phase? stream.link = some .waiting

theorem StaysOff.switchedOff (h : StaysOff a off air) : SwitchedOff a off air := by
  constructor
  case connect => exact fun caller callee e hend => connect_of_off h.disabled hend e
  case answer =>
    intro i stream hend hanswer
    obtain ⟨p, hp⟩ := Option.ne_none_iff_exists'.1 (h.links i hend)
    by_cases hne : p = .waiting
    · exact .inr (hne ▸ hp)
    · refine .inl ?_
      rw [← hanswer, answer?_eq, answer?_eq, hp, h.settled i p hp hne]
  case accept =>
    intro id e hid
    obtain herror | ⟨stream, haccept⟩ := accept_of_off h.endpoints hid
    · exact .inl herror
    · obtain ⟨hmem, hw⟩ := waiting_of_accept h.orderly haccept
      have hold := h.queues id e hid _ hmem
      refine .inr ⟨stream, haccept, hold, h.waiting (fun hnone => ?_) hw⟩
      rcases h.before.queued id _ hold with heq | heq <;> cases hnone.symm.trans heq
  case handOut =>
    intro id stream haccept hend
    exact h.waiting (h.links _ hend) (waiting_of_accept h.orderly haccept).2

/-- **While a radio is off only attempts that waited already bring a connection.** Whatever is done
before it is switched off and from then on, as long as it is not switched on again, no attempt by it
or to it joins a queue. -/
theorem switched_off (before later : List Act) (a : Address) (hlater : .switchOn a ∉ later) :
    SwitchedOff a (history (before ++ [.switchOff a])).2
      (history (before ++ .switchOff a :: later)).2 := by
  have hreg : (history before).2.Registered := by
    have hfold := history_eq_foldl [] before
    rw [List.nil_append] at hfold
    rw [hfold]
    exact registered_empty.foldl orderly_empty before
  have hoff := (staysOff_switchOff (ledger_history before).orderly hreg a).foldl hlater
  rw [history_append, history_eq_foldl before (.switchOff a :: later)]
  exact hoff.switchedOff

theorem switched_off_listening :
    let a : Address := ⟨#v[2, 0, 0, 0, 0, 1]⟩
    let b : Address := ⟨#v[2, 0, 0, 0, 0, 2]⟩
    let before : List Act :=
      [.switchOn a, .switchOn b, .listen b (.channel 7), .connect a b (.channel 7)]
    let later : List Act := [.connect a b (.channel 7), .accept 1, .ask 0]
    .switchOn b ∉ later ∧ SwitchedOff b (history (before ++ [.switchOff b])).2
      (history (before ++ .switchOff b :: later)).2 :=
  ⟨by decide, switched_off _ _ _ (by decide)⟩

/-- A listener accepts what waited in its queue after its radio was switched off, and the caller
then has a connection with that radio. -/
theorem accepted_while_off :
    let a : Address := ⟨#v[2, 0, 0, 0, 0, 1]⟩
    let b : Address := ⟨#v[2, 0, 0, 0, 0, 2]⟩
    let air := (history [.switchOn a, .switchOn b, .listen b (.channel 7),
      .connect a b (.channel 7), .switchOff b]).2
    (air.radio b).enabled = false ∧ air.place? 1 = some (b, .channel 7) ∧
      (air.accept 1).1 = .connected ⟨0, .callee⟩ ∧
      (air.accept 1).2.remote? ⟨0, .caller⟩ = some b ∧
      (air.accept 1).2.answer? 0 = some (.ok ⟨0, .caller⟩) :=
  ⟨by decide, by decide, rfl, by decide, rfl⟩

end RadioLink.Air

import RadioLink.Proofs.Air.Radios

/-!
# Waiting at a place

A place is an endpoint of a radio, `Address × Endpoint`. Whoever connects to it and is not turned
away at once stands in the queue of a listener that was opened there (`Air.Stands`). Whatever is
done elsewhere spares those who wait at a place (`Air.Spares`): they go on waiting there, or give
up. A listener that is closed settles what is in its queue (`Air.Settles`): it has accepted one at
most, and refuses the others.
-/

namespace RadioLink.Air

variable {q : Address × Endpoint} {air air' air'' : Air} {id i : Nat}

/-- Link `i` is in the queue of a listener at the place `q`. -/
def Stands (q : Address × Endpoint) (air : Air) (i : Nat) : Prop :=
  ∃ id, air.place? id = some q ∧ i ∈ air.queue id

/-- A link that `Stands` somewhere waits or has been given up. -/
theorem Stands.phase (h : air.Orderly) (hi : air.Stands q i) :
    air.phase? i = some .waiting ∨ air.phase? i = some .abandoned := by
  obtain ⟨id, -, hmem⟩ := hi
  exact h.queued id i hmem

/-! ### What is done elsewhere -/

/-- What waits at the place `q` is not answered between `air` and `air'`. -/
structure Spares (q : Address × Endpoint) (air air' : Air) : Prop where
  orderly : air'.Orderly
  opened : air.opened ≤ air'.opened
  /-- What is known of a link for good remains. -/
  settled : ∀ i p, air.phase? i = some p → p ≠ .waiting → air'.phase? i = some p
  remote : ∀ e a, air.remote? e = some a → air'.remote? e = some a
  stays : ∀ id, air.place? id = some q → air'.place? id = some q
  fresh : ∀ id, air'.place? id = some q → air.place? id = some q ∨ air.opened < id
  waits : ∀ i, air.Stands q i → air.phase? i = some .waiting →
    air'.Stands q i ∧ air'.phase? i = some .waiting ∨ air'.phase? i = some .abandoned

namespace Spares

theorem refl (h : air.Orderly) : Spares q air air :=
  ⟨h, Nat.le_refl _, fun _ _ hp _ => hp, fun _ _ he => he, fun _ hid => hid, fun _ hid => .inl hid,
    fun _ hi hw => .inl ⟨hi, hw⟩⟩

theorem trans (h : Spares q air air') (h' : Spares q air' air'') :
    Spares q air air'' where
  orderly := h'.orderly
  opened := Nat.le_trans h.opened h'.opened
  settled i p hp hne := h'.settled i p (h.settled i p hp hne) hne
  remote e a he := h'.remote e a (h.remote e a he)
  stays id hid := h'.stays id (h.stays id hid)
  fresh id hid := (h'.fresh id hid).elim (h.fresh id) fun hlt =>
    .inr (Nat.lt_of_le_of_lt h.opened hlt)
  waits i hi hw := by
    obtain ⟨hi', hw'⟩ | hgone := h.waits i hi hw
    · exact h'.waits i hi' hw'
    · exact .inr (h'.settled i _ hgone nofun)

end Spares

/-- An act `Spares` the place `q` if it hands out nothing from a queue there and closes no listener
there. -/
theorem Effect.spares {entry : Entry} (he : air.Effect air' entry) (h : air.Orderly)
    (hremote : ∀ e a, air.remote? e = some a → air'.remote? e = some a)
    (hhanded : ∀ id stream sender, entry = .handedOut id stream sender → air.place? id ≠ some q)
    (hclosed : ∀ id, entry = .closed id → air.place? id ≠ some q) :
    Spares q air air' := by
  have horderly := h.effect he
  have hsettled (i : Nat) (p : Link.Phase) (hp : air.phase? i = some p) (hne : p ≠ .waiting) :
      air'.phase? i = some p := (he.turn h i).settled hp hne
  -- most acts leave all listeners where they are and all that waits in its queue
  have hmost (hopened : air'.opened = air.opened) (hplace : ∀ id, air'.place? id = air.place? id)
      (hwaits : ∀ i, air.Stands q i → air.phase? i = some .waiting →
        air'.Stands q i ∧ air'.phase? i = some .waiting ∨ air'.phase? i = some .abandoned) :
      Spares q air air' :=
    ⟨horderly, Nat.le_of_eq hopened.symm, hsettled, hremote, fun id hid => (hplace id).trans hid,
      fun id hid => .inl ((hplace id).symm.trans hid), hwaits⟩
  cases he with
  | keeps hk | answers hk | leaves hk =>
    refine hmost hk.opened hk.place fun i ⟨id, hid, hmem⟩ hw => .inl ⟨⟨id, ?_, ?_⟩, ?_⟩
    · exact (hk.place id).trans hid
    · rwa [hk.queue]
    · exact (hk.phase i).trans hw
  | opens phase queue fresh place opened size =>
    have hold {id : Nat} (hid : air.place? id = some q) : id ≠ air.opened + 1 := fun heq => by
      have := h.numbered id (by rw [hid]; exact Option.some_ne_none _)
      omega
    refine ⟨horderly, by omega, hsettled, hremote, fun id hid => (place id (hold hid)).trans hid,
      fun id hid => ?_, fun i ⟨id, hid, hmem⟩ hw => .inl ⟨⟨id, ?_, ?_⟩, (phase i).trans hw⟩⟩
    · by_cases hnew : id = air.opened + 1
      · exact .inr (by omega)
      · exact .inl ((place id hnew).symm.trans hid)
    · exact (place id (hold hid)).trans hid
    · rwa [queue id (hold hid)]
  | joins id caller callee phase queue here place opened =>
    refine hmost opened place fun i ⟨id', hid, hmem⟩ hw => .inl ⟨⟨id', ?_, ?_⟩, ?_⟩
    · exact (place id').trans hid
    · rw [queue]
      split
      · next heq => exact List.mem_append_left _ (heq ▸ hmem)
      · exact hmem
    · rw [phase]
      split
      · rfl
      · exact hw
  | givesUp j waiting phase queue place opened =>
    refine hmost opened place fun i ⟨id', hid, hmem⟩ hw => ?_
    rw [phase]
    split
    · exact .inr rfl
    · exact .inl ⟨⟨id', (place id').trans hid, by rwa [queue]⟩, hw⟩
  | accepts id j skipped rest before gone here phase queue place opened =>
    refine hmost opened place fun i ⟨id', hid, hmem⟩ hw => ?_
    have hne : id' ≠ id := fun heq => hhanded id _ _ rfl (heq ▸ hid)
    have hij : i ≠ j := fun heq => hne (h.one id' id i hmem (by rw [before, heq]; simp))
    refine .inl ⟨⟨id', (place id').trans hid, by rwa [queue, if_neg hne]⟩, ?_⟩
    exact (phase i).trans ((if_neg hij).trans hw)
  | clears id gone phase queue place opened =>
    refine hmost opened place fun i ⟨id', hid, hmem⟩ hw => ?_
    have hne : id' ≠ id := fun heq => by
      rcases gone i (heq ▸ hmem) with hgone | hgone <;> rw [hgone] at hw <;> cases hw
    exact .inl ⟨⟨id', (place id').trans hid, by rwa [queue, if_neg hne]⟩, (phase i).trans hw⟩
  | closes id here phase queue place opened =>
    have hother {id' : Nat} (hid : air.place? id' = some q) : id' ≠ id := fun heq =>
      hclosed id rfl (heq ▸ hid)
    refine ⟨horderly, Nat.le_of_eq opened.symm, hsettled, hremote, fun id' hid => ?_,
      fun id' hid => ?_, fun i ⟨id', hid, hmem⟩ hw => .inl ⟨⟨id', ?_, ?_⟩, ?_⟩⟩
    · rw [place, if_neg (hother hid), hid]
    · rw [place] at hid
      split at hid
      · cases hid
      · exact .inl hid
    · rw [place, if_neg (hother hid), hid]
    · rwa [queue, if_neg (hother hid)]
    · rw [phase, if_neg, hw]
      exact fun hboth => hother hid (h.one id' id i hmem hboth.1)

/-- The act opens no listener at the place `q` and uses none that is there. -/
def Act.Avoids (q : Address × Endpoint) (air : Air) : Act → Prop
  | .listen owner e => (owner, e) ≠ q
  | .accept id | .close id => id ≤ air.opened ∧ air.place? id ≠ some q
  | _ => True

theorem note_eq_handedOut {x : Act} {stream : LinkEnd} {sender : Option Address}
    (h : air.note x = .handedOut id stream sender) : x = .accept id := by
  cases x with
  | accept id' =>
    unfold note at h
    dsimp only at h
    split at h
    · cases h
      rfl
    · cases h
  | connect caller callee e | ask link | abandon link | close id' =>
    unfold note at h
    dsimp only at h
    split at h <;> cases h
  | _ => cases h

theorem note_eq_closed {x : Act} (h : air.note x = .closed id) : x = .close id := by
  cases x with
  | close id' =>
    unfold note at h
    dsimp only at h
    split at h
    · cases h
      rfl
    · cases h
  | connect caller callee e | ask link | abandon link | accept id' =>
    unfold note at h
    dsimp only at h
    split at h <;> cases h
  | _ => cases h

theorem spares_perform {x : Act} (h : air.Orderly) (hx : x.Avoids q air) :
    Spares q air (air.perform x) := by
  refine (air.effect x).spares h (fun e a => remote?_perform x) (fun id stream sender hnote => ?_)
    fun id hnote => ?_
  · rw [note_eq_handedOut hnote] at hx
    exact hx.2
  · rw [note_eq_closed hnote] at hx
    exact hx.2

/-- No act but `listen` changes `opened`. -/
theorem opened_perform {x : Act} (hx : ∀ owner e, x ≠ .listen owner e) :
    (air.perform x).opened = air.opened := by
  cases x with
  | listen owner e => exact absurd rfl (hx owner e)
  | connect | close | write | read =>
    unfold perform
    dsimp only [connect, closeListener, write, read]
    split <;> rfl
  | accept =>
    unfold perform accept
    dsimp only
    split
    · rfl
    · split
      · split <;> rfl
      · rfl
  | _ => rfl

theorem place?_listen (owner : Address) (e : Endpoint)
    (hid : (air.listen owner e).2.place? id = some q) :
    air.place? id = some q ∨ q = (owner, e) ∧ id = air.opened + 1 := by
  unfold listen at hid
  dsimp only at hid
  split at hid
  · rw [Air.place?] at hid
    dsimp only at hid
    rw [Table.get?_insert] at hid
    split at hid
    · next heq => exact .inr ⟨(Option.some.inj hid).symm, heq.symm⟩
    · exact .inl hid
  · exact .inl hid

/-- `listen` gives the listener the number `air.opened + 1`. -/
theorem listen_eq_ok {owner : Address} {e : Endpoint} (h : air.listen owner e = (.ok id, air')) :
    id = air.opened + 1 ∧ air'.opened = id := by
  unfold listen at h
  dsimp only at h
  split at h <;> cases h
  exact ⟨rfl, rfl⟩

/-- Listeners come to the place `q` only by `listen` there. -/
theorem place?_perform {x : Act} (hid : (air.perform x).place? id = some q) :
    air.place? id = some q ∨ x = .listen q.1 q.2 ∧ id = air.opened + 1 := by
  by_cases hx : ∃ owner e, x = .listen owner e
  · obtain ⟨owner, e, rfl⟩ := hx
    obtain hold | ⟨rfl, hnew⟩ := place?_listen owner e hid
    · exact .inl hold
    · exact .inr ⟨rfl, hnew⟩
  · have hopened : (air.perform x).opened = air.opened :=
      opened_perform fun owner e heq => hx ⟨owner, e, heq⟩
    have he := air.effect x
    generalize air.note x = entry at he
    cases he with
    | keeps hk | answers hk | leaves hk => exact .inl ((hk.place id).symm.trans hid)
    | opens _ _ _ _ opened => omega
    | joins _ _ _ _ _ _ place | givesUp _ _ _ _ place | accepts _ _ _ _ _ _ _ _ _ place
    | clears _ _ _ _ place => exact .inl ((place id).symm.trans hid)
    | closes id' _ _ _ place =>
      rw [place] at hid
      split at hid
      · cases hid
      · exact .inl hid

/-- An act that avoids `q` still does so in an air that has spared it: a listener that was elsewhere
never comes to the place. -/
theorem Act.Avoids.mono {x : Act} (hx : x.Avoids q air) (h : Spares q air air') :
    x.Avoids q air' := by
  cases x with
  | accept id | close id =>
    obtain ⟨hle, hne⟩ := hx
    refine ⟨Nat.le_trans hle h.opened, fun hid => ?_⟩
    exact (h.fresh id hid).elim hne fun hlt => Nat.not_lt.2 hle hlt
  | _ => exact hx

theorem place?_of_avoids {x : Act} (hx : x.Avoids q air)
    (hid : (air.perform x).place? id = some q) : air.place? id = some q := by
  obtain hold | ⟨rfl, -⟩ := place?_perform hid
  · exact hold
  · exact absurd rfl hx

/-- Acts that avoid the place `q` spare it, and open no listener there. -/
theorem spares_foldl {acts : List Act} (h : air.Orderly) (hacts : ∀ x ∈ acts, x.Avoids q air) :
    Spares q air (acts.foldl perform air) ∧
      ∀ id, (acts.foldl perform air).place? id = some q → air.place? id = some q := by
  induction acts generalizing air with
  | nil => exact ⟨.refl h, fun _ hid => hid⟩
  | cons x acts ih =>
    have hx := hacts x List.mem_cons_self
    have hfirst := spares_perform h hx
    obtain ⟨hrest, hplace⟩ := ih hfirst.orderly fun y hy =>
      (hacts y (List.mem_cons_of_mem _ hy)).mono hfirst
    exact ⟨hfirst.trans hrest, fun id hid => place?_of_avoids hx (hplace id hid)⟩

/-- `listen` spares every place, its own too. -/
theorem spares_listen (h : air.Orderly) (owner : Address) (e : Endpoint) :
    Spares q air (air.listen owner e).2 :=
  (effect_listen owner e).spares h (fun _ _ => remote?_perform (.listen owner e)) nofun nofun

/-! ### A listener that is closed -/

/-- The listener `id` goes away, after it has accepted the link `taken`, if any; the others in its
queue are refused. -/
structure Settles (id : Nat) (taken : Option Nat) (air air' : Air) : Prop where
  orderly : air'.Orderly
  opened : air'.opened = air.opened
  remote : ∀ e a, air.remote? e = some a → air'.remote? e = some a
  place : ∀ id', air'.place? id' = if id' = id then none else air.place? id'
  mem : ∀ i, taken = some i → i ∈ air.queue id ∧ air.phase? i = some .waiting
  phase : ∀ j, air'.phase? j = if taken = some j then some .accepted
    else if j ∈ air.queue id ∧ air.phase? j = some .waiting then some .refused else air.phase? j
  waits : ∀ id', id' ≠ id → ∀ j ∈ air.queue id', air.phase? j = some .waiting → j ∈ air'.queue id'

namespace Settles

variable {taken : Option Nat}

theorem settled (h : Settles id taken air air') {p : Link.Phase} (hp : air.phase? i = some p)
    (hne : p ≠ .waiting) : air'.phase? i = some p ∧ taken ≠ some i := by
  have hwaiting : air.phase? i ≠ some .waiting := fun heq =>
    hne (Option.some.inj (hp.symm.trans heq))
  have htaken : taken ≠ some i := fun heq => hwaiting (h.mem i heq).2
  exact ⟨by rw [h.phase, if_neg htaken, if_neg fun hboth => hwaiting hboth.2, hp], htaken⟩

/-- A link that waits at the place `q` is accepted, is refused, or goes on waiting there. -/
theorem turn (h : Settles id taken air air') (hair : air.Orderly) (hi : air.Stands q i)
    (hw : air.phase? i = some .waiting) :
    taken = some i ∧ air.place? id = some q ∧ air'.phase? i = some .accepted ∨
      taken ≠ some i ∧ (air'.phase? i = some .refused ∨
        air'.phase? i = some .waiting ∧ air'.Stands q i) := by
  obtain ⟨id', hid, hmem⟩ := hi
  have hphase := h.phase i
  by_cases htaken : taken = some i
  · obtain rfl := hair.one id' id i hmem (h.mem i htaken).1
    exact .inl ⟨htaken, hid, hphase.trans (if_pos htaken)⟩
  · rw [if_neg htaken] at hphase
    refine .inr ⟨htaken, ?_⟩
    by_cases heq : id' = id
    · exact .inl (hphase.trans (if_pos ⟨heq ▸ hmem, hw⟩))
    · have hnot : i ∉ air.queue id := fun hmem' => heq (hair.one id' id i hmem hmem')
      refine .inr ⟨?_, id', ?_, h.waits id' heq i hmem hw⟩
      · rw [hphase, if_neg fun hboth => hnot hboth.1, hw]
      · rw [h.place, if_neg heq, hid]

/-- Nothing in the queue of `id` is left waiting. -/
theorem answered (h : Settles id taken air air') (hmem : i ∈ air.queue id) :
    air'.phase? i ≠ some .waiting := by
  rw [h.phase]
  split
  · exact nofun
  · split
    · exact nofun
    · next hnot => exact fun hw => hnot ⟨hmem, hw⟩

end Settles

theorem settles_close (h : air.Orderly) (id : Nat) :
    Settles id none air (air.closeListener id) := by
  have horderly := h.perform (.close id)
  have hremote (e : LinkEnd) (a : Address) : air.remote? e = some a →
      (air.closeListener id).remote? e = some a := remote?_perform (.close id)
  have he := air.effect_close id
  unfold note at he
  dsimp only at he
  by_cases hopen : (air.place? id).isSome = true
  · rw [if_pos hopen] at he
    cases he with
    | closes _ here phase queue place opened =>
      refine ⟨horderly, opened, hremote, place, nofun, phase, fun id' hne j hmem hw => ?_⟩
      rwa [queue, if_neg hne]
  · have hnone : air.listeners.get? id = none := by
      simpa [place?] using hopen
    have hsame : air.closeListener id = air := by
      unfold closeListener
      rw [hnone]
    have hempty : air.queue id = [] := by
      rw [queue, hnone]
      rfl
    rw [hsame]
    refine ⟨h, rfl, fun _ _ he => he, fun id' => ?_, nofun, fun j => ?_, fun _ _ _ hmem _ => hmem⟩
    · split
      · next heq => rw [heq, place?, hnone]; rfl
      · rfl
    · rw [hempty]
      simp

/-- An `Effect` that is noted as `other`, and opens no listener, changes no phase or place and takes
nothing that waits out of its queue. -/
theorem Effect.quiet (he : air.Effect air' .other) (hopened : air'.opened = air.opened) :
    (∀ j, air'.phase? j = air.phase? j) ∧ (∀ id, air'.place? id = air.place? id) ∧
      ∀ id j, air.phase? j = some .waiting → (j ∈ air'.queue id ↔ j ∈ air.queue id) := by
  cases he with
  | keeps hk => exact ⟨hk.phase, hk.place, fun id j _ => by rw [hk.queue]⟩
  | opens _ _ _ _ opened => omega
  | clears id gone phase queue place =>
    refine ⟨phase, place, fun id' j hw => ?_⟩
    rw [queue]
    split
    · next heq =>
      refine ⟨nofun, fun hmem => ?_⟩
      rcases gone j (heq ▸ hmem) with hgone | hgone <;> rw [hgone] at hw <;> cases hw
    · exact .rfl

/-- When `accept` fails, nothing waits in the queue, and closing the listener then `Settles` it. -/
theorem settles_of_error {fault : LinkError} (h : air.Orderly)
    (haccept : (air.accept id).1 = .error fault) :
    Settles id none air ((air.accept id).2.closeListener id) := by
  have he := air.effect_accept id
  have hnote : air.note (.accept id) = .other := by
    unfold note
    dsimp only
    split
    · next heq => rw [heq] at haccept; cases haccept
    · rfl
  rw [hnote] at he
  obtain ⟨hphase, hplace, hqueue⟩ := he.quiet (opened_perform (x := .accept id) fun _ _ => nofun)
  have hclose := settles_close (h.effect he) id
  refine ⟨hclose.orderly, hclose.opened.trans (opened_perform (x := .accept id) fun _ _ => nofun),
    fun e a hea => hclose.remote e a (remote?_perform (.accept id) hea), fun id' => ?_, nofun,
    fun j => ?_, fun id' hne j hmem hw => ?_⟩
  · rw [hclose.place, hplace]
  · have hsame : (j ∈ (air.accept id).2.queue id ∧ (air.accept id).2.phase? j = some .waiting)
        = (j ∈ air.queue id ∧ air.phase? j = some .waiting) := by
      rw [hphase]
      exact propext (and_congr_left fun hw => hqueue id j hw)
    rw [hclose.phase]
    simp only [hsame]
    rw [hphase]
  · exact hclose.waits id' hne j ((hqueue id' j hw).2 hmem) ((hphase j).trans hw)

theorem settles_of_connected {stream : LinkEnd} (h : air.Orderly)
    (haccept : air.accept id = (.connected stream, air')) :
    stream = ⟨stream.link, .callee⟩ ∧
    Settles id (some stream.link) air (air'.closeListener id) := by
  have he := air.effect_accept id
  have hnote : air.note (.accept id) = .handedOut id stream (air'.remote? stream) := by
    unfold note
    dsimp only
    rw [haccept]
  have hair : air' = (air.accept id).2 := by rw [haccept]
  rw [hnote, ← hair] at he
  have horderly := h.effect he
  generalize hsender : air'.remote? stream = sender at he
  cases he with
  | accepts _ i skipped rest before gone here phase queue place opened size =>
    have hclose := settles_close horderly id
    have hmem : i ∈ air.queue id := by rw [before]; simp
    have hw := h.waiting_of_mem hmem here
    -- what the queue still holds is what it held but for the link that was accepted
    have hrest (j : Nat) (hj : air.phase? j = some .waiting) (hji : j ≠ i) :
        j ∈ rest ↔ j ∈ air.queue id := by
      rw [before]
      refine ⟨fun hj' => by simp [hj'], fun hj' => ?_⟩
      rcases List.mem_append.1 hj' with hskip | hcons
      · rcases gone j hskip with hgone | hgone <;> rw [hgone] at hj <;> cases hj
      · exact (List.mem_cons.1 hcons).resolve_left hji
    refine ⟨rfl, hclose.orderly, hclose.opened.trans opened, fun e a hea => hclose.remote e a ?_,
      fun id' => ?_, ?_, fun j => ?_, fun id' hne j hj hwj => ?_⟩
    · rw [hair]
      exact remote?_perform (.accept id) hea
    · rw [hclose.place, place]
    · rintro _ ⟨⟩
      exact ⟨hmem, hw⟩
    · rw [hclose.phase, if_neg nofun, phase, queue, if_pos rfl]
      by_cases hji : j = i
      · subst hji
        simp
      · have hij : ¬ some i = some j := fun heq => hji (Option.some.inj heq).symm
        have hsame : (j ∈ rest ∧ air.phase? j = some .waiting)
            = (j ∈ air.queue id ∧ air.phase? j = some .waiting) :=
          propext (and_congr_left fun hwj => hrest j hwj hji)
        simp only [if_neg hji, if_neg hij, hsame]
    · refine hclose.waits id' hne j (by rwa [queue, if_neg hne]) ?_
      have hji : j ≠ i := fun heq => hne (h.one id' id j hj (heq ▸ hmem))
      rw [phase, if_neg hji, hwj]

/-- When some link waits in the queue of `id`, `accept` brings a connection at once. -/
theorem accept_of_waiting (h : air.Orderly) (hmem : i ∈ air.queue id)
    (hw : air.phase? i = some .waiting) : ∃ stream air' sender,
      air.accept id = (.connected stream, air') ∧ air'.remote? stream = some sender := by
  obtain ⟨l, hl⟩ : ∃ l, air.listeners.get? id = some l := by
    refine Option.ne_none_iff_exists'.1 fun hnone => Orderly.place_of_mem hmem ?_
    rw [place?, hnone]
    rfl
  have hskip : air.skipAbandoned l.queue ≠ [] := fun hnil => by
    have hall := List.takeWhile_append_dropWhile
      (p := fun i => (air.links[i]?).all (·.phase = .abandoned)) (l := l.queue)
    rw [skipAbandoned] at hnil
    rw [hnil, List.append_nil] at hall
    rw [queue_of_get? hl, ← hall] at hmem
    have hgone : air.IsGone i := isGone_iff.2 (List.all_eq_true.1 List.all_takeWhile i hmem)
    rcases hgone with hgone | hgone <;> rw [hgone] at hw <;> cases hw
  obtain ⟨j, rest, hj⟩ := List.exists_cons_of_ne_nil hskip
  have haccept : air.accept id = (.connected ⟨j, .callee⟩, (air.accept id).2) := by
    unfold accept
    rw [hl]
    dsimp only
    rw [hj]
  -- the link is there, and so is the address at its other end
  have hlt : j < air.links.size := by
    have hmem : j ∈ air.queue id := by
      rw [queue_of_get? hl]
      exact (List.dropWhile_sublist _).subset (by rw [skipAbandoned] at hj; rw [hj]; simp)
    exact (h.queued id j hmem).elim lt_size_of_phase lt_size_of_phase
  have hsender : air.remote? ⟨j, .callee⟩ = some (air.links[j].half .caller).address := by
    rw [remote?, Array.getElem?_eq_getElem hlt]
    rfl
  exact ⟨_, _, _, haccept, remote?_perform (.accept id) hsender⟩

theorem phase?_abandon (h : air.phase? i = some .waiting) :
    (air.abandon i).phase? i = some .abandoned := by
  obtain ⟨l, hl, hphase⟩ := Option.map_eq_some_iff.1 h
  rw [abandon, phase?_updateLink, if_pos rfl, hl, Option.map_some]
  simp only [hphase]

/-! ### Where endpoints lead -/

/-- Every number in `endpoints` is known, and leads to a listener that was opened at that endpoint,
or to none. -/
def Registered (air : Air) : Prop :=
  ∀ a e id, (e, id) ∈ (air.radio a).endpoints →
    id ≤ air.opened ∧ ∀ q, air.place? id = some q → q = (a, e)

theorem registered_empty : ({} : Air).Registered := fun _ _ _ hmem => nomatch hmem

/-- An endpoint comes into `endpoints` only by `listen` there. -/
theorem endpoints_perform {x : Act} {a : Address} {e : Endpoint}
    (h : (e, id) ∈ ((air.perform x).radio a).endpoints) :
    (e, id) ∈ (air.radio a).endpoints ∨ x = .listen a e ∧ id = air.opened + 1 := by
  obtain ⟨hopens, hid⟩ | ⟨hold, -⟩ := mem_endpoints_perform.1 h
  · exact .inr ⟨hopens.1, hid⟩
  · exact .inl hold

theorem opened_le_perform (air : Air) (x : Act) : air.opened ≤ (air.perform x).opened := by
  cases x with
  | listen owner e =>
    unfold perform listen
    dsimp only
    split <;> exact Nat.le_succ _
  | _ =>
    refine Nat.le_of_eq (opened_perform fun owner e heq => ?_).symm
    cases heq

theorem Registered.perform (h : air.Registered) (hair : air.Orderly) (x : Act) :
    (air.perform x).Registered := by
  intro a e id hmem
  obtain hold | ⟨rfl, rfl⟩ := endpoints_perform hmem
  · obtain ⟨hle, hq⟩ := h a e id hold
    refine ⟨Nat.le_trans hle (air.opened_le_perform x), fun q hid => ?_⟩
    obtain hid | ⟨-, hid⟩ := place?_perform hid
    · exact hq q hid
    · omega
  · refine ⟨?_, fun q hid => ?_⟩
    · show air.opened + 1 ≤ (air.listen a e).2.opened
      unfold listen
      dsimp only
      split <;> exact Nat.le_refl _
    · obtain hid | ⟨heq, -⟩ := place?_perform hid
      · have := hair.numbered _ (by rw [hid]; exact Option.some_ne_none _)
        omega
      · cases heq
        rfl

theorem opened_le_foldl (air : Air) (acts : List Act) :
    air.opened ≤ (acts.foldl Air.perform air).opened := by
  induction acts generalizing air with
  | nil => exact Nat.le_refl _
  | cons x acts ih => exact Nat.le_trans (air.opened_le_perform x) (ih _)

/-- A listener at the place `q` after `acts` was there before, or has a new number. -/
theorem fresh_foldl {acts : List Act} {id : Nat}
    (hid : (acts.foldl Air.perform air).place? id = some q) :
    air.place? id = some q ∨ air.opened < id := by
  induction acts generalizing air with
  | nil => exact .inl hid
  | cons x acts ih =>
    have hstep := air.opened_le_perform x
    obtain hid | hlt := ih hid
    · obtain hid | ⟨-, heq⟩ := place?_perform hid
      · exact .inl hid
      · exact .inr (by omega)
    · exact .inr (Nat.lt_of_le_of_lt hstep hlt)

theorem Registered.foldl (h : air.Registered) (hair : air.Orderly) (acts : List Act) :
    (acts.foldl Air.perform air).Registered := by
  induction acts generalizing air with
  | nil => exact h
  | cons x acts ih => exact ih (h.perform hair x) (hair.perform x)

/-- Every number in `endpoints` leads to a listener that is open at that endpoint. -/
def Leads (air : Air) : Prop :=
  ∀ a e id, (e, id) ∈ (air.radio a).endpoints → air.place? id = some (a, e)

theorem leads_empty : ({} : Air).Leads := fun _ _ _ hmem => nomatch hmem

/-- A listener stays where it is until it is closed. -/
theorem place?_perform_of_ne {x : Act} (h : air.Orderly) (hx : x ≠ .close id)
    (hid : air.place? id = some q) : (air.perform x).place? id = some q := by
  have he := air.effect x
  generalize hnote : air.note x = entry at he
  cases he with
  | keeps hk | answers hk | leaves hk => exact (hk.place id).trans hid
  | opens _ _ _ place =>
    have hle := h.numbered id (hid ▸ Option.some_ne_none q)
    exact (place id (by omega)).trans hid
  | joins _ _ _ _ _ _ place | givesUp _ _ _ _ place | accepts _ _ _ _ _ _ _ _ _ place
  | clears _ _ _ _ place => exact (place id).trans hid
  | closes id' _ _ _ place =>
    have hne : id ≠ id' := fun heq => hx (heq ▸ note_eq_closed hnote)
    rw [place, if_neg hne, hid]

theorem Leads.perform (h : air.Leads) (hair : air.Orderly) (x : Act) : (air.perform x).Leads := by
  intro a e id hmem
  obtain ⟨⟨rfl, hon⟩, rfl⟩ | ⟨hold, -, -, hclosed⟩ := mem_endpoints_perform.1 hmem
  · have hlisten : (air.listen a e).2.listeners
        = air.listeners.insert (air.opened + 1) ⟨a, e, []⟩ :=
      congrArg (fun r : Except LinkError Nat × Air => r.2.listeners) (if_pos hon)
    rw [place?, Air.perform, hlisten, Table.get?_insert, if_pos rfl]
    rfl
  · have hid := h a e id hold
    exact place?_perform_of_ne hair (fun hx => hclosed ⟨hx, hid⟩) hid

theorem Leads.foldl (h : air.Leads) (hair : air.Orderly) (acts : List Act) :
    (acts.foldl Air.perform air).Leads := by
  induction acts generalizing air with
  | nil => exact h
  | cons x acts ih => exact ih (h.perform hair x) (hair.perform x)

theorem place?_of_reach (h : air.Registered) {caller callee : Address} {e : Endpoint}
    {l : Listener} (hreach : air.reach caller callee e = .ok (id, l)) :
    air.place? id = some (callee, e) := by
  unfold reach at hreach
  split at hreach
  · cases hreach
  · split at hreach
    · cases hreach
    · split at hreach
      · cases hreach
      · split at hreach
        · cases hreach
        · next e' id' hfind =>
          split at hreach
          · cases hreach
          · next l' hl =>
            split at hreach
            · cases hreach
              have hplace : air.place? id = some (l.owner, l.endpoint) := by
                rw [place?, hl]
                rfl
              have he : e' = e := by simpa using List.find?_some hfind
              rw [hplace, (h callee e' id (List.mem_of_find?_eq_some hfind)).2 _ hplace, he]
            · cases hreach

/-- A `connect` that is not turned away leaves its link standing at the place it was for. -/
theorem stands_connect (h : air.Registered) {caller callee : Address} {e : Endpoint} {link : Nat}
    (hlink : (air.connect caller callee e).1 = .ok link) :
    (air.connect caller callee e).2.Stands (callee, e) link := by
  have he := air.effect_connect caller callee e
  unfold note at he
  dsimp only at he
  split at he
  · next id l hreach =>
    have hlink : air.links.size = link := by
      unfold connect at hlink
      rw [hreach] at hlink
      exact Except.ok.inj hlink
    have hplace := place?_of_reach h hreach
    cases he with
    | joins _ _ _ phase queue here place =>
      refine ⟨id, (place id).trans hplace, ?_⟩
      rw [queue, if_pos rfl, hlink]
      simp
  · next hreach =>
    unfold connect at hlink
    rw [hreach] at hlink
    cases hlink

end RadioLink.Air

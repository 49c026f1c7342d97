import RadioLink.Proofs.Air

/-!
# What can be done to the air

Everything that anybody does to the air is an `Air.Act`, and `Air.note` keeps an `Air.Entry` of
each. Links have phases (`phase?`) and listeners have queues (`queue`); `Air.effect` says once and
for all what an act can make of them, by the entry. What holds of all queues at all times is
`Air.Orderly`: a link that waits is in the queue of just one listener, once, and what is in a queue
waits or has been given up.

    effect         : air.Effect (air.perform act) (air.note act)
    Orderly.effect : air.Orderly → air.Effect air' entry → air'.Orderly
-/

namespace RadioLink

namespace Air

/-- Something that can be done to the air. -/
inductive Act where
  | listen (owner : Address) (e : Endpoint)
  | close (id : Nat)
  | connect (caller callee : Address) (e : Endpoint)
  /-- The caller of `link` asks what has become of its attempt; the air stays as it is. -/
  | ask (link : Nat)
  | abandon (link : Nat)
  | accept (id : Nat)
  | write (e : LinkEnd) (bytes : Bytes)
  | read (e : LinkEnd) (size : Nat)
  | shutdown (e : LinkEnd)
  | drop (e : LinkEnd)
  | disrupt (e : LinkEnd) (fault : StreamFault)
  | switchOn (a : Address)
  | switchOff (a : Address)
  | bond (a b : Address)
  | unbond (a b : Address)
  | failNext (a : Address) (count : Nat)
  | cancelDiscovery (a : Address)
  deriving DecidableEq

/-- The air after the act. -/
def perform (air : Air) : Act → Air
  | .listen owner e => (air.listen owner e).2
  | .close id => air.closeListener id
  | .connect caller callee e => (air.connect caller callee e).2
  | .ask _ => air
  | .abandon link => air.abandon link
  | .accept id => (air.accept id).2
  | .write e bytes => (air.write e bytes).2
  | .read e size => (air.read e size).2
  | .shutdown e => air.shutdown e
  | .drop e => air.drop e
  | .disrupt e fault => air.disrupt e fault
  | .switchOn a => air.switchOn a
  | .switchOff a => air.switchOff a
  | .bond a b => air.bond a b
  | .unbond a b => air.unbond a b
  | .failNext a count => air.failNext a count
  | .cancelDiscovery a => air.cancelDiscovery a

/-! ### Phases and queues -/

/-- The `Link.Phase` of link `i`, if there is such a link. -/
def phase? (air : Air) (i : Nat) : Option Link.Phase := air.links[i]?.map (·.phase)

/-- The links in the queue of the listener `id`, `[]` when there is none. -/
def queue (air : Air) (id : Nat) : List Nat := ((air.listeners.get? id).map (·.queue)).getD []

/-- Where the listener `id` was opened, unless it has gone away. -/
def place? (air : Air) (id : Nat) : Option (Address × Endpoint) :=
  (air.listeners.get? id).map fun l => (l.owner, l.endpoint)

variable {air air' : Air} {id : Nat} {i : Nat}

theorem phase?_eq_none_iff : air.phase? i = none ↔ air.links.size ≤ i := by
  simp [phase?]

theorem lt_size_of_phase {p : Link.Phase} (h : air.phase? i = some p) : i < air.links.size := by
  refine Nat.lt_of_not_le fun hle => ?_
  rw [phase?_eq_none_iff.2 hle] at h
  cases h

theorem queue_of_get? {l : Listener} (h : air.listeners.get? id = some l) :
    air.queue id = l.queue := by
  rw [queue, h]
  rfl

theorem queue_of_place?_eq_none (h : air.place? id = none) : air.queue id = [] := by
  rw [place?, Option.map_eq_none_iff] at h
  rw [queue, h]
  rfl

theorem phase?_updateLink {f : Link → Link} (j : Nat) :
    (air.updateLink j f).phase? i
      = if j = i then air.links[i]?.map fun l => (f l).phase else air.phase? i := by
  simp only [phase?, updateLink, Array.getElem?_modify]
  split
  · rw [Option.map_map]
    rfl
  · rfl

end Air

namespace Link

theorem phase_setHalf (l : Link) (h : Half) (side : Side) : (l.setHalf h side).phase = l.phase := by
  cases side <;> rfl

theorem phase_write (l : Link) (side : Side) (bytes : Bytes) :
    (l.write side bytes).2.phase = l.phase := by
  unfold write
  dsimp only
  split <;> exact phase_setHalf ..

theorem phase_read (l : Link) (side : Side) (size : Nat) :
    (l.read side size).2.phase = l.phase := by
  unfold read
  dsimp only
  split
  · exact (phase_setHalf ..).trans (phase_setHalf ..)
  · exact phase_setHalf ..

/-- The address at the end of `l` on `side`. -/
def address (l : Link) (side : Side) : Address := (l.half side).address

theorem address_setHalf {l : Link} {h : Half} {side : Side} (hh : h.address = l.address side)
    (side' : Side) : (l.setHalf h side).address side' = l.address side' := by
  rw [address, half_setHalf]
  split
  · next heq => rw [heq, hh]
  · rfl

theorem address_write (l : Link) (side side' : Side) (bytes : Bytes) :
    (l.write side bytes).2.address side' = l.address side' := by
  unfold write
  dsimp only
  split <;> exact address_setHalf (by rfl) side'

theorem address_read (l : Link) (side side' : Side) (size : Nat) :
    (l.read side size).2.address side' = l.address side' := by
  unfold read
  dsimp only
  split
  · exact (address_setHalf (by rfl) side').trans (address_setHalf (by rfl) side')
  · exact address_setHalf (by rfl) side'

end Link

namespace Air

variable {air air' : Air} {id : Nat} {i : Nat}

/-! ### Acts that change neither -/

/-- Every `phase?`, `queue` and `place?` is as before, and so are the numbers of listeners and
links. -/
structure Keeps (air air' : Air) : Prop where
  phase : ∀ i, air'.phase? i = air.phase? i
  queue : ∀ id, air'.queue id = air.queue id
  place : ∀ id, air'.place? id = air.place? id
  opened : air'.opened = air.opened
  size : air'.links.size = air.links.size

theorem keeps_refl : air.Keeps air :=
  ⟨fun _ => rfl, fun _ => rfl, fun _ => rfl, rfl, rfl⟩

/-- An air with other `radios` has the same links and listeners. -/
theorem keeps_of_radios (radios : Table Address Radio) : air.Keeps { air with radios } :=
  ⟨fun _ => rfl, fun _ => rfl, fun _ => rfl, rfl, rfl⟩

/-- `updateLink` keeps the phases when `f` does, as it does when only the streams change. -/
theorem keeps_updateLink {f : Link → Link} (j : Nat)
    (hphase : ∀ l, air.links[j]? = some l → (f l).phase = l.phase) :
    air.Keeps (air.updateLink j f) where
  phase i := by
    rw [phase?_updateLink, phase?]
    split
    · next hji =>
      subst hji
      exact Option.map_congr hphase
    · rfl
  queue _ := rfl
  place _ := rfl
  opened := rfl
  size := Array.size_modify

theorem keeps_write (e : LinkEnd) (bytes : Bytes) : air.Keeps (air.write e bytes).2 := by
  unfold write
  split
  · exact keeps_refl
  · next l hl =>
    refine keeps_updateLink e.link fun l' hl' => ?_
    cases hl.symm.trans hl'
    exact l.phase_write e.side bytes

theorem keeps_read (e : LinkEnd) (size : Nat) : air.Keeps (air.read e size).2 := by
  unfold read
  split
  · exact keeps_refl
  · next l hl =>
    refine keeps_updateLink e.link fun l' hl' => ?_
    cases hl.symm.trans hl'
    exact l.phase_read e.side size

theorem keeps_shutdown (e : LinkEnd) : air.Keeps (air.shutdown e) :=
  keeps_updateLink e.link fun l _ => l.phase_setHalf _ _

theorem keeps_drop (e : LinkEnd) : air.Keeps (air.drop e) :=
  keeps_updateLink e.link fun _ _ => rfl

theorem keeps_disrupt (e : LinkEnd) (fault : StreamFault) : air.Keeps (air.disrupt e fault) :=
  keeps_updateLink e.link fun l _ => l.phase_setHalf _ _

/-- `abandon` of a link that does not wait changes no phase. -/
theorem keeps_abandon (h : air.phase? i ≠ some .waiting) : air.Keeps (air.abandon i) := by
  refine keeps_updateLink i fun l hl => ?_
  have hl : air.phase? i = some l.phase := by rw [phase?, hl, Option.map_some]
  split
  · next heq => exact absurd (hl.trans (congrArg some heq)) h
  · rfl
  · rfl

/-! ### What is noted -/

/-- What can be told afterwards of an `Act`. -/
inductive Entry where
  /-- An attempt has joined the queue of `listener`, as `link`. -/
  | queued (link listener : Nat) (caller callee : Address)
  /-- The caller of `link` has heard what has become of its attempt. -/
  | answered (link : Nat) (result : Except LinkError LinkEnd)
  /-- The caller of `link` has given up; `early` if nobody had answered it yet. -/
  | gaveUp (link : Nat) (early : Bool)
  /-- `listener` has handed out `stream`, and told `sender` as the address at the other end. -/
  | handedOut (listener : Nat) (stream : LinkEnd) (sender : Option Address)
  /-- `listener` has gone away. -/
  | closed (listener : Nat)
  /-- Nothing that concerns connections. -/
  | other

/-- The entry for an act: `other` for an attempt that reaches nobody, a listener that has nothing to
accept, and all that is no matter of connections. -/
def note (air : Air) : Act → Entry
  | .connect caller callee e =>
    match air.reach caller callee e with
    | .ok (id, _) => .queued air.links.size id caller callee
    | .error _ => .other
  | .ask link =>
    match air.phase? link, air.answer? link with
    | some _, some result => .answered link result
    | _, _ => .other
  | .abandon link =>
    if link < air.links.size then .gaveUp link (air.answer? link).isNone else .other
  | .accept id =>
    match air.accept id with
    | (.connected stream, air) => .handedOut id stream (air.remote? stream)
    | _ => .other
  | .close id => if (air.place? id).isSome then .closed id else .other
  | _ => .other

/-- `answer?` depends on `phase?` alone. -/
theorem answer?_eq (i : Nat) : air.answer? i =
    match air.phase? i with
    | some .waiting => none
    | some .accepted => some (.ok ⟨i, .caller⟩)
    | _ => some (.error (.connectFailed .listenerClosed)) := by
  rw [answer?, phase?]
  cases air.links[i]? with
  | none => rfl
  | some l =>
    obtain ⟨caller, callee, phase⟩ := l
    cases phase <;> rfl

theorem answer?_eq_none_iff : air.answer? i = none ↔ air.phase? i = some .waiting := by
  rw [answer?_eq]
  split <;> simp_all

/-! ### What an act can do -/

/-- Link `i` has been given up, or there is none: nobody waits for it. -/
def IsGone (air : Air) (i : Nat) : Prop := air.phase? i = none ∨ air.phase? i = some .abandoned

/-- What an act that is noted as the entry can make of the phases and the queues of `air`. -/
inductive Effect (air air' : Air) : Entry → Prop where
  | keeps (h : air.Keeps air') : Effect air air' .other
  | answers (h : air.Keeps air') (i : Nat) (r : Except LinkError LinkEnd)
      (known : air.phase? i ≠ none) (answer : air.answer? i = some r) :
      Effect air air' (.answered i r)
  /-- A caller leaves that has been answered already. -/
  | leaves (h : air.Keeps air') (i : Nat) (known : air.phase? i ≠ none)
      (answered : air.phase? i ≠ some .waiting) : Effect air air' (.gaveUp i false)
  /-- `listen`, also where the radio refuses: the number `air.opened + 1` is used up, its queue is
  empty. -/
  | opens (phase : ∀ i, air'.phase? i = air.phase? i)
      (queue : ∀ id, id ≠ air.opened + 1 → air'.queue id = air.queue id)
      (fresh : air'.queue (air.opened + 1) = [] ∨
        air'.queue (air.opened + 1) = air.queue (air.opened + 1))
      (place : ∀ id, id ≠ air.opened + 1 → air'.place? id = air.place? id)
      (opened : air'.opened = air.opened + 1) (size : air'.links.size = air.links.size) :
      Effect air air' .other
  /-- A new link joins the queue of `id`, and waits. -/
  | joins (id : Nat) (caller callee : Address)
      (phase : ∀ i, air'.phase? i = if i = air.links.size then some .waiting else air.phase? i)
      (queue : ∀ id', air'.queue id'
        = if id' = id then air.queue id ++ [air.links.size] else air.queue id')
      (here : air.place? id ≠ none) (place : ∀ id', air'.place? id' = air.place? id')
      (opened : air'.opened = air.opened) (size : air'.links.size = air.links.size + 1)
      (sender : air'.remote? ⟨air.links.size, .callee⟩ = some caller) :
      Effect air air' (.queued air.links.size id caller callee)
  /-- The caller of `i` gives up while it waits; the link stays in its queue. -/
  | givesUp (i : Nat) (waiting : air.phase? i = some .waiting)
      (phase : ∀ j, air'.phase? j = if j = i then some .abandoned else air.phase? j)
      (queue : ∀ id, air'.queue id = air.queue id)
      (place : ∀ id, air'.place? id = air.place? id) (opened : air'.opened = air.opened)
      (size : air'.links.size = air.links.size) : Effect air air' (.gaveUp i true)
  /-- `i` is taken out of the queue of `id`, past links that are gone. -/
  | accepts (id i : Nat) (skipped rest : List Nat)
      (before : air.queue id = skipped ++ i :: rest) (gone : ∀ j ∈ skipped, air.IsGone j)
      (here : ¬ air.IsGone i)
      (phase : ∀ j, air'.phase? j = if j = i then some .accepted else air.phase? j)
      (queue : ∀ id', air'.queue id' = if id' = id then rest else air.queue id')
      (place : ∀ id', air'.place? id' = air.place? id') (opened : air'.opened = air.opened)
      (size : air'.links.size = air.links.size) :
      Effect air air' (.handedOut id ⟨i, .callee⟩ (air'.remote? ⟨i, .callee⟩))
  /-- The queue of `id`, with nothing in it but links that are gone, is cleared. -/
  | clears (id : Nat) (gone : ∀ j ∈ air.queue id, air.IsGone j)
      (phase : ∀ j, air'.phase? j = air.phase? j)
      (queue : ∀ id', air'.queue id' = if id' = id then [] else air.queue id')
      (place : ∀ id', air'.place? id' = air.place? id') (opened : air'.opened = air.opened)
      (size : air'.links.size = air.links.size) : Effect air air' .other
  /-- The listener `id` goes away, and what waits in its queue is refused. -/
  | closes (id : Nat) (here : air.place? id ≠ none)
      (phase : ∀ j, air'.phase? j = if j ∈ air.queue id ∧ air.phase? j = some .waiting
        then some .refused else air.phase? j)
      (queue : ∀ id', air'.queue id' = if id' = id then [] else air.queue id')
      (place : ∀ id', air'.place? id' = if id' = id then none else air.place? id')
      (opened : air'.opened = air.opened) (size : air'.links.size = air.links.size) :
      Effect air air' (.closed id)

theorem effect_listen (owner : Address) (e : Endpoint) :
    air.Effect (air.listen owner e).2 .other := by
  unfold listen
  dsimp only
  split
  · have hget (id : Nat) (h : id ≠ air.opened + 1) :
        (air.listeners.insert (air.opened + 1) ⟨owner, e, []⟩).get? id = air.listeners.get? id := by
      rw [Table.get?_insert, if_neg (Ne.symm h)]
    refine .opens (fun _ => rfl) (fun id h => ?_) (.inl ?_) (fun id h => ?_) rfl rfl
    · simp only [queue, hget id h]
    · simp [queue]
    · simp only [place?, hget id h]
  · exact .opens (fun _ => rfl) (fun _ _ => rfl) (.inr rfl) (fun _ _ => rfl) rfl rfl

theorem effect_connect (caller callee : Address) (e : Endpoint) :
    air.Effect (air.connect caller callee e).2 (air.note (.connect caller callee e)) := by
  unfold connect note
  dsimp only
  split
  · next hreach =>
    rw [hreach]
    exact .keeps (keeps_of_radios _)
  · next id l hreach =>
    rw [hreach]
    -- a listener that can be reached is there, whatever else stood in the way
    have hl : air.listeners.get? id = some l := by
      unfold reach at hreach
      split at hreach
      · cases hreach
      · split at hreach
        · cases hreach
        · split at hreach
          · cases hreach
          · split at hreach
            · cases hreach
            · split at hreach
              · cases hreach
              · next hl =>
                split at hreach
                · cases hreach
                  exact hl
                · cases hreach
    refine .joins id caller callee (fun i => ?_) (fun id' => ?_) ?_ (fun id' => ?_) rfl
      (Array.size_push ..) ?_
    · simp only [phase?, Array.getElem?_push]
      split <;> rfl
    · simp only [queue, Table.get?_insert, eq_comm (a := id)]
      split
      · rw [hl]
        rfl
      · rfl
    · rw [place?, hl]
      exact Option.some_ne_none _
    · simp only [place?, Table.get?_insert]
      split
      · next h =>
        rw [← h, hl]
        rfl
      · rfl
    · simp [remote?, Link.half, Side.other]

theorem effect_abandon (i : Nat) : air.Effect (air.abandon i) (air.note (.abandon i)) := by
  unfold note
  dsimp only
  split
  · next hlt =>
    have hknown : air.phase? i ≠ none := fun h => absurd (phase?_eq_none_iff.1 h) (Nat.not_le.2 hlt)
    by_cases hwaiting : air.phase? i = some .waiting
    · rw [answer?_eq_none_iff.2 hwaiting]
      refine .givesUp i hwaiting (fun j => ?_) (fun _ => rfl) (fun _ => rfl) rfl Array.size_modify
      rw [abandon, phase?_updateLink]
      simp only [eq_comm (a := i)]
      split
      · next h =>
        subst h
        obtain ⟨l, hl, hphase⟩ := Option.map_eq_some_iff.1 hwaiting
        rw [hl, Option.map_some]
        simp only [hphase]
      · rfl
    · have hanswer : (air.answer? i).isNone = false := by
        rw [Option.isNone_eq_false_iff, Option.isSome_iff_ne_none]
        exact fun h => hwaiting (answer?_eq_none_iff.1 h)
      rw [hanswer]
      exact .leaves (keeps_abandon hwaiting) i hknown hwaiting
  · next hlt =>
    refine .keeps (keeps_abandon ?_)
    rw [phase?_eq_none_iff.2 (Nat.not_lt.1 hlt)]
    exact nofun

theorem isGone_iff : air.IsGone i ↔ (air.links[i]?).all (·.phase = .abandoned) = true := by
  rw [IsGone, phase?]
  cases air.links[i]? <;> simp

theorem effect_accept (id : Nat) : air.Effect (air.accept id).2 (air.note (.accept id)) := by
  unfold note accept
  dsimp only
  split
  · exact .keeps keeps_refl
  · next l hl =>
    have hqueue : air.queue id = l.queue := queue_of_get? hl
    have hplace {listener : Listener}
        (h : (listener.owner, listener.endpoint) = (l.owner, l.endpoint)) (id' : Nat) :
        ((air.listeners.insert id listener).get? id').map (fun l => (l.owner, l.endpoint))
          = air.place? id' := by
      rw [place?, Table.get?_insert]
      split
      · next heq => rw [← heq, hl, Option.map_some, Option.map_some, h]
      · rfl
    -- what is skipped is just what nobody waits for any more
    have hskip (j : Nat) (hj : j ∈ l.queue.takeWhile fun i => (air.links[i]?).all
        (·.phase = .abandoned)) : air.IsGone j :=
      isGone_iff.2 (List.all_eq_true.1 (List.all_takeWhile ..) j hj)
    have hsplit := List.takeWhile_append_dropWhile
      (p := fun i => (air.links[i]?).all (·.phase = .abandoned)) (l := l.queue)
    split
    · next hrest =>
      rw [skipAbandoned] at hrest
      rw [hrest, List.append_nil] at hsplit
      have hgone : ∀ j ∈ air.queue id, air.IsGone j := by
        rw [hqueue, ← hsplit]
        exact hskip
      have hcleared (id' : Nat) : (((air.listeners.insert id { l with queue := [] }).get? id').map
          (·.queue)).getD [] = if id' = id then [] else air.queue id' := by
        rw [Table.get?_insert]
        simp only [eq_comm (a := id)]
        split <;> rfl
      split <;> exact .clears id hgone (fun _ => rfl) hcleared (hplace rfl) rfl rfl
    · next i rest hrest =>
      rw [skipAbandoned] at hrest
      rw [hrest] at hsplit
      have hhere : ¬ air.IsGone i := fun hgone => by
        have := List.head?_dropWhile_not
          (fun i => (air.links[i]?).all (·.phase = .abandoned)) l.queue
        rw [hrest, List.head?_cons] at this
        exact absurd (isGone_iff.1 hgone) (by simpa using this)
      refine .accepts id i _ rest (hqueue.trans hsplit.symm) hskip hhere (fun j => ?_)
        (fun id' => ?_) (hplace rfl) rfl Array.size_modify
      · show (air.updateLink i _).phase? j = _
        rw [phase?_updateLink]
        simp only [eq_comm (a := i)]
        split
        · next h =>
          subst h
          cases hlink : air.links[j]? with
          | none => exact absurd (.inl (by rw [phase?, hlink]; rfl)) hhere
          | some l => rfl
        · rfl
      · simp only [queue, Table.get?_insert, eq_comm (a := id)]
        split <;> rfl

theorem refuse_refuse (l : Link) : refuse (refuse l) = refuse l := by
  obtain ⟨caller, callee, phase⟩ := l
  cases phase <;> rfl

theorem getElem?_foldl_refuse (queue : List Nat) (links : Array Link) (j : Nat) :
    (queue.foldl (fun links i => links.modify i refuse) links)[j]?
      = if j ∈ queue then links[j]?.map refuse else links[j]? := by
  induction queue generalizing links with
  | nil => rfl
  | cons i queue ih =>
    rw [List.foldl_cons, ih, Array.getElem?_modify]
    by_cases hi : i = j
    · subst hi
      rw [if_pos rfl, if_pos List.mem_cons_self, Option.map_map]
      simp only [Function.comp_def, refuse_refuse, ite_self]
    · simp only [if_neg hi, List.mem_cons, Ne.symm hi, false_or]

theorem size_foldl_refuse (queue : List Nat) (links : Array Link) :
    (queue.foldl (fun links i => links.modify i refuse) links).size = links.size := by
  induction queue generalizing links with
  | nil => rfl
  | cons i queue ih => rw [List.foldl_cons, ih, Array.size_modify]

theorem effect_close (id : Nat) : air.Effect (air.closeListener id) (air.note (.close id)) := by
  unfold note closeListener
  dsimp only
  split
  · next hnone =>
    rw [place?, hnone]
    exact .keeps keeps_refl
  · next l hl =>
    have hplace : air.place? id = some (l.owner, l.endpoint) := by rw [place?, hl, Option.map_some]
    rw [hplace]
    refine .closes id (by rw [hplace]; exact Option.some_ne_none _) (fun j => ?_) (fun id' => ?_)
      (fun id' => ?_) rfl (size_foldl_refuse _ _)
    · show ((l.queue.foldl (fun links i => links.modify i refuse) air.links)[j]?).map (·.phase) = _
      rw [getElem?_foldl_refuse, queue_of_get? hl, phase?]
      by_cases hj : j ∈ l.queue
      · simp only [hj, if_true, true_and]
        cases air.links[j]? with
        | none => simp
        | some l =>
          obtain ⟨caller, callee, phase⟩ := l
          cases phase <;> simp [refuse]
      · simp only [hj, if_false, false_and]
    · show (((air.listeners.erase id).get? id').map (·.queue)).getD [] = _
      rw [Table.get?_erase]
      simp only [eq_comm (a := id)]
      split <;> rfl
    · show ((air.listeners.erase id).get? id').map _ = _
      rw [Table.get?_erase]
      simp only [eq_comm (a := id)]
      split <;> rfl

theorem effect_ask (i : Nat) : air.Effect air (air.note (.ask i)) := by
  unfold note
  dsimp only
  split
  · next hphase hanswer =>
    exact .answers keeps_refl i _ (by rw [hphase]; exact Option.some_ne_none _) hanswer
  · exact .keeps keeps_refl

/-- **What an act makes of the phases and the queues is an `Effect` with what `note` says of it.**
-/
theorem effect (air : Air) (act : Act) : air.Effect (air.perform act) (air.note act) := by
  cases act with
  | listen owner e => exact effect_listen owner e
  | close id => exact effect_close id
  | connect caller callee e => exact effect_connect caller callee e
  | ask link => exact effect_ask link
  | abandon link => exact effect_abandon link
  | accept id => exact effect_accept id
  | write e bytes => exact .keeps (keeps_write e bytes)
  | read e size => exact .keeps (keeps_read e size)
  | shutdown e => exact .keeps (keeps_shutdown e)
  | drop e => exact .keeps (keeps_drop e)
  | disrupt e fault => exact .keeps (keeps_disrupt e fault)
  | switchOn a => exact .keeps (keeps_of_radios _)
  | switchOff a => exact .keeps (keeps_of_radios _)
  | bond a b => exact .keeps (keeps_of_radios _)
  | unbond a b => exact .keeps (keeps_of_radios _)
  | failNext a count => exact .keeps (keeps_of_radios _)
  | cancelDiscovery a => exact .keeps (keeps_of_radios _)

/-! ### Addresses -/

theorem remote?_updateLink {f : Link → Link} {j : Nat} {e : LinkEnd}
    (hf : ∀ l, air.links[j]? = some l → ∀ side, (f l).address side = l.address side) :
    (air.updateLink j f).remote? e = air.remote? e := by
  simp only [remote?, updateLink, Array.getElem?_modify]
  split
  · next hj =>
    rw [← hj, Option.map_map]
    exact Option.map_congr fun l hl => hf l hl e.side.other
  · rfl

/-- `remote?` of an end stays what it is, whatever is done. -/
theorem remote?_perform {e : LinkEnd} {a : Address} (act : Act) (h : air.remote? e = some a) :
    (air.perform act).remote? e = some a := by
  cases act with
  | listen owner endpoint =>
    rw [← h]
    unfold perform listen
    dsimp only
    split <;> rfl
  | close id =>
    unfold perform closeListener
    dsimp only
    split
    · exact h
    · next l _ =>
      -- closing a listener changes the phases of links, and nothing else of them
      show ((l.queue.foldl (fun links i => links.modify i refuse) air.links)[e.link]?).map _ = _
      rw [getElem?_foldl_refuse, ← h, remote?]
      split
      · rw [Option.map_map]
        refine Option.map_congr fun link _ => ?_
        obtain ⟨caller, callee, phase⟩ := link
        cases phase <;> rfl
      · rfl
  | connect caller callee endpoint =>
    unfold perform connect
    dsimp only
    split
    · exact h
    -- the new link is behind those that there were
    · rw [remote?] at h ⊢
      dsimp only
      rw [Array.getElem?_push, if_neg, h]
      intro heq
      rw [heq, Array.getElem?_eq_none (Nat.le_refl _)] at h
      cases h
  | abandon link =>
    refine (remote?_updateLink fun l _ side => ?_).trans h
    split <;> cases side <;> rfl
  | accept id =>
    unfold perform accept
    dsimp only
    split
    · exact h
    · split
      · split <;> exact h
      · exact (remote?_updateLink fun _ _ side => by cases side <;> rfl).trans h
  | write stream bytes =>
    unfold perform write
    dsimp only
    split
    · exact h
    · next l hl =>
      refine (remote?_updateLink fun l' hl' side => ?_).trans h
      cases hl.symm.trans hl'
      exact l.address_write stream.side side bytes
  | read stream size =>
    unfold perform read
    dsimp only
    split
    · exact h
    · next l hl =>
      refine (remote?_updateLink fun l' hl' side => ?_).trans h
      cases hl.symm.trans hl'
      exact l.address_read stream.side side size
  | shutdown stream =>
    exact (remote?_updateLink fun l _ side => l.address_setHalf (by rfl) side).trans h
  | drop stream => exact (remote?_updateLink fun _ _ side => by cases side <;> rfl).trans h
  | disrupt stream fault =>
    exact (remote?_updateLink fun l _ side => l.address_setHalf (by rfl) side).trans h
  | ask _ | switchOn _ | switchOff _ | bond _ _ | unbond _ _ | failNext _ _ | cancelDiscovery _ =>
    exact h

/-! ### Queues in order -/

/-- Each link that waits is in a queue (`waits`); what is in a queue is there once (`once`), in no
other queue (`one`), and waits unless it has been given up (`queued`). -/
structure Orderly (air : Air) : Prop where
  numbered : ∀ id, air.place? id ≠ none → id ≤ air.opened
  queued : ∀ id, ∀ i ∈ air.queue id, air.phase? i = some .waiting ∨ air.phase? i = some .abandoned
  once : ∀ id, (air.queue id).Nodup
  one : ∀ id id' i, i ∈ air.queue id → i ∈ air.queue id' → id = id'
  waits : ∀ i, air.phase? i = some .waiting → ∃ id, i ∈ air.queue id

theorem orderly_empty : ({} : Air).Orderly where
  numbered _ h := absurd rfl h
  queued _ _ h := nomatch h
  once _ := .nil
  one _ _ _ h := nomatch h
  waits _ h := nomatch h

namespace Orderly

theorem place_of_mem (h : i ∈ air.queue id) : air.place? id ≠ none := fun hnone => by
  rw [queue_of_place?_eq_none hnone] at h
  cases h

/-- `Orderly` is kept as long as queues only shrink, and keep whatever waits. -/
theorem shrink (h : air.Orderly)
    (numbered : ∀ id, air'.place? id ≠ none → id ≤ air'.opened)
    (sublist : ∀ id, (air'.queue id).Sublist (air.queue id))
    (queued : ∀ id, ∀ i ∈ air'.queue id,
      air'.phase? i = some .waiting ∨ air'.phase? i = some .abandoned)
    (waits : ∀ i, air'.phase? i = some .waiting → air.phase? i = some .waiting ∧
      ∀ id, i ∈ air.queue id → i ∈ air'.queue id) : air'.Orderly where
  numbered := numbered
  queued := queued
  once id := (h.once id).sublist (sublist id)
  one id id' i hi hi' := h.one id id' i ((sublist id).mem hi) ((sublist id').mem hi')
  waits i hi := by
    obtain ⟨hwaiting, hkept⟩ := waits i hi
    obtain ⟨id, hid⟩ := h.waits i hwaiting
    exact ⟨id, hkept id hid⟩

theorem keeps (h : air.Orderly) (hk : air.Keeps air') : air'.Orderly := by
  refine h.shrink (fun id => ?_) (fun id => ?_) (fun id i => ?_) fun i => ?_
  · rw [hk.place, hk.opened]
    exact h.numbered id
  · exact hk.queue id ▸ List.Sublist.refl _
  · rw [hk.queue, hk.phase]
    exact h.queued id i
  · rw [hk.phase]
    exact fun hi => ⟨hi, fun id hid => hk.queue id ▸ hid⟩

/-- The number of the next listener has no queue yet. -/
theorem queue_fresh (h : air.Orderly) : air.queue (air.opened + 1) = [] := by
  refine queue_of_place?_eq_none (Classical.byContradiction fun hne => ?_)
  have := h.numbered _ hne
  omega

/-- The number of the next link is in no queue. -/
theorem size_not_mem_queue (h : air.Orderly) (id : Nat) : air.links.size ∉ air.queue id := by
  intro hmem
  have hlt := (h.queued id _ hmem).elim lt_size_of_phase lt_size_of_phase
  exact Nat.lt_irrefl _ hlt

theorem joins (h : air.Orderly) {id : Nat}
    (numbered : ∀ id, air'.place? id ≠ none → id ≤ air'.opened)
    (phase : ∀ i, air'.phase? i = if i = air.links.size then some .waiting else air.phase? i)
    (queue : ∀ id', air'.queue id'
      = if id' = id then air.queue id ++ [air.links.size] else air.queue id') : air'.Orderly := by
  have hmem (id' i : Nat) : i ∈ air'.queue id'
      ↔ i ∈ air.queue id' ∨ i = air.links.size ∧ id' = id := by
    rw [queue]
    split
    · next heq => simp [heq]
    · next heq => simp [heq]
  refine ⟨numbered, fun id' i hi => ?_, fun id' => ?_, fun id' id'' i hi hi' => ?_, fun i hi => ?_⟩
  · rw [phase]
    split
    · exact .inl rfl
    · next hne => exact h.queued id' i (((hmem id' i).1 hi).resolve_right fun heq => hne heq.1)
  · rw [queue]
    split
    · exact List.nodup_append.2 ⟨h.once id, List.pairwise_singleton .., fun i hi j hj heq =>
        h.size_not_mem_queue id (List.mem_singleton.1 hj ▸ heq ▸ hi)⟩
    · exact h.once id'
  · rcases (hmem id' i).1 hi with hi | ⟨rfl, rfl⟩
    · rcases (hmem id'' i).1 hi' with hi' | ⟨rfl, -⟩
      · exact h.one id' id'' i hi hi'
      · exact absurd hi (h.size_not_mem_queue id')
    · rcases (hmem id'' _).1 hi' with hi' | ⟨-, rfl⟩
      · exact absurd hi' (h.size_not_mem_queue id'')
      · rfl
  · rw [phase] at hi
    split at hi
    · next heq => exact ⟨id, (hmem id i).2 (.inr ⟨heq, rfl⟩)⟩
    · obtain ⟨id', hid'⟩ := h.waits i hi
      exact ⟨id', (hmem id' i).2 (.inl hid')⟩

/-- `Orderly` is kept when the queue of `id` loses some links that are gone, `skipped`, and then
perhaps one that is accepted, `taken`: nothing that waits is passed over. -/
theorem takes (h : air.Orderly) {id : Nat} {skipped rest : List Nat} (taken : Option Nat)
    (numbered : ∀ id, air'.place? id ≠ none → id ≤ air'.opened)
    (before : air.queue id = skipped ++ (taken.toList ++ rest)) (gone : ∀ j ∈ skipped, air.IsGone j)
    (phase : ∀ j, air'.phase? j = if taken = some j then some .accepted else air.phase? j)
    (queue : ∀ id', air'.queue id' = if id' = id then rest else air.queue id') : air'.Orderly := by
  have hsub (id' : Nat) : (air'.queue id').Sublist (air.queue id') := by
    rw [queue]
    split
    · next heq =>
      rw [heq, before]
      exact (List.sublist_append_right ..).trans (List.sublist_append_right ..)
    · exact .refl _
  -- what is taken out is left in no queue
  have hout (id' j : Nat) (hj : taken = some j) : j ∉ air'.queue id' := fun hmem => by
    have hid : id' = id := h.one id' id j ((hsub id').mem hmem) (by rw [before, hj]; simp)
    rw [queue, if_pos hid] at hmem
    have hnodup := List.nodup_append.1 (List.nodup_append.1 (before ▸ h.once id)).2.1
    exact hnodup.2.2 j (by rw [hj]; simp) j hmem rfl
  refine h.shrink numbered hsub (fun id' j hj => ?_) fun j hj => ?_
  · rw [phase, if_neg fun heq => hout id' j heq hj]
    exact h.queued id' j ((hsub id').mem hj)
  · rw [phase] at hj
    split at hj
    · cases hj
    · next hne =>
      refine ⟨hj, fun id' hid' => ?_⟩
      rw [queue]
      split
      · next heq =>
        rw [heq, before, List.mem_append, List.mem_append, Option.mem_toList] at hid'
        rcases hid' with hskip | htaken | hrest
        · rcases gone j hskip with hgone | hgone <;> rw [hgone] at hj <;> cases hj
        · exact absurd htaken hne
        · exact hrest
      · exact hid'

theorem closes (h : air.Orderly) {id : Nat}
    (numbered : ∀ id, air'.place? id ≠ none → id ≤ air'.opened)
    (phase : ∀ j, air'.phase? j = if j ∈ air.queue id ∧ air.phase? j = some .waiting
      then some .refused else air.phase? j)
    (queue : ∀ id', air'.queue id' = if id' = id then [] else air.queue id') : air'.Orderly := by
  have hmem (id' j : Nat) : j ∈ air'.queue id' ↔ j ∈ air.queue id' ∧ id' ≠ id := by
    rw [queue]
    split
    · next heq => simp [heq]
    · next hne => simp [hne]
  refine h.shrink numbered (fun id' => ?_) (fun id' j hj => ?_) fun j hj => ?_
  · rw [queue]
    split
    · exact List.nil_sublist _
    · exact .refl _
  · obtain ⟨hj, hne⟩ := (hmem id' j).1 hj
    rw [phase, if_neg fun heq => hne (h.one id' id j hj heq.1)]
    exact h.queued id' j hj
  · rw [phase] at hj
    split at hj
    · cases hj
    · next hne =>
      refine ⟨hj, fun id' hid' => (hmem id' j).2 ⟨hid', fun heq => hne ⟨heq ▸ hid', hj⟩⟩⟩

/-- Every `Effect` keeps `Orderly`. -/
theorem effect {entry : Entry} (h : air.Orderly) (he : air.Effect air' entry) : air'.Orderly := by
  cases he with
  | keeps hk => exact h.keeps hk
  | answers hk => exact h.keeps hk
  | leaves hk => exact h.keeps hk
  | opens phase queue fresh place opened size =>
    -- the new listener begins with an empty queue, as nothing waits under a number not given out
    have hqueue (id : Nat) : air'.queue id = air.queue id := by
      by_cases hid : id = air.opened + 1
      · subst hid
        exact fresh.elim (fun heq => heq.trans h.queue_fresh.symm) fun heq => heq
      · exact queue id hid
    refine h.shrink (fun id hid => ?_) (fun id => ?_) (fun id i => ?_) fun i hi => ?_
    · rw [opened]
      by_cases heq : id = air.opened + 1
      · exact Nat.le_of_eq heq
      · exact Nat.le_succ_of_le (h.numbered id (place id heq ▸ hid))
    · exact hqueue id ▸ List.Sublist.refl _
    · rw [hqueue, phase]
      exact h.queued id i
    · exact ⟨phase i ▸ hi, fun id hid => hqueue id ▸ hid⟩
  | joins id caller callee phase queue here place opened size sender =>
    exact h.joins (fun id => by rw [place, opened]; exact h.numbered id) phase queue
  | givesUp i waiting phase queue place opened size =>
    refine h.shrink (fun id => ?_) (fun id => ?_) (fun id j => ?_) fun j hj => ?_
    · rw [place, opened]
      exact h.numbered id
    · exact queue id ▸ List.Sublist.refl _
    · rw [queue, phase]
      intro hj
      split
      · exact .inr rfl
      · exact h.queued id j hj
    · rw [phase] at hj
      split at hj
      · cases hj
      · exact ⟨hj, fun id hid => queue id ▸ hid⟩
  | accepts id i skipped rest before gone here phase queue place opened size =>
    refine h.takes (some i) (fun id => by rw [place, opened]; exact h.numbered id) before gone
      (fun j => ?_) queue
    rw [phase]
    simp only [Option.some.injEq, eq_comm (a := i)]
  | clears id gone phase queue place opened size =>
    exact h.takes none (fun id => by rw [place, opened]; exact h.numbered id)
      (List.append_nil _).symm gone phase queue
  | closes id here phase queue place opened size =>
    refine h.closes (fun id' hid' => ?_) phase queue
    rw [place] at hid'
    rw [opened]
    split at hid'
    · exact absurd rfl hid'
    · exact h.numbered id' hid'

theorem perform (h : air.Orderly) (act : Act) : (air.perform act).Orderly :=
  h.effect (air.effect act)

theorem foldl (h : air.Orderly) (acts : List Act) : (acts.foldl Air.perform air).Orderly := by
  induction acts generalizing air with
  | nil => exact h
  | cons act acts ih => exact ih (h.perform act)

end Orderly

/-! ### One link -/

/-- What can become of link `i` in a step that is noted as the entry. -/
inductive Turn (air air' : Air) (i : Nat) : Entry → Prop where
  | stays {entry : Entry} (same : air'.phase? i = air.phase? i) : Turn air air' i entry
  | comes (id : Nat) (caller callee : Address) (before : air.phase? i = none)
      (after : air'.phase? i = some .waiting) : Turn air air' i (.queued i id caller callee)
  | isGivenUp (before : air.phase? i = some .waiting) (after : air'.phase? i = some .abandoned) :
      Turn air air' i (.gaveUp i true)
  | isAccepted (id : Nat) (sender : Option Address) (mem : i ∈ air.queue id)
      (before : air.phase? i = some .waiting) (after : air'.phase? i = some .accepted) :
      Turn air air' i (.handedOut id ⟨i, .callee⟩ sender)
  | isRefused (id : Nat) (mem : i ∈ air.queue id) (before : air.phase? i = some .waiting)
      (after : air'.phase? i = some .refused) : Turn air air' i (.closed id)

theorem Orderly.waiting_of_mem (h : air.Orderly) (hmem : i ∈ air.queue id)
    (hgone : ¬ air.IsGone i) : air.phase? i = some .waiting :=
  (h.queued id i hmem).resolve_right fun heq => hgone (.inr heq)

/-- Every `Effect` on an `Orderly` air is a `Turn` of each link: it comes, waits, and then is given
up, accepted or refused. -/
theorem Effect.turn {entry : Entry} (he : air.Effect air' entry) (h : air.Orderly) (i : Nat) :
    air.Turn air' i entry := by
  cases he with
  | keeps hk => exact .stays (hk.phase i)
  | answers hk => exact .stays (hk.phase i)
  | leaves hk => exact .stays (hk.phase i)
  | opens phase => exact .stays (phase i)
  | joins id caller callee phase =>
    by_cases hi : i = air.links.size
    · subst hi
      exact .comes id caller callee (phase?_eq_none_iff.2 (Nat.le_refl _))
        ((phase _).trans (if_pos rfl))
    · exact .stays ((phase i).trans (if_neg hi))
  | givesUp j waiting phase =>
    by_cases hi : i = j
    · subst hi
      exact .isGivenUp waiting ((phase i).trans (if_pos rfl))
    · exact .stays ((phase i).trans (if_neg hi))
  | accepts id j skipped rest before gone here phase =>
    by_cases hi : i = j
    · subst hi
      have hmem : i ∈ air.queue id := by
        rw [before]
        simp
      exact .isAccepted id _ hmem (h.waiting_of_mem hmem here) ((phase i).trans (if_pos rfl))
    · exact .stays ((phase i).trans (if_neg hi))
  | clears id gone phase => exact .stays (phase i)
  | closes id here phase =>
    by_cases hi : i ∈ air.queue id ∧ air.phase? i = some .waiting
    · exact .isRefused id hi.1 hi.2 ((phase i).trans (if_pos hi))
    · exact .stays ((phase i).trans (if_neg hi))

/-- A phase other than `waiting` is for good. -/
theorem Turn.settled {entry : Entry} {p : Link.Phase} (ht : air.Turn air' i entry)
    (hp : air.phase? i = some p) (hne : p ≠ .waiting) : air'.phase? i = some p := by
  cases ht with
  | stays same => exact same.trans hp
  | comes _ _ _ before => cases before.symm.trans hp
  | isGivenUp before | isAccepted _ _ _ before | isRefused _ _ before =>
    cases before.symm.trans hp
    exact absurd rfl hne
end Air
end RadioLink

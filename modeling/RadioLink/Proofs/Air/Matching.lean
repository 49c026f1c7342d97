import Mathlib.Data.List.Induction
import RadioLink.Proofs.Air.Acts

/-!
# Attempts and the ends handed out for them

From an empty air on, and whatever is done in whatever order, `history` notes which attempts to
connect joined which queue and which ends were handed out. `Air.Ledger` is what these notes say
about the air as it is now: every link is one attempt, what has been answered stays answered, and
what a listener has handed out is, in order, what joined its queue and was not given up, up to what
is still to come (`InOrder`). From it, attempts and ends that were handed out match one to one:

    Ledger.next         : Ledger log air → Ledger (log ++ [air.note act]) (air.perform act)
    connections_match   : Matched (history acts).1 (history acts).2
-/

namespace RadioLink

namespace Air

/-! ### What the notes tell -/

/-- An attempt to connect that has joined the queue of `listener`. -/
structure Attempt where
  link : Nat
  listener : Nat
  caller : Address
  callee : Address
  deriving DecidableEq

/-- The end `stream` that `listener` has handed out, with the address it told. -/
structure HandOut where
  listener : Nat
  stream : LinkEnd
  sender : Option Address
  deriving DecidableEq

/-- The attempt that a `queued` entry notes. -/
def Entry.attempt? : Entry → Option Attempt
  | .queued link listener caller callee => some ⟨link, listener, caller, callee⟩
  | _ => none

/-- What a `handedOut` entry notes. -/
def Entry.handOut? : Entry → Option HandOut
  | .handedOut listener stream sender => some ⟨listener, stream, sender⟩
  | _ => none

/-- Whether the entry notes that `i` was given up while it waited. -/
def Entry.givesUp (i : Nat) : Entry → Bool
  | .gaveUp link early => early && link = i
  | _ => false

/-- All attempts in the log that have joined a queue, in order. -/
def attempts (log : List Entry) : List Attempt := log.filterMap (·.attempt?)

/-- All that has been handed out according to the log, in order. -/
def handOuts (log : List Entry) : List HandOut := log.filterMap (·.handOut?)

/-- Whether link `i` was given up while it waited. -/
def wasGivenUp (log : List Entry) (i : Nat) : Bool := log.any (·.givesUp i)

/-- The links that have joined the queue of the listener `id`, in order. -/
def joined (log : List Entry) (id : Nat) : List Nat :=
  ((attempts log).filter (·.listener = id)).map (·.link)

/-- The links that the listener `id` has handed out, in order. -/
def handedOut (log : List Entry) (id : Nat) : List Nat :=
  ((handOuts log).filter (·.listener = id)).map (·.stream.link)

/-- The log and the air after `acts`, from an empty air. -/
def history (acts : List Act) : List Entry × Air :=
  acts.foldl (fun (log, air) act => (log ++ [air.note act], air.perform act)) ([], {})

theorem history_append (acts : List Act) (act : Act) : history (acts ++ [act])
    = ((history acts).1 ++ [(history acts).2.note act], (history acts).2.perform act) := by
  rw [history, List.foldl_append]
  rfl

theorem history_eq_foldl (acts more : List Act) :
    (history (acts ++ more)).2 = more.foldl perform (history acts).2 := by
  induction more using List.reverseRecOn with
  | nil => rw [List.append_nil, List.foldl_nil]
  | append_singleton more x ih =>
    rw [← List.append_assoc, history_append, List.foldl_append, ih]
    rfl

variable {log : List Entry} {air air' : Air} {entry : Entry} {id i : Nat}

theorem attempts_append (log : List Entry) (entry : Entry) :
    attempts (log ++ [entry]) = attempts log ++ entry.attempt?.toList := by
  rw [attempts, List.filterMap_append]
  cases h : entry.attempt? <;> simp [h, attempts]

theorem handOuts_append (log : List Entry) (entry : Entry) :
    handOuts (log ++ [entry]) = handOuts log ++ entry.handOut?.toList := by
  rw [handOuts, List.filterMap_append]
  cases h : entry.handOut? <;> simp [h, handOuts]

theorem wasGivenUp_append (log : List Entry) (entry : Entry) (i : Nat) :
    wasGivenUp (log ++ [entry]) i = (wasGivenUp log i || entry.givesUp i) := by
  simp [wasGivenUp]

theorem joined_append (log : List Entry) (entry : Entry) (id : Nat) : joined (log ++ [entry]) id
    = joined log id ++ ((entry.attempt?.filter (·.listener = id)).map (·.link)).toList := by
  rw [joined, attempts_append, List.filter_append, List.map_append]
  cases entry.attempt? with
  | none => rfl
  | some a =>
    simp only [Option.toList_some, Option.filter_some, List.filter_cons, List.filter_nil]
    split <;> rfl

theorem handedOut_append (log : List Entry) (entry : Entry) (id : Nat) :
    handedOut (log ++ [entry]) id
      = handedOut log id ++
        ((entry.handOut?.filter (·.listener = id)).map (·.stream.link)).toList := by
  rw [handedOut, handOuts_append, List.filter_append, List.map_append]
  cases entry.handOut? with
  | none => rfl
  | some h =>
    simp only [Option.toList_some, Option.filter_some, List.filter_cons, List.filter_nil]
    split <;> rfl

/-! ### What the notes say about the air -/

/-- What joined `id` and was not given up is what it has handed out, followed by a `rest`: while the
listener is open that is what waits in its queue, afterwards it was refused. -/
def InOrder (log : List Entry) (air : Air) (id : Nat) : Prop :=
  ∃ rest, (joined log id).filter (!wasGivenUp log ·) = handedOut log id ++ rest ∧
    if air.place? id = none then ∀ i ∈ rest, air.phase? i = some .refused
    else rest = (air.queue id).filter (!wasGivenUp log ·)

/-- The log fits the air as it is now. -/
structure Ledger (log : List Entry) (air : Air) : Prop where
  orderly : air.Orderly
  /-- Every link is one attempt. -/
  links : (attempts log).map (·.link) = List.range air.links.size
  senders : ∀ a ∈ attempts log, air.remote? ⟨a.link, .callee⟩ = some a.caller
  numbered : ∀ a ∈ attempts log, a.listener ≤ air.opened
  givenUp : ∀ i, wasGivenUp log i = true ↔ air.phase? i = some .abandoned
  left : ∀ i, .gaveUp i false ∈ log → ∃ p, air.phase? i = some p ∧ p ≠ .waiting
  answers : ∀ i r, .answered i r ∈ log → air.answer? i = some r ∧ air.phase? i ≠ none
  handOut : ∀ h ∈ handOuts log,
    h.stream.side = .callee ∧ air.phase? h.stream.link = some .accepted ∧
    ∃ a ∈ attempts log, a.link = h.stream.link ∧ a.listener = h.listener ∧ h.sender = some a.caller
  once : ((handOuts log).map (·.stream.link)).Nodup
  accepted : ∀ i, air.phase? i = some .accepted → ∃ h ∈ handOuts log, h.stream.link = i
  closed : ∀ id, .closed id ∈ log → id ≤ air.opened ∧ air.place? id = none
  order : ∀ id, InOrder log air id

theorem ledger_empty : Ledger [] {} where
  orderly := orderly_empty
  links := rfl
  senders _ h := nomatch h
  numbered _ h := nomatch h
  givenUp _ := ⟨fun h => (Bool.false_ne_true h).elim, fun h => nomatch h⟩
  left _ h := nomatch h
  answers _ _ h := nomatch h
  handOut _ h := nomatch h
  once := .nil
  accepted _ h := nomatch h
  closed _ h := nomatch h
  order _ := ⟨[], rfl, fun _ h => nomatch h⟩

/-! ### Order -/

/-- An entry that is not about the attempts, ends handed out or links given up of `id` keeps
`InOrder`. -/
theorem InOrder.append (h : InOrder log air id)
    (hattempt : entry.attempt?.filter (·.listener = id) = none)
    (hhandOut : entry.handOut?.filter (·.listener = id) = none)
    (hgives : ∀ i, entry.givesUp i = false) (hplace : air'.place? id = air.place? id)
    (hqueue : air'.queue id = air.queue id)
    (hrefused : ∀ i, air.phase? i = some .refused → air'.phase? i = some .refused) :
    InOrder (log ++ [entry]) air' id := by
  obtain ⟨rest, hsplit, hrest⟩ := h
  refine ⟨rest, ?_, ?_⟩
  · rw [joined_append, handedOut_append, hattempt, hhandOut]
    simp only [wasGivenUp_append, hgives, Bool.or_false, Option.map_none, Option.toList_none,
      List.append_nil, hsplit]
  · rw [hplace]
    split
    · next hnone =>
      rw [if_pos hnone] at hrest
      exact fun i hi => hrefused i (hrest i hi)
    · next hsome =>
      rw [if_neg hsome] at hrest
      simp only [wasGivenUp_append, hgives, Bool.or_false, hqueue, hrest]

namespace Ledger

theorem handedOut_accepted (h : Ledger log air) (hi : i ∈ handedOut log id) :
    air.phase? i = some .accepted := by
  obtain ⟨x, hx, rfl⟩ := List.mem_map.1 hi
  exact (h.handOut x (List.mem_filter.1 hx).1).2.1

/-- The number of the next listener is not in the log yet. -/
theorem joined_fresh (h : Ledger log air) : joined log (air.opened + 1) = [] := by
  rw [joined, List.map_eq_nil_iff, List.filter_eq_nil_iff]
  intro a ha heq
  have := h.numbered a ha
  rw [of_decide_eq_true heq] at this
  omega

/-- In a queue, what `wasGivenUp` is what `IsGone`. -/
theorem wasGivenUp_of_mem (h : Ledger log air) (hi : i ∈ air.queue id) :
    wasGivenUp log i = true ↔ air.IsGone i := by
  rw [h.givenUp]
  refine ⟨.inr, fun hgone => hgone.resolve_left fun hnone => ?_⟩
  rcases h.orderly.queued id i hi with heq | heq <;> rw [hnone] at heq <;> cases heq

theorem filter_of_gone (h : Ledger log air) {skipped : List Nat}
    (hsub : ∀ j ∈ skipped, j ∈ air.queue id) (hgone : ∀ j ∈ skipped, air.IsGone j) :
    skipped.filter (!wasGivenUp log ·) = [] := by
  rw [List.filter_eq_nil_iff]
  intro j hj
  rw [(h.wasGivenUp_of_mem (hsub j hj)).2 (hgone j hj)]
  exact Bool.false_ne_true

/-- `InOrder` for a listener that is open. -/
theorem order_open (h : Ledger log air) (hopen : air.place? id ≠ none) :
    (joined log id).filter (!wasGivenUp log ·)
      = handedOut log id ++ (air.queue id).filter (!wasGivenUp log ·) := by
  obtain ⟨rest, hsplit, hrest⟩ := h.order id
  rw [if_neg hopen] at hrest
  rw [hsplit, hrest]

/-- `InOrder` for a listener that has just been opened: nothing has joined it. -/
theorem order_opens (h : Ledger log air) (hqueue : air'.queue (air.opened + 1) = []) :
    InOrder (log ++ [.other]) air' (air.opened + 1) := by
  obtain ⟨rest, hsplit, -⟩ := h.order (air.opened + 1)
  rw [h.joined_fresh, List.filter_nil, eq_comm, List.append_eq_nil_iff] at hsplit
  have hjoined : joined (log ++ [.other]) (air.opened + 1) = [] := by
    rw [joined_append, h.joined_fresh]
    rfl
  have hhanded : handedOut (log ++ [.other]) (air.opened + 1) = [] := by
    rw [handedOut_append, hsplit.1]
    rfl
  refine ⟨[], by rw [hjoined, hhanded]; rfl, ?_⟩
  rw [hqueue]
  split
  · exact fun _ h => nomatch h
  · rfl

theorem order_joins (h : Ledger log air) {caller callee : Address} (hopen : air.place? id ≠ none)
    (hplace : air'.place? id = air.place? id)
    (hqueue : air'.queue id = air.queue id ++ [air.links.size]) :
    InOrder (log ++ [.queued air.links.size id caller callee]) air' id := by
  have hnew : wasGivenUp log air.links.size = false := by
    rw [Bool.eq_false_iff, ne_eq, h.givenUp, phase?_eq_none_iff.2 (Nat.le_refl _)]
    exact nofun
  refine ⟨(air.queue id ++ [air.links.size]).filter (!wasGivenUp log ·), ?_, ?_⟩
  · simp [joined_append, handedOut_append, wasGivenUp_append, Entry.givesUp, Entry.attempt?,
      Entry.handOut?, Option.filter_some, h.order_open hopen, hnew]
  · rw [hplace, if_neg hopen, hqueue]
    simp only [wasGivenUp_append, Entry.givesUp, Bool.or_false]

/-- A link that is given up while it waits drops out of the `rest` of `InOrder`. -/
theorem order_givesUp (h : Ledger log air) (hwaiting : air.phase? i = some .waiting)
    (hplace : air'.place? id = air.place? id) (hqueue : air'.queue id = air.queue id)
    (hrefused : ∀ i, air.phase? i = some .refused → air'.phase? i = some .refused) :
    InOrder (log ++ [.gaveUp i true]) air' id := by
  have hfilter (l : List Nat) : l.filter (!wasGivenUp (log ++ [.gaveUp i true]) ·)
      = (l.filter (!wasGivenUp log ·)).filter (· != i) := by
    rw [List.filter_filter]
    refine List.filter_congr fun j _ => ?_
    rw [wasGivenUp_append]
    simp only [Entry.givesUp, Bool.true_and, Bool.not_or, bne, eq_comm (a := i)]
    exact Bool.and_comm ..
  have hnot : ∀ j ∈ handedOut log id, (j != i) = true := fun j hj => by
    rw [bne_iff_ne]
    rintro rfl
    cases (h.handedOut_accepted hj).symm.trans hwaiting
  obtain ⟨rest, hsplit, hrest⟩ := h.order id
  refine ⟨rest.filter (· != i), ?_, ?_⟩
  · have hjoined : joined (log ++ [.gaveUp i true]) id = joined log id :=
      (joined_append ..).trans (List.append_nil _)
    have hhanded : handedOut (log ++ [.gaveUp i true]) id = handedOut log id :=
      (handedOut_append ..).trans (List.append_nil _)
    rw [hjoined, hhanded, hfilter, hsplit, List.filter_append, List.filter_eq_self.2 hnot]
  · rw [hplace]
    split
    · next hnone =>
      rw [if_pos hnone] at hrest
      exact fun j hj => hrefused j (hrest j (List.mem_filter.1 hj).1)
    · next hsome =>
      rw [if_neg hsome] at hrest
      rw [hqueue, hfilter, hrest]

theorem order_accepts (h : Ledger log air) {skipped rest : List Nat} {sender : Option Address}
    (before : air.queue id = skipped ++ i :: rest) (gone : ∀ j ∈ skipped, air.IsGone j)
    (here : ¬ air.IsGone i) (hplace : air'.place? id = air.place? id)
    (hqueue : air'.queue id = rest) :
    InOrder (log ++ [.handedOut id ⟨i, .callee⟩ sender]) air' id := by
  have hmem : i ∈ air.queue id := by
    rw [before]
    simp
  have hopen := Orderly.place_of_mem hmem
  have hi : wasGivenUp log i = false := by
    rw [Bool.eq_false_iff, ne_eq, h.wasGivenUp_of_mem hmem]
    exact here
  have hskip := h.filter_of_gone (fun j hj => before ▸ List.mem_append_left _ hj) gone
  refine ⟨rest.filter (!wasGivenUp log ·), ?_, ?_⟩
  · simp [joined_append, handedOut_append, wasGivenUp_append, Entry.givesUp, Entry.attempt?,
      Entry.handOut?, Option.filter_some, h.order_open hopen, before, hskip, hi]
  · rw [hplace, if_neg hopen, hqueue]
    simp only [wasGivenUp_append, Entry.givesUp, Bool.or_false]

theorem order_clears (h : Ledger log air) (gone : ∀ j ∈ air.queue id, air.IsGone j)
    (hplace : air'.place? id = air.place? id) (hqueue : air'.queue id = [])
    (hrefused : ∀ i, air.phase? i = some .refused → air'.phase? i = some .refused) :
    InOrder (log ++ [.other]) air' id := by
  obtain ⟨rest, hsplit, hrest⟩ := h.order id
  refine ⟨rest, ?_, ?_⟩
  · simp [joined_append, handedOut_append, wasGivenUp_append, Entry.givesUp, Entry.attempt?,
      Entry.handOut?, hsplit]
  · rw [hplace]
    split
    · next hnone =>
      rw [if_pos hnone] at hrest
      exact fun j hj => hrefused j (hrest j hj)
    · next hsome =>
      rw [if_neg hsome] at hrest
      rw [hqueue, hrest, h.filter_of_gone (fun _ hj => hj) gone, List.filter_nil]

/-- What a listener leaves behind when it goes away is refused. -/
theorem order_closes (h : Ledger log air) (here : air.place? id ≠ none)
    (phase : ∀ j, air'.phase? j = if j ∈ air.queue id ∧ air.phase? j = some .waiting
      then some .refused else air.phase? j)
    (hplace : air'.place? id = none) : InOrder (log ++ [.closed id]) air' id := by
  refine ⟨(air.queue id).filter (!wasGivenUp log ·), ?_, ?_⟩
  · simp [joined_append, handedOut_append, wasGivenUp_append, Entry.givesUp, Entry.attempt?,
      Entry.handOut?, h.order_open here]
  · rw [if_pos hplace]
    intro j hj
    obtain ⟨hmem, hkept⟩ := List.mem_filter.1 hj
    have hhere : ¬ air.IsGone j := fun hgone => by
      rw [(h.wasGivenUp_of_mem hmem).2 hgone] at hkept
      cases hkept
    exact (phase j).trans (if_pos ⟨hmem, h.orderly.waiting_of_mem hmem hhere⟩)

/-- Every act keeps `InOrder` for every listener. -/
theorem order_next (h : Ledger log air) (he : air.Effect air' entry) (id : Nat) :
    InOrder (log ++ [entry]) air' id := by
  -- what was refused stays so, whatever the act is
  have hrefused (i : Nat) (hi : air.phase? i = some .refused) : air'.phase? i = some .refused :=
    (he.turn h.orderly i).settled hi nofun
  cases he with
  | keeps hk | answers hk | leaves hk =>
    exact (h.order id).append rfl rfl (fun _ => rfl) (hk.place id) (hk.queue id) hrefused
  | opens phase queue fresh place opened size =>
    by_cases hid : id = air.opened + 1
    · subst hid
      exact h.order_opens (fresh.elim (fun h => h) fun heq => heq.trans h.orderly.queue_fresh)
    · exact (h.order id).append rfl rfl (fun _ => rfl) (place id hid) (queue id hid) hrefused
  | joins id' caller callee phase queue here place opened size sender =>
    by_cases hid : id = id'
    · subst hid
      exact h.order_joins here (place id) ((queue id).trans (if_pos rfl))
    · have hother : (Entry.queued air.links.size id' caller callee).attempt?.filter
          (·.listener = id) = none := if_neg (by simpa using Ne.symm hid)
      exact (h.order id).append hother rfl (fun _ => rfl) (place id)
        ((queue id).trans (if_neg hid)) hrefused
  | givesUp i waiting phase queue place opened size =>
    exact h.order_givesUp waiting (place id) (queue id) hrefused
  | accepts id' i skipped rest before gone here phase queue place opened size =>
    by_cases hid : id = id'
    · subst hid
      exact h.order_accepts before gone here (place id) ((queue id).trans (if_pos rfl))
    · have hother : (Entry.handedOut id' ⟨i, .callee⟩ (air'.remote? ⟨i, .callee⟩)).handOut?.filter
          (·.listener = id) = none := if_neg (by simpa using Ne.symm hid)
      exact (h.order id).append rfl hother (fun _ => rfl) (place id)
        ((queue id).trans (if_neg hid)) hrefused
  | clears id' gone phase queue place opened size =>
    by_cases hid : id = id'
    · subst hid
      exact h.order_clears gone (place id) ((queue id).trans (if_pos rfl)) hrefused
    · exact (h.order id).append rfl rfl (fun _ => rfl) (place id)
        ((queue id).trans (if_neg hid)) hrefused
  | closes id' here phase queue place opened size =>
    by_cases hid : id = id'
    · subst hid
      exact h.order_closes here phase ((place id).trans (if_pos rfl))
    · exact (h.order id).append rfl rfl (fun _ => rfl) ((place id).trans (if_neg hid))
        ((queue id).trans (if_neg hid)) hrefused

end Ledger

/-! ### One act after the other -/

theorem Effect.opened_le (he : air.Effect air' entry) : air.opened ≤ air'.opened := by
  cases he with
  | keeps hk | answers hk | leaves hk => exact Nat.le_of_eq hk.opened.symm
  | opens _ _ _ _ opened => omega
  | joins _ _ _ _ _ _ _ opened | givesUp _ _ _ _ _ opened | accepts _ _ _ _ _ _ _ _ _ _ opened
  | clears _ _ _ _ _ opened | closes _ _ _ _ _ opened => exact Nat.le_of_eq opened.symm

/-- A listener that has gone away does not come back. -/
theorem Effect.place?_eq_none (he : air.Effect air' entry) (hid : id ≤ air.opened)
    (h : air.place? id = none) : air'.place? id = none := by
  cases he with
  | keeps hk | answers hk | leaves hk => exact (hk.place id).trans h
  | opens _ _ _ place => exact (place id (by omega)).trans h
  | joins _ _ _ _ _ _ place | givesUp _ _ _ _ place | accepts _ _ _ _ _ _ _ _ _ place
  | clears _ _ _ _ place => exact (place id).trans h
  | closes id' _ _ _ place =>
    rw [place]
    split
    · rfl
    · exact h

theorem Turn.answer? {r : Except LinkError LinkEnd} (ht : air.Turn air' i entry)
    (h : air.answer? i = some r) (hknown : air.phase? i ≠ none) :
    air'.answer? i = some r ∧ air'.phase? i ≠ none := by
  obtain ⟨p, hp⟩ := Option.ne_none_iff_exists'.1 hknown
  have hne : p ≠ .waiting := fun heq => by
    rw [answer?_eq_none_iff.2 (heq ▸ hp)] at h
    cases h
  have hp' := ht.settled hp hne
  rw [answer?_eq, hp] at h
  rw [answer?_eq, hp']
  exact ⟨h, nofun⟩

/-- Only an act that joins a queue is noted as an attempt, and it makes a new link. -/
theorem Effect.attempt?_cases (he : air.Effect air' entry) (h : air.Orderly) :
    entry.attempt? = none ∧ air'.links.size = air.links.size ∨
      ∃ id caller callee, entry.attempt? = some ⟨air.links.size, id, caller, callee⟩ ∧
        id ≤ air.opened ∧ air'.links.size = air.links.size + 1 ∧
        air'.remote? ⟨air.links.size, .callee⟩ = some caller := by
  cases he with
  | keeps hk | answers hk | leaves hk => exact .inl ⟨rfl, hk.size⟩
  | joins id caller callee _ _ here _ _ size sender =>
    exact .inr ⟨id, caller, callee, rfl, h.numbered id here, size, sender⟩
  | opens _ _ _ _ _ size | givesUp _ _ _ _ _ _ size | accepts _ _ _ _ _ _ _ _ _ _ _ size
  | clears _ _ _ _ _ _ size | closes _ _ _ _ _ _ size => exact .inl ⟨rfl, size⟩

/-- A new attempt names a listener that there is, and `remote?` of its link knows the caller. -/
theorem Effect.of_mem_attempts (he : air.Effect air' entry) (h : air.Orderly) {a : Attempt}
    (ha : a ∈ attempts (log ++ [entry])) :
    a ∈ attempts log ∨
      a.listener ≤ air.opened ∧ air'.remote? ⟨a.link, .callee⟩ = some a.caller := by
  rw [attempts_append] at ha
  refine (List.mem_append.1 ha).imp_right fun hnew => ?_
  obtain ⟨hnone, -⟩ | ⟨id, caller, callee, hsome, hid, -, hsender⟩ := he.attempt?_cases h
  · rw [hnone] at hnew
    cases hnew
  · rw [hsome] at hnew
    rw [List.mem_singleton.1 hnew]
    exact ⟨hid, hsender⟩

/-- An entry with a `handOut?` hands out a link that waits in the queue. -/
theorem Effect.handOut?_cases (he : air.Effect air' entry) (h : air.Orderly) :
    entry.handOut? = none ∨
      ∃ id i, entry.handOut? = some ⟨id, ⟨i, .callee⟩, air'.remote? ⟨i, .callee⟩⟩ ∧
      i ∈ air.queue id ∧ air.phase? i = some .waiting ∧ air'.phase? i = some .accepted := by
  cases he with
  | accepts id i skipped rest before gone here phase =>
    have hmem : i ∈ air.queue id := by
      rw [before]
      simp
    exact .inr ⟨id, i, rfl, hmem, h.waiting_of_mem hmem here, (phase i).trans (if_pos rfl)⟩
  | _ => exact .inl rfl

theorem Effect.of_givesUp (he : air.Effect air' entry) (h : entry.givesUp i = true) :
    air.phase? i = some .waiting ∧ air'.phase? i = some .abandoned := by
  cases he with
  | givesUp j waiting phase =>
    obtain rfl : j = i := by simpa [Entry.givesUp] using h
    exact ⟨waiting, (phase j).trans (if_pos rfl)⟩
  | _ => cases h

/-- A link that waits in the queue of `id` is one of the `attempts`, with `listener = id`. -/
theorem Ledger.exists_attempt (h : Ledger log air) (hmem : i ∈ air.queue id)
    (hwaiting : air.phase? i = some .waiting) :
    ∃ a ∈ attempts log, a.link = i ∧ a.listener = id := by
  have hkept : wasGivenUp log i = false := by
    rw [Bool.eq_false_iff, ne_eq, h.givenUp, hwaiting]
    exact nofun
  have hi : i ∈ (joined log id).filter (!wasGivenUp log ·) := by
    rw [h.order_open (Orderly.place_of_mem hmem)]
    exact List.mem_append_right _ (List.mem_filter.2 ⟨hmem, by rw [hkept]; rfl⟩)
  obtain ⟨a, ha, rfl⟩ := List.mem_map.1 (List.mem_filter.1 hi).1
  obtain ⟨ha, hid⟩ := List.mem_filter.1 ha
  exact ⟨a, ha, rfl, of_decide_eq_true hid⟩

/-- Every act keeps the `Ledger`, with what is noted of it. -/
theorem Ledger.next (h : Ledger log air) (act : Act) :
    Ledger (log ++ [air.note act]) (air.perform act) := by
  have he := air.effect act
  have hturn := fun i => he.turn h.orderly i
  have hremote {e : LinkEnd} {a : Address} (h : air.remote? e = some a) := remote?_perform act h
  -- From here on the act itself does not matter, only its `Effect`, the `Turn` of each link, and
  -- that ends keep their addresses.
  revert he hturn hremote
  generalize air.note act = entry
  generalize air.perform act = air'
  intro he hturn hremote
  constructor
  case orderly => exact h.orderly.effect he
  case links =>
    rw [attempts_append, List.map_append, h.links]
    obtain ⟨hnone, hsize⟩ | ⟨id, caller, callee, hsome, -, hsize, -⟩ := he.attempt?_cases h.orderly
    · rw [hnone, hsize]
      exact List.append_nil _
    · rw [hsome, hsize, List.range_succ]
      rfl
  case senders =>
    intro a ha
    obtain hold | ⟨-, hsender⟩ := he.of_mem_attempts h.orderly ha
    · exact hremote (h.senders a hold)
    · exact hsender
  case numbered =>
    intro a ha
    refine Nat.le_trans ?_ he.opened_le
    obtain hold | ⟨hid, -⟩ := he.of_mem_attempts h.orderly ha
    · exact h.numbered a hold
    · exact hid
  case givenUp =>
    intro i
    rw [wasGivenUp_append, Bool.or_eq_true, h.givenUp]
    refine ⟨fun hi => hi.elim (fun hi => (hturn i).settled hi nofun) fun hi => (he.of_givesUp hi).2,
      fun hi => ?_⟩
    cases hturn i with
    | stays same => exact .inl (same.symm.trans hi)
    | isGivenUp => exact .inr (by simp [Entry.givesUp])
    | comes _ _ _ _ after | isAccepted _ _ _ _ after | isRefused _ _ _ after =>
      cases after.symm.trans hi
  case left =>
    intro i hi
    rcases List.mem_append.1 hi with hi | hi
    · obtain ⟨p, hp, hne⟩ := h.left i hi
      exact ⟨p, (hturn i).settled hp hne, hne⟩
    · cases List.mem_singleton.1 hi
      cases he with
      | leaves hk _ known answered =>
        obtain ⟨p, hp⟩ := Option.ne_none_iff_exists'.1 known
        exact ⟨p, (hk.phase i).trans hp, fun heq => answered (heq ▸ hp)⟩
  case answers =>
    intro i r hi
    rcases List.mem_append.1 hi with hi | hi
    · obtain ⟨hanswer, hknown⟩ := h.answers i r hi
      exact (hturn i).answer? hanswer hknown
    · cases List.mem_singleton.1 hi
      cases he with
      | answers hk _ _ known answer => exact (hturn i).answer? answer known
  case handOut =>
    intro x hx
    rw [handOuts_append] at hx
    rw [attempts_append]
    rcases List.mem_append.1 hx with hx | hx
    · obtain ⟨hside, haccepted, a, ha, hlink⟩ := h.handOut x hx
      exact ⟨hside, (hturn _).settled haccepted nofun, a, List.mem_append_left _ ha, hlink⟩
    -- what is handed out now waited in a queue, so the attempt for it is in the log already
    · obtain hnone | ⟨id, i, hsome, hmem, hwaiting, haccepted⟩ := he.handOut?_cases h.orderly
      · rw [hnone] at hx
        cases hx
      · rw [hsome] at hx
        rw [List.mem_singleton.1 hx]
        obtain ⟨a, ha, rfl, hid⟩ := h.exists_attempt hmem hwaiting
        exact ⟨rfl, haccepted, a, List.mem_append_left _ ha, rfl, hid, hremote (h.senders a ha)⟩
  case once =>
    rw [handOuts_append, List.map_append]
    obtain hnone | ⟨id, i, hsome, -, hwaiting, -⟩ := he.handOut?_cases h.orderly
    · rw [hnone]
      exact (List.append_nil _).symm ▸ h.once
    · rw [hsome]
      refine List.nodup_append.2 ⟨h.once, List.pairwise_singleton .., fun j hj k hk heq => ?_⟩
      obtain ⟨x, hx, rfl⟩ := List.mem_map.1 hj
      have hlink : x.stream.link = i := heq.trans (List.mem_singleton.1 hk)
      -- a link that was handed out before is accepted, but this one waits
      cases (hlink ▸ (h.handOut x hx).2.1).symm.trans hwaiting
  case accepted =>
    intro i hi
    rw [handOuts_append]
    cases hturn i with
    | stays same =>
      obtain ⟨x, hx, hlink⟩ := h.accepted i (same.symm.trans hi)
      exact ⟨x, List.mem_append_left _ hx, hlink⟩
    | isAccepted id sender => exact ⟨_, List.mem_append_right _ List.mem_cons_self, rfl⟩
    | comes _ _ _ _ after | isGivenUp _ after | isRefused _ _ _ after =>
      cases after.symm.trans hi
  case closed =>
    intro id hid
    rcases List.mem_append.1 hid with hid | hid
    · obtain ⟨hle, hnone⟩ := h.closed id hid
      exact ⟨Nat.le_trans hle he.opened_le, he.place?_eq_none hle hnone⟩
    · cases List.mem_singleton.1 hid
      cases he with
      | closes _ here _ _ place opened =>
        exact ⟨opened ▸ h.orderly.numbered id here, (place id).trans (if_pos rfl)⟩
  case order => exact h.order_next he

theorem ledger_history (acts : List Act) : Ledger (history acts).1 (history acts).2 := by
  induction acts using List.reverseRecOn with
  | nil => exact ledger_empty
  | append_singleton acts act ih =>
    rw [history_append]
    exact ih.next act

/-! ### The match -/

/-- `h` was handed out for the attempt `a`, and each is the only one in the log for its link. -/
structure Match (log : List Entry) (a : Attempt) (h : HandOut) : Prop where
  attempt : (attempts log).filter (·.link = a.link) = [a]
  handOut : (handOuts log).filter (·.stream.link = a.link) = [h]
  stream : h.stream = ⟨a.link, .callee⟩
  listener : h.listener = a.listener
  sender : h.sender = some a.caller

theorem filter_eq_singleton {α β : Type} [DecidableEq β] {f : α → β} {l : List α} {a : α}
    (hnodup : (l.map f).Nodup) (ha : a ∈ l) : l.filter (fun b => f b = f a) = [a] := by
  induction l with
  | nil => cases ha
  | cons b rest ih =>
    rw [List.map_cons, List.nodup_cons] at hnodup
    rcases List.mem_cons.1 ha with rfl | ha
    · have hrest : rest.filter (fun b => f b = f a) = [] := by
        rw [List.filter_eq_nil_iff]
        intro b hb heq
        exact hnodup.1 (of_decide_eq_true heq ▸ List.mem_map_of_mem hb)
      rw [List.filter_cons_of_pos (by simp), hrest]
    · have hne : ¬ f b = f a := fun heq => hnodup.1 (heq ▸ List.mem_map_of_mem ha)
      rw [List.filter_cons_of_neg (by simpa using hne), ih hnodup.2 ha]

theorem Ledger.exists_match (h : Ledger log air) {x : HandOut} (hx : x ∈ handOuts log) :
    ∃ a, Match log a x := by
  obtain ⟨hside, -, a, ha, hlink, hlistener, hsender⟩ := h.handOut x hx
  have hnodup : ((attempts log).map (·.link)).Nodup := h.links ▸ List.nodup_range
  refine ⟨a, filter_eq_singleton hnodup ha, ?_, ?_, hlistener.symm, hsender⟩
  · rw [hlink]
    exact filter_eq_singleton h.once hx
  · rw [hlink, ← hside]

theorem Ledger.match_of_accepted (h : Ledger log air) (hi : air.phase? i = some .accepted) :
    ∃ a x, a.link = i ∧ Match log a x := by
  obtain ⟨x, hx, rfl⟩ := h.accepted i hi
  obtain ⟨a, hmatch⟩ := h.exists_match hx
  exact ⟨a, x, by rw [hmatch.stream], hmatch⟩

/-- `accept` hands out the first link `i` of the queue that is not gone. -/
theorem note_accept {skipped rest : List Nat} (hqueue : air.queue id = skipped ++ i :: rest)
    (hgone : ∀ j ∈ skipped, air.IsGone j) (hhere : ¬ air.IsGone i) :
    ∃ sender, air.note (.accept id) = .handedOut id ⟨i, .callee⟩ sender := by
  have hmem : i ∈ air.queue id := by
    rw [hqueue]
    simp
  have hopen := Orderly.place_of_mem hmem
  cases hl : air.listeners.get? id with
  | none =>
    rw [place?, hl] at hopen
    exact absurd rfl hopen
  | some l =>
    rw [queue_of_get? hl] at hqueue
    have hskip : air.skipAbandoned l.queue = i :: rest := by
      rw [skipAbandoned, hqueue, List.dropWhile_append_of_pos fun j hj => isGone_iff.1 (hgone j hj)]
      exact List.dropWhile_cons_of_neg fun h => hhere (isGone_iff.2 h)
    simp only [note, accept, hl, hskip]
    exact ⟨_, rfl⟩

/-- Every end that a caller or a listener was given belongs to one attempt, which nobody had given
up, and was handed out once. -/
structure Matched (log : List Entry) (air : Air) : Prop where
  /-- A caller that got an end of a link is the only one, and the other end was handed out once. -/
  returned : ∀ i stream, .answered i (.ok stream) ∈ log →
    stream = ⟨i, .caller⟩ ∧ ∃ a x, a.link = i ∧ Match log a x
  /-- What was handed out was attempted once, and its caller hears nothing but success. -/
  handedOut : ∀ x ∈ handOuts log, ∃ a, Match log a x ∧
    ∀ r, .answered a.link r ∈ log → r = .ok ⟨a.link, .caller⟩
  /-- When it was handed out, its caller had not left. -/
  present : ∀ past later id stream sender, log = past ++ .handedOut id stream sender :: later →
    ∀ early, .gaveUp stream.link early ∉ past
  /-- A listener hands out what joined its queue in that order, but for what was given up. -/
  order : ∀ id, Air.handedOut log id <+: (joined log id).filter (!wasGivenUp log ·)
  /-- The first that it has not handed out yet is what it hands out next. -/
  next : ∀ id i rest, air.place? id ≠ none →
    (joined log id).filter (!wasGivenUp log ·) = Air.handedOut log id ++ i :: rest →
    ∃ sender, air.note (.accept id) = .handedOut id ⟨i, .callee⟩ sender
  /-- What a listener has not handed out when it goes away fails with `listenerClosed`, unless it
  was given up before. -/
  refused : ∀ past later id, log = past ++ .closed id :: later →
    ∀ i ∈ joined past id, i ∉ Air.handedOut past id → wasGivenUp past i = false →
      i ∉ Air.handedOut log id ∧
      air.answer? i = some (.error (.connectFailed .listenerClosed)) ∧
      ∀ r, .answered i r ∈ log → r = .error (.connectFailed .listenerClosed)

/-- An entry in the log of `acts` is the `note` of one of them, on the air after those before it. -/
theorem exists_of_history {acts : List Act} {past later : List Entry}
    (h : (history acts).1 = past ++ entry :: later) :
    ∃ acts₁ act acts₂, acts = acts₁ ++ act :: acts₂ ∧ past = (history acts₁).1 ∧
      entry = (history acts₁).2.note act := by
  induction acts using List.reverseRecOn generalizing later with
  | nil => simp [history] at h
  | append_singleton acts act ih =>
    rw [history_append] at h
    rcases List.eq_nil_or_concat later with rfl | ⟨later, x, rfl⟩
    · obtain ⟨hpast, hentry⟩ := List.append_inj' h rfl
      exact ⟨acts, act, [], rfl, hpast.symm, (List.singleton_inj.1 hentry).symm⟩
    · rw [List.concat_eq_append, ← List.cons_append, ← List.append_assoc] at h
      obtain ⟨acts₁, act', acts₂, rfl, hrest⟩ := ih (List.append_inj' h rfl).1
      exact ⟨acts₁, act', acts₂ ++ [act], by simp, hrest⟩

/-- A phase other than `waiting` is for good, whatever is done afterwards. -/
theorem phase?_history {acts later : List Act} {p : Link.Phase}
    (h : (history acts).2.phase? i = some p) (hne : p ≠ .waiting) :
    (history (acts ++ later)).2.phase? i = some p := by
  induction later using List.reverseRecOn with
  | nil => rwa [List.append_nil]
  | append_singleton later act ih =>
    rw [← List.append_assoc, history_append]
    have hledger := ledger_history (acts ++ later)
    exact (((history (acts ++ later)).2.effect act).turn hledger.orderly i).settled ih hne

/-- A link that is handed out waited until then. -/
theorem Ledger.waiting_of_handedOut (h : Ledger log air) {stream : LinkEnd}
    {sender : Option Address}
    (he : air.Effect air' (.handedOut id stream sender)) :
    air.phase? stream.link = some .waiting := by
  obtain hnone | ⟨_, i, hsome, -, hwaiting, -⟩ := he.handOut?_cases h.orderly
  · cases hnone
  · cases hsome
    exact hwaiting

/-- A link whose caller has left, early or not, does not wait. -/
theorem Ledger.phase_of_gaveUp (h : Ledger log air) {early : Bool} (hi : .gaveUp i early ∈ log) :
    air.phase? i ≠ some .waiting := by
  intro hwaiting
  cases early with
  | false =>
    obtain ⟨p, hp, hne⟩ := h.left i hi
    exact hne (Option.some.inj (hp.symm.trans hwaiting))
  | true =>
    have hgiven : wasGivenUp log i = true := List.any_eq_true.2 ⟨_, hi, by simp [Entry.givesUp]⟩
    cases ((h.givenUp i).1 hgiven).symm.trans hwaiting

/-- What joined the queue of `id`, and was neither handed out nor given up, is refused when the
listener goes away. -/
theorem Ledger.refused_of_closed (h : Ledger log air) (he : air.Effect air' (.closed id))
    (hjoined : i ∈ joined log id) (hkept : i ∉ handedOut log id)
    (hgiven : wasGivenUp log i = false) :
    air'.phase? i = some .refused := by
  cases he with
  | closes _ here phase =>
    have hi : i ∈ (joined log id).filter (!wasGivenUp log ·) :=
      List.mem_filter.2 ⟨hjoined, by rw [hgiven]; rfl⟩
    rw [h.order_open here] at hi
    have hmem : i ∈ air.queue id :=
      (List.mem_filter.1 ((List.mem_append.1 hi).resolve_left hkept)).1
    have hhere : ¬ air.IsGone i := fun hgone => by
      rw [(h.wasGivenUp_of_mem hmem).2 hgone] at hgiven
      cases hgiven
    exact (phase i).trans (if_pos ⟨hmem, h.orderly.waiting_of_mem hmem hhere⟩)

theorem answer?_of_accepted (h : air.phase? i = some .accepted) :
    air.answer? i = some (.ok ⟨i, .caller⟩) := by
  rw [answer?_eq, h]

theorem answer?_of_refused (h : air.phase? i = some .refused) :
    air.answer? i = some (.error (.connectFailed .listenerClosed)) := by
  rw [answer?_eq, h]

/-- **Attempts to connect and ends handed out match one to one**, whatever is done to an empty air
and in whatever order. -/
theorem connections_match (acts : List Act) : Matched (history acts).1 (history acts).2 := by
  have hledger := ledger_history acts
  constructor
  case returned =>
    intro i stream hi
    obtain ⟨hanswer, -⟩ := hledger.answers i _ hi
    have haccepted : (history acts).2.phase? i = some .accepted := by
      rw [answer?_eq] at hanswer
      split at hanswer
      · cases hanswer
      · assumption
      · cases hanswer
    rw [answer?_of_accepted haccepted] at hanswer
    cases hanswer
    exact ⟨rfl, hledger.match_of_accepted haccepted⟩
  case handedOut =>
    intro x hx
    obtain ⟨a, hmatch⟩ := hledger.exists_match hx
    refine ⟨a, hmatch, fun r hr => ?_⟩
    have haccepted : (history acts).2.phase? a.link = some .accepted := by
      have := (hledger.handOut x hx).2.1
      rwa [hmatch.stream] at this
    cases (answer?_of_accepted haccepted).symm.trans (hledger.answers _ _ hr).1
    rfl
  case present =>
    intro past later id stream sender hsplit early hgone
    -- The link waited just before it was handed out; if its caller had left by then, it would not
    -- have.
    obtain ⟨acts₁, act, acts₂, -, rfl, hentry⟩ := exists_of_history hsplit
    have hthen := ledger_history acts₁
    exact hthen.phase_of_gaveUp hgone (hthen.waiting_of_handedOut (hentry ▸ Air.effect _ act))
  case order =>
    intro id
    obtain ⟨rest, hsplit, -⟩ := hledger.order id
    exact ⟨rest, hsplit.symm⟩
  case next =>
    intro id i rest hopen hsplit
    -- What is in the queue and not given up is `i :: rest`, so all links in front of `i` are gone.
    have hrest := List.append_cancel_left ((hledger.order_open hopen).symm.trans hsplit)
    obtain ⟨skipped, later, hqueue, hskipped, hi, -⟩ := List.filter_eq_cons_iff.1 hrest
    have hmem {j : Nat} (hj : j ∈ skipped ++ [i]) : j ∈ (history acts).2.queue id := by
      rw [hqueue, List.append_cons]
      exact List.mem_append_left _ hj
    refine note_accept hqueue (fun j hj => ?_) fun hgone => ?_
    · have hgiven : wasGivenUp (history acts).1 j = true := by simpa using hskipped j hj
      exact (hledger.wasGivenUp_of_mem (hmem (List.mem_append_left _ hj))).1 hgiven
    · rw [(hledger.wasGivenUp_of_mem (hmem (List.mem_append_right _ List.mem_cons_self))).2 hgone]
        at hi
      cases hi
  case refused =>
    intro past later id hsplit i hjoined hkept hgiven
    obtain ⟨acts₁, act, acts₂, rfl, rfl, hentry⟩ := exists_of_history hsplit
    -- The link is refused in the act that closes the listener, and that is for good.
    have hrefused : (history (acts₁ ++ act :: acts₂)).2.phase? i = some .refused := by
      rw [List.append_cons]
      refine phase?_history ?_ nofun
      have he := (history acts₁).2.effect act
      rw [← hentry] at he
      rw [history_append]
      exact (ledger_history acts₁).refused_of_closed he hjoined hkept hgiven
    have hanswer := answer?_of_refused hrefused
    refine ⟨fun hmem => ?_, hanswer, fun r hr => ?_⟩
    · cases hrefused.symm.trans (hledger.handedOut_accepted hmem)
    · cases hanswer.symm.trans (hledger.answers i r hr).1
      rfl

/-- Of three attempts, the first is given up, the second is accepted, and the third is refused. -/
example :
    let a : Address := ⟨#v[0, 0, 0, 0, 0, 1]⟩
    let b : Address := ⟨#v[0, 0, 0, 0, 0, 2]⟩
    let connect : Act := .connect a b (.channel 7)
    let log := (history [.switchOn a, .switchOn b, .listen b (.channel 7), connect, connect,
      connect, .abandon 0, .accept 1, .ask 1, .close 1, .ask 2]).1
    joined log 1 = [0, 1, 2] ∧ handedOut log 1 = [1] ∧ wasGivenUp log 0 = true := by
  decide

end Air
end RadioLink

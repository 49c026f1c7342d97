import RadioLink.Proofs.World.Attended

/-!
# No connection is lost

Of all links that come to stand in a queue at a place `q` where nodes take connections in, none is
forgotten. If `Air.answer?` tells the caller that it is connected, there is one task at the other
end that takes the link in, and only one; if it tells an error, there is none; and if it tells
nothing yet, the link stands at a listener whose task can go on at once, and will have answered it
when it does. The proof keeps account, event by event, of the tasks that were started
(`World.Accounted`).
-/

namespace RadioLink

open Air (Settles)

namespace World

variable {q : Address × Endpoint} {w u v : World} {t i : Nat} {rs : List Reception}
  {events later : List Event}

/-- The `Reception`s of link `i` that began in the course of the `events`. -/
def received (events : List Event) (i : Nat) : List Reception :=
  (events.flatMap fun e => e.before.receptions e.after).filter (·.stream = ⟨i, .callee⟩)

theorem received_append (events later : List Event) (i : Nat) :
    received (events ++ later) i = received events i ++ received later i := by
  rw [received, List.flatMap_append, List.filter_append]
  rfl

theorem received_singleton (e : Event) (i : Nat) :
    received [e] i = (e.before.receptions e.after).filter (·.stream = ⟨i, .callee⟩) := by
  rw [received, List.flatMap_singleton]

/-- After one of the `events` link `i` stands in the queue of a listener at `q`. -/
def Joined (q : Address × Endpoint) (events : List Event) (i : Nat) : Prop :=
  ∃ e ∈ events, e.after.air.Stands q i

/-- The task of `r` takes link `i` in, for a node whose place is `q`, from the address that has
called. -/
structure TakesIn (q : Address × Endpoint) (w : World) (i : Nat) (r : Reception) : Prop where
  node : w.place? r.node = some q
  sender : w.air.remote? ⟨i, .callee⟩ = some r.sender
  task : ∃ task, w.tasks[r.task]? = some task ∧ task.activity.role = .accepting r.node r.sender

theorem TakesIn.onward {r : Reception} (h : TakesIn q w i r) (ho : Onward q w u)
    (hremote : ∀ e a, w.air.remote? e = some a → u.air.remote? e = some a) : TakesIn q u i r where
  node := ho.places _ _ h.node
  sender := hremote _ _ h.sender
  task := by
    obtain ⟨task, htask, hrole⟩ := h.task
    obtain ⟨task', htask', hremains⟩ := ho.old _ _ htask
    exact ⟨task', htask', hremains.role.trans hrole⟩

/-! ### One link in one event -/

/-- What an event makes of link `i`, with the `Reception`s of it that it has started. -/
inductive Deals.Link (q : Address × Endpoint) (w u : World) (i : Nat) : List Reception → Prop where
  | stays (settled : ∀ p, w.air.phase? i = some p → p ≠ .waiting → u.air.phase? i = some p)
      (waits : w.air.Stands q i → w.air.phase? i = some .waiting →
        u.air.phase? i = some .refused ∨ u.air.phase? i = some .abandoned ∨
          u.air.phase? i = some .waiting ∧ u.air.Stands q i) : Deals.Link q w u i []
  | taken {r : Reception} (before : w.air.phase? i = some .waiting)
      (after : u.air.phase? i = some .accepted)
      (takes : w.air.Stands q i → TakesIn q u i r) : Deals.Link q w u i [r]

theorem Deals.link_of_settles {id : Nat} {taken : Option Nat} (h : w.air.Orderly)
    (air : Settles id taken w.air u.air) (hnot : taken ≠ some i) : Deals.Link q w u i [] := by
  refine .stays (fun p hp hne => (air.settled hp hne).1) fun hi hw => ?_
  obtain ⟨htaken, -⟩ | ⟨-, hrefused | hwaits⟩ := air.turn h hi hw
  · exact absurd htaken hnot
  · exact .inl hrefused
  · exact .inr (.inr hwaits)

theorem Deals.link (h : Deals q w u rs) (hair : w.air.Orderly) (ho : Onward q w u) (i : Nat) :
    Deals.Link q w u i (rs.filter (·.stream = ⟨i, .callee⟩)) := by
  cases h with
  | spares air =>
    refine .stays (air.settled i) fun hi hw => ?_
    obtain ⟨hi', hw'⟩ | hgone := air.waits i hi hw
    · exact .inr (.inr ⟨hw', hi'⟩)
    · exact .inr (.inl hgone)
  | shuts air => exact Deals.link_of_settles hair air nofun
  | @takes id r air side sender node task =>
    by_cases hi : r.stream.link = i
    · have hstream : r.stream = ⟨i, .callee⟩ := by
        rw [← hi, ← side]
      rw [List.filter_cons_of_pos (by simpa using hstream), List.filter_nil]
      have hmem := air.mem i (congrArg some hi)
      refine .taken hmem.2 ((air.phase i).trans (if_pos (congrArg some hi))) fun hstands => ?_
      obtain ⟨-, hplace, -⟩ | ⟨hne, -⟩ := air.turn hair hstands hmem.2
      · exact ⟨ho.places _ _ (node hplace), hstream ▸ sender, task⟩
      · exact absurd (congrArg some hi) hne
    · have hstream : r.stream ≠ ⟨i, .callee⟩ := fun heq => hi (congrArg LinkEnd.link heq)
      rw [List.filter_cons_of_neg (by simpa using hstream), List.filter_nil]
      exact Deals.link_of_settles hair air fun heq => hi (Option.some.inj heq)

theorem Deals.remote (h : Deals q w u rs) {e : LinkEnd} {a : Address}
    (he : w.air.remote? e = some a) : u.air.remote? e = some a := by
  cases h with
  | spares air | shuts air | takes air => exact air.remote e a he

/-! ### The account -/

/-- What was `received` fits what has become of the links: one `Reception` that `TakesIn` each link
in phase `.accepted`, none for any other; and a link in phase `.waiting` stands at `q`. -/
structure Accounted (q : Address × Endpoint) (events : List Event) (w : World) : Prop where
  none : ∀ i, w.air.phase? i ≠ some .accepted → received events i = []
  known : ∀ i, Joined q events i → ∃ p, w.air.phase? i = some p
  waits : ∀ i, Joined q events i → w.air.phase? i = some .waiting → w.air.Stands q i
  one : ∀ i, Joined q events i → w.air.phase? i = some .accepted →
    ∃ r, received events i = [r] ∧ TakesIn q w i r

theorem accounted_nil (q : Address × Endpoint) (w : World) : Accounted q [] w where
  none _ _ := rfl
  known _ h := nomatch h
  waits _ h := nomatch h
  one _ h := nomatch h

theorem joined_append {e : Event} (h : Joined q (events ++ [e]) i) :
    Joined q events i ∨ e.after.air.Stands q i := by
  obtain ⟨e', he', hstands⟩ := h
  obtain hold | hnew := List.mem_append.1 he'
  · exact .inl ⟨e', hold, hstands⟩
  · exact .inr (List.mem_singleton.1 hnew ▸ hstands)

theorem Accounted.next {e : Event} (h : Accounted q events e.before) (hw : Attended q e.before)
    (he : e.Happens (Around q)) : Accounted q (events ++ [e]) e.after := by
  obtain ⟨hafter, ho, hdeals⟩ := hw.event he
  have hlink (i : Nat) : ∃ new, received (events ++ [e]) i = received events i ++ new ∧
      Deals.Link q e.before e.after i new :=
    ⟨_, by rw [received_append, received_singleton], hdeals.link hw.orderly ho i⟩
  -- what has joined only now has not been answered yet
  have hnew {i : Nat} (hi : e.after.air.Stands q i) := hi.phase hafter.orderly
  constructor
  case none =>
    intro i hne
    obtain ⟨new, hreceived, hturn⟩ := hlink i
    rw [hreceived]
    cases hturn with
    | stays settled =>
      rw [List.append_nil]
      exact h.none i fun hdone => hne (settled _ hdone nofun)
    | taken _ after => exact absurd after hne
  case known =>
    intro i hi
    obtain hold | hstands := joined_append hi
    · obtain ⟨new, -, hturn⟩ := hlink i
      obtain ⟨p, hp⟩ := h.known i hold
      cases hturn with
      | stays settled waits =>
        by_cases hwaiting : p = .waiting
        · subst hwaiting
          obtain hp' | hp' | ⟨hp', -⟩ := waits (h.waits i hold hp) hp <;> exact ⟨_, hp'⟩
        · exact ⟨p, settled p hp hwaiting⟩
      | taken _ after => exact ⟨_, after⟩
    · exact (hnew hstands).elim (⟨_, ·⟩) (⟨_, ·⟩)
  case waits =>
    intro i hi hw'
    obtain hold | hstands := joined_append hi
    · obtain ⟨new, -, hturn⟩ := hlink i
      obtain ⟨p, hp⟩ := h.known i hold
      cases hturn with
      | stays settled waits =>
        by_cases hwaiting : p = .waiting
        · subst hwaiting
          -- it has been given up, or refused, or it still stands in a queue there
          obtain hp' | hp' | ⟨-, hstands⟩ := waits (h.waits i hold hp) hp
          · cases hw'.symm.trans hp'
          · cases hw'.symm.trans hp'
          · exact hstands
        · cases hw'.symm.trans (settled p hp hwaiting)
          exact absurd rfl hwaiting
      | taken _ after => cases hw'.symm.trans after
    · exact hstands
  case one =>
    intro i hi hdone
    obtain hold | hstands := joined_append hi
    · obtain ⟨new, hreceived, hturn⟩ := hlink i
      rw [hreceived]
      obtain ⟨p, hp⟩ := h.known i hold
      cases hturn with
      | stays settled waits =>
        by_cases hwaiting : p = .waiting
        · subst hwaiting
          obtain hp' | hp' | ⟨hp', -⟩ := waits (h.waits i hold hp) hp <;>
            cases hdone.symm.trans hp'
        · cases hdone.symm.trans (settled p hp hwaiting)
          obtain ⟨r, hr, htakes⟩ := h.one i hold hp
          exact ⟨r, by rw [hr, List.append_nil], htakes.onward ho fun _ _ => hdeals.remote⟩
      | @taken r before _ takes =>
        -- as it was not accepted before, no task had been started for it
        have hnone := h.none i (by rw [before]; exact nofun)
        exact ⟨r, by rw [hnone]; rfl, takes (h.waits i hold before)⟩
    · obtain hwaiting | hgone := hnew hstands
      · cases hwaiting.symm.trans hdone
      · cases hgone.symm.trans hdone

/-- In a `History (Around q)` the world stays `Attended`, and the events are `Accounted`. -/
theorem History.accounted (h : w.History (Around q) events v) (hw : Attended q w) :
    Attended q v ∧ Accounted q events v := by
  induction h with
  | start => exact ⟨hw, accounted_nil q w⟩
  | next _ happens ih => exact ⟨(ih.1.event happens).1, ih.2.next ih.1 happens⟩

/-! ### What a caller may rely on -/

/-- For a link that waits at `q` there is a task whose `step` is possible and answers it. -/
theorem Attended.answers (hw : Attended q w) (hi : w.air.Stands q i)
    (hwaiting : w.air.phase? i = some .waiting) :
    ∃ t, (w.step t).isSome = true ∧ ∀ u, w.step t = some u → (u.air.answer? i).isSome = true := by
  obtain ⟨id, hid, hmem⟩ := hi
  obtain ⟨t, task, l, htask, hlive, hactivity, hstage⟩ := hw.manned id hid
  refine ⟨t, ?_, fun u hs => ?_⟩
  · have hlistener : task.activity.listener? = some id := by
      rw [hactivity]
      obtain ⟨n, stage⟩ := l
      obtain rfl : stage = .waiting id := hstage
      rfl
    obtain ⟨l', hl', hplace⟩ := (hw.owned t task id htask hlive hlistener).2 hid
    cases hactivity.symm.trans hl'
    obtain ⟨node, hnode, -⟩ := Option.map_eq_some_iff.1 hplace
    obtain ⟨stream, air, sender, haccept, hremote⟩ := Air.accept_of_waiting hw.orderly hmem hwaiting
    rw [World.step, htask]
    simp only [hlive, Option.isSome_none, Bool.false_eq_true, if_false]
    split
    · rfl
    · rw [hactivity]
      show (w.stepListening t l).isSome = true
      rw [stepListening, hnode]
      simp only [hstage]
      rw [stepWaiting, haccept]
      dsimp only
      split
      · rfl
      · rw [hremote]
        rfl
  · obtain ⟨taken, air⟩ := (handled_of_step hw.orderly htask hactivity hs).settles hstage
    rw [Option.isSome_iff_ne_none, ne_eq, Air.answer?_eq_none_iff]
    exact air.answered hmem

/-- Once the phase of a link is not `.waiting` it stays the same. -/
theorem History.settled {p : Link.Phase} (h : v.History (Around q) later u) (hw : Attended q v)
    (hp : v.air.phase? i = some p) (hne : p ≠ .waiting) : u.air.phase? i = some p := by
  induction h with
  | start => exact hp
  | @next later e past happens ih =>
    have hattended := (past.accounted hw).1
    obtain ⟨-, ho, hdeals⟩ := hattended.event happens
    have hlink := hdeals.link hattended.orderly ho i
    generalize (e.before.receptions e.after).filter _ = new at hlink
    cases hlink with
    | stays settled => exact settled p ih hne
    | taken before => exact absurd (Option.some.inj (ih.symm.trans before)) hne

/-- How a link has fared that has stood at `q`. If it was answered with a stream, one `Reception`
`TakesIn` the link, and its task is not cancelled. If it was answered with an error, there is none.
If it was not answered, there is none, and some task can take a step, which answers it. -/
def Fares (q : Address × Endpoint) (events : List Event) (w : World) (i : Nat) : Prop :=
  match w.air.answer? i with
  | some (.ok stream) => stream = ⟨i, .caller⟩ ∧ ∃ r, received events i = [r] ∧ TakesIn q w i r ∧
      ∀ task, w.tasks[r.task]? = some task → task.cancelled = false
  | some (.error fault) => fault = .connectFailed .listenerClosed ∧ received events i = []
  | none => received events i = [] ∧ ∃ t, (w.step t).isSome = true ∧
      ∀ u, w.step t = some u → (u.air.answer? i).isSome = true

theorem Accounted.fares (h : Accounted q events w) (hw : Attended q w) (hi : Joined q events i) :
    Fares q events w i := by
  have hanswer := w.air.answer?_eq i
  unfold Fares
  cases hp : w.air.phase? i with
  | none =>
    obtain ⟨p, hp'⟩ := h.known i hi
    cases hp.symm.trans hp'
  | some p =>
    rw [hp] at hanswer
    cases p with
    | waiting =>
      rw [hanswer]
      exact ⟨h.none i (by rw [hp]; exact nofun), hw.answers (h.waits i hi hp) hp⟩
    | accepted =>
      rw [hanswer]
      obtain ⟨r, hr, htakes⟩ := h.one i hi hp
      refine ⟨rfl, r, hr, htakes, fun task htask => ?_⟩
      -- only tasks that listen are ever cancelled
      obtain ⟨task', htask', hrole⟩ := htakes.task
      cases htask.symm.trans htask'
      refine Bool.eq_false_iff.2 fun hcancelled => ?_
      obtain ⟨m, hlistens⟩ := hw.kept _ _ htask hcancelled
      cases hrole.symm.trans hlistens
    | abandoned | refused =>
      rw [hanswer]
      exact ⟨rfl, h.none i (by rw [hp]; exact nofun)⟩

/-- **No connection is lost** where nodes take connections in. A link that `Air.connect` makes at
`q` stands in a queue there. A link that has stood in one `Fares` well after every event; its answer
stays the same, and no other task is started to take it in; and if its caller abandons it before it
is answered, it is answered with an error. -/
theorem no_connection_lost (hw : Attended q w) (h : w.History (Around q) events v) :
    (∀ caller link, (v.air.connect caller q.1 q.2).1 = .ok link →
      (v.air.connect caller q.1 q.2).2.Stands q link) ∧
    ∀ i, Joined q events i → Fares q events v i ∧
      (∀ r later u, v.air.answer? i = some r → v.History (Around q) later u →
        u.air.answer? i = some r ∧ received later i = []) ∧
      ∀ call, call.link = i → v.isDue call.deadline = true → ∃ r u, v.answer? call = some (r, u) ∧
        (v.air.answer? i = some r ∨ v.air.answer? i = none ∧ r = .error .timeout ∧
          u.air.answer? i = some (.error (.connectFailed .listenerClosed))) := by
  obtain ⟨hattended, haccounted⟩ := h.accounted hw
  refine ⟨fun caller link => Air.stands_connect hattended.registered, fun i hi =>
    ⟨haccounted.fares hattended hi, fun r later u hr hlater => ?_, fun call hcall hdue => ?_⟩⟩
  · obtain ⟨p, hp⟩ := haccounted.known i hi
    have hne : p ≠ .waiting := by
      rintro rfl
      rw [Air.answer?_eq_none_iff.2 hp] at hr
      cases hr
    have hp' := hlater.settled hattended hp hne
    refine ⟨?_, ?_⟩
    · rw [← hr, Air.answer?_eq, Air.answer?_eq, hp, hp']
    · -- what was started later is what the account of both histories has more than the first
      obtain ⟨-, hboth⟩ := (h.append hlater).accounted hw
      have hi' : Joined q (events ++ later) i := by
        obtain ⟨e, he, hstands⟩ := hi
        exact ⟨e, List.mem_append_left _ he, hstands⟩
      by_cases hdone : p = .accepted
      · subst hdone
        obtain ⟨r, hone, -⟩ := haccounted.one i hi hp
        obtain ⟨r', hone', -⟩ := hboth.one i hi' hp'
        rw [received_append, hone] at hone'
        exact (List.cons.inj hone').2
      · have hnone := hboth.none i (by rw [hp']; exact fun heq => hdone (Option.some.inj heq))
        rw [received_append] at hnone
        exact (List.append_eq_nil_iff.1 hnone).2
  · subst hcall
    unfold World.answer?
    cases hr : v.air.answer? call.link with
    | some r => exact ⟨r, v, rfl, .inl rfl⟩
    | none =>
      refine ⟨_, _, if_pos hdue, .inr ⟨rfl, rfl, ?_⟩⟩
      show (v.air.abandon call.link).answer? call.link = _
      rw [Air.answer?_eq, Air.phase?_abandon (Air.answer?_eq_none_iff.1 hr)]

/-- Two callers wait at the same listener; the first is taken in, and the other is turned away. -/
theorem no_connection_lost_two :
    let a : Address := ⟨#v[2, 0, 0, 0, 0, 1]⟩
    let b : Address := ⟨#v[2, 0, 0, 0, 0, 2]⟩
    let c : Address := ⟨#v[2, 0, 0, 0, 0, 3]⟩
    let node : Node :=
      { address := b, config := {},
        app := { deviceId := "q", secret := Vector.replicate 32 0,
                 announcement := .ofKind 1 .identity } }
    let w : World := { nodes := #[node], air := ((({} : Air).switchOn a).switchOn b).switchOn c }
    ∃ events v r, w.History (Around (Listening.place node)) events v ∧
      v.air.answer? 0 = some (.ok ⟨0, .caller⟩) ∧ received events 0 = [r] ∧
      TakesIn (Listening.place node) v 0 r ∧
      v.air.answer? 1 = some (.error (.connectFailed .listenerClosed)) ∧
      received events 1 = [] := by
  intro a b c node w
  let q := Listening.place node
  let join (caller : Address) (v : World) : World :=
    { v with air := v.air.perform (.connect caller q.1 q.2) }
  have hrun : ((w.start 0).2.step 0).bind (fun v₁ => ((join c (join a v₁)).step 0).map fun v =>
      ((v₁.air.connect a q.1 q.2).1.toOption, ((join a v₁).air.connect c q.1 q.2).1.toOption,
        v.air.phase? 0, v.air.phase? 1))
      = some (some 0, some 1, some .accepted, some .refused) := by
    decide +kernel
  obtain ⟨v₁, hopens, hrun⟩ := Option.bind_eq_some_iff.1 hrun
  obtain ⟨v, htakes, hrun⟩ := Option.map_eq_some_iff.1 hrun
  obtain ⟨hfirst, hrest⟩ := Prod.mk.inj hrun
  obtain ⟨hsecond, hrest⟩ := Prod.mk.inj hrest
  obtain ⟨hphase₀, hphase₁⟩ := Prod.mk.inj hrest
  have hok {r : Except LinkError Nat} {link : Nat} (h : r.toOption = some link) : r = .ok link := by
    cases r with
    | ok => exact congrArg _ (Option.some.inj h)
    | error => cases h
  have hw : Attended q w := by
    refine attended_of_idle ?_ ?_ (fun id => ?_) rfl fun n => ?_
    · exact Air.orderly_empty.foldl [.switchOn a, .switchOn b, .switchOn c]
    · exact Air.registered_empty.foldl Air.orderly_empty [.switchOn a, .switchOn b, .switchOn c]
    · exact nofun
    · cases n <;> rfl
  have hjoin (caller : Address) (u : World) : Around q u (join caller u) := .act trivial
  have hone : w.History (Around q) _ v₁ := (History.start.thenOther (.start 0)).thenStep hopens
  have htwo : w.History (Around q) _ (join a v₁) := hone.thenOther (hjoin a v₁)
  have hthree : w.History (Around q) _ (join c (join a v₁)) := htwo.thenOther (hjoin c _)
  have hall : w.History (Around q) _ v := hthree.thenStep htakes
  have hstands₀ := (no_connection_lost hw hone).1 a 0 (hok hfirst)
  have hstands₁ := (no_connection_lost hw htwo).1 c 1 (hok hsecond)
  obtain ⟨-, hfares⟩ := no_connection_lost hw hall
  have hfares₀ := (hfares 0 ⟨⟨.other, v₁, join a v₁⟩, by simp, hstands₀⟩).1
  have hfares₁ := (hfares 1 ⟨⟨.other, join a v₁, join c (join a v₁)⟩, by simp, hstands₁⟩).1
  have hanswer₀ : v.air.answer? 0 = some (.ok ⟨0, .caller⟩) := by
    rw [Air.answer?_eq, hphase₀]
  have hanswer₁ : v.air.answer? 1 = some (.error (.connectFailed .listenerClosed)) := by
    rw [Air.answer?_eq, hphase₁]
  unfold Fares at hfares₀ hfares₁
  rw [hanswer₀] at hfares₀
  rw [hanswer₁] at hfares₁
  obtain ⟨-, r, hone, htakes, -⟩ := hfares₀
  exact ⟨_, v, r, hall, hanswer₀, hone, htakes, hanswer₁, hfares₁.2⟩

end World
end RadioLink

import RadioLink.Proofs.World.Basic
import RadioLink.World.Lifecycle
import RadioLink.World.Step

/-!
# What a step leaves alone

A step of task `t` keeps every session up to what `Session.lasting` forgets, leaves all other tasks
as they are, and starts new ones only in a state that `Task.IsFresh`. What `Node.linkage` keeps of a
node, its registry, what its application knows of sessions and devices, and the counters of what has
come in, changes only where an `Accepting` goes on. All of this is the relation `World.Apart`, with
one lemma for each way of changing a world; a step is a chain of those.
-/

namespace RadioLink

/-! ### What is looked at -/

/-- What never changes about a session: all but `held`, `holder` and `waiting`. -/
def Session.lasting (x : Session) : Session :=
  { x with held := none, holder := none, waiting := [] }

/-- The counters that only handling what comes in adds to; those of `Metrics.outward` are set to
zero. -/
def Metrics.inbound (m : Metrics) : Metrics :=
  { m with
    connectAttempts := 0, connectFailures := 0, framesSent := 0, bytesSent := 0, sendFailures := 0
    decryptionFailures := 0, announcementsSent := 0 }

/-- The counters of what is sent, called and announced. -/
def Metrics.outward (m : Metrics) : Metrics :=
  { framesSent := m.framesSent, bytesSent := m.bytesSent, sendFailures := m.sendFailures }

/-- What only an `Accepting` changes about a node; the counters of `Metrics.outward`, `delivered`,
and the state of listening are left out. -/
def Node.linkage (node : Node) : Node :=
  { node with
    metrics := node.metrics.inbound
    app := { node.app with delivered := [] }
    active := false, bonded := [], listening := none }

/-- What never changes about an application: its own choices, as opposed to `known`, `current`,
`delivered` and `events`. -/
def Application.settings (app : Application) : Application :=
  { deviceId := app.deviceId, secret := app.secret, announcement := app.announcement
    decrypt := app.decrypt, faulty := app.faulty }

/-- What never changes about a node: its `address`, its `config` and the `settings` of its
application. -/
def Node.settings (node : Node) : Node :=
  { address := node.address, config := node.config, app := node.app.settings }

/-- The `Accepting` that an activity is, if it is one. -/
def Activity.call? : Activity → Option Accepting
  | .accepting a => some a
  | _ => none

/-- A task that has not taken a step yet; an `Accepting` among them is still `.ready`. -/
structure Task.IsFresh (task : Task) : Prop where
  outcome : task.outcome = none
  cancelled : task.cancelled = false
  ready : ∀ a, task.activity.call? = some a → ∃ source, a.stage = .ready source

namespace World

/-- The `lasting` part of session `s`. -/
def lasting? (w : World) (s : Nat) : Option Session := w.sessions[s]?.map (·.lasting)

/-- The `linkage` of node `n`. -/
def linkage? (w : World) (n : Nat) : Option Node := w.nodes[n]?.map (·.linkage)

/-- The `outward` counters of node `n`. -/
def outward? (w : World) (n : Nat) : Option Metrics := w.nodes[n]?.map (·.metrics.outward)

/-- The `settings` of node `n`. -/
def settings? (w : World) (n : Nat) : Option Node := w.nodes[n]?.map (·.settings)

/-- The `Accepting` of task `t`, if that is its activity. -/
def call? (w : World) (t : Nat) : Option Accepting := w.tasks[t]?.bind (·.activity.call?)

/-- The `Accepting` of task `t`, unless the task has ended or been cancelled. -/
def underWay? (w : World) (t : Nat) : Option Accepting :=
  w.tasks[t]?.bind fun task =>
    if task.outcome.isSome || task.cancelled then none else task.activity.call?

/-- Task `t` may have made `w'` of `w`. With `site = some n` it is an `Accepting` of node `n`, whose
`linkage` may change; with `site = none` that of no node does. -/
structure Apart (t : Nat) (site : Option Nat) (w w' : World) : Prop where
  sessions : ∀ s x, w.lasting? s = some x → w'.lasting? s = some x
  tasks : ∀ r task, r ≠ t → w.tasks[r]? = some task → w'.tasks[r]? = some task
  fresh : ∀ r task, r ≠ t → w.tasks[r]? = none → w'.tasks[r]? = some task → task.IsFresh
  size : w.tasks.size ≤ w'.tasks.size
  own : site = none → w.call? t = none → w'.call? t = none
  settings : ∀ n, w'.settings? n = w.settings? n
  linkage : ∀ n, site ≠ some n → w'.linkage? n = w.linkage? n

namespace Apart

variable {t n s : Nat} {site : Option Nat} {u v w : World}

theorem refl : Apart t site w w where
  sessions _ _ h := h
  tasks _ _ _ h := h
  fresh r task _ hnone h := by
    rw [hnone] at h
    cases h
  size := Nat.le_refl _
  own _ h := h
  settings _ := rfl
  linkage _ _ := rfl

theorem trans (h : Apart t site u v) (h' : Apart t site v w) : Apart t site u w where
  sessions r x hx := h'.sessions r x (h.sessions r x hx)
  tasks r task hr hu := h'.tasks r task hr (h.tasks r task hr hu)
  fresh r task hr hnone hw := by
    cases hv : v.tasks[r]? with
    | none => exact h'.fresh r task hr hv hw
    | some task' =>
      have hsame : w.tasks[r]? = some task' := h'.tasks r task' hr hv
      rw [hw] at hsame
      cases hsame
      exact h.fresh r task hr hnone hv
  size := Nat.le_trans h.size h'.size
  own hs hc := h'.own hs (h.own hs hc)
  settings m := (h'.settings m).trans (h.settings m)
  linkage m hm := (h'.linkage m hm).trans (h.linkage m hm)

/-! ### One lemma for each change -/

theorem aside (h : Apart t site u v) (hv : v.Aside w) : Apart t site u w :=
  h.trans
    { sessions := fun r x hx => by rwa [lasting?, hv.sessions]
      tasks := fun r task _ hr => by rwa [hv.tasks]
      fresh := fun r task _ hnone hr =>
        nomatch hnone.symm.trans ((congrArg (·[r]?) hv.tasks).symm.trans hr)
      size := Nat.le_of_eq (congrArg Array.size hv.tasks.symm)
      own := fun _ hc => by rwa [call?, hv.tasks]
      settings := fun m => by rw [settings?, hv.nodes, settings?]
      linkage := fun m _ => by rw [linkage?, hv.nodes, linkage?] }

theorem air (h : Apart t site u v) (air : Air) : Apart t site u { v with air } :=
  h.aside (Aside.refl.air air)

theorem drop (h : Apart t site u v) (e : LinkEnd) : Apart t site u (v.drop e) :=
  h.aside (Aside.refl.drop e)

theorem withTimer (h : Apart t site u v) : Apart t site u v.withTimer :=
  h.aside Aside.refl.withTimer

theorem call (h : Apart t site u v) (caller target : Address) (e : Endpoint) (limit : Nat) :
    Apart t site u (v.call caller target e limit).2 :=
  h.aside (Aside.refl.call caller target e limit)

theorem answer {c : Call} {r : Except LinkError LinkEnd} (h : Apart t site u v)
    (hr : v.answer? c = some (r, w)) : Apart t site u w :=
  h.aside (Aside.refl.answer hr)

theorem closeListener (h : Apart t site u v) (id : Nat) : Apart t site u (v.closeListener id) :=
  h.aside (Aside.refl.closeListener id)

theorem updateNode (h : Apart t site u v) {f : Node → Node}
    (hs : ∀ node, (f node).settings = node.settings)
    (hf : site = some n ∨ ∀ node, (f node).linkage = node.linkage) :
    Apart t site u (v.updateNode n f) :=
  h.trans
    { sessions := fun _ _ hx => hx
      tasks := fun _ _ _ hr => hr
      fresh := fun r task _ hnone hr => nomatch hnone.symm.trans hr
      size := Nat.le_refl _
      own := fun _ hc => hc
      settings := fun m => map_nodes_updateNode _ _ _ hs
      linkage := fun m hm => by
        obtain hsite | hf := hf
        · have hne : n ≠ m := fun hnm => hm (hnm ▸ hsite)
          rw [linkage?, nodes_updateNode, if_neg hne, linkage?]
        · exact map_nodes_updateNode _ _ _ hf }

theorem count (h : Apart t site u v) {c : Counted}
    (hc : site = some n ∨ ∀ m : Metrics, (m.count c).inbound = m.inbound) :
    Apart t site u (v.count n c) :=
  h.updateNode (fun _ => rfl) (hc.imp_right fun hc node => by simp [Node.linkage, hc])

theorem updateApp (h : Apart t site u v) {f : Application → Application}
    (hs : ∀ app, (f app).settings = app.settings)
    (hf : site = some n ∨ ∀ app, { f app with delivered := [] } = { app with delivered := [] }) :
    Apart t site u (v.updateApp n f) :=
  h.updateNode (fun node => by simp [Node.settings, hs])
    (hf.imp_right fun hf node => by simp [Node.linkage, hf])

theorem updateSession (h : Apart t site u v) {f : Session → Session}
    (hf : ∀ x, (f x).lasting = x.lasting) : Apart t site u (v.updateSession s f) :=
  h.trans
    { sessions := fun r x hx => by
        rw [lasting?, World.updateSession, Array.getElem?_modify]
        split
        · rw [Option.map_map, ← hx, lasting?]
          congr 1
          funext y
          exact hf y
        · exact hx
      tasks := fun _ _ _ hr => hr
      fresh := fun r task _ hnone hr => nomatch hnone.symm.trans hr
      size := Nat.le_refl _
      own := fun _ hc => hc
      settings := fun _ => rfl
      linkage := fun _ _ => rfl }

theorem addSession (h : Apart t site u v) (x : Session) : Apart t site u (v.addSession x) :=
  h.trans
    { sessions := fun r y hy => by
        obtain ⟨z, hz, rfl⟩ := Option.map_eq_some_iff.1 hy
        have hlt := (Array.getElem?_eq_some_iff.1 hz).1
        rw [lasting?, World.addSession, Array.getElem?_push, if_neg (Nat.ne_of_lt hlt), hz]
        rfl
      tasks := fun _ _ _ hr => hr
      fresh := fun r task _ hnone hr => nomatch hnone.symm.trans hr
      size := Nat.le_refl _
      own := fun _ hc => hc
      settings := fun _ => rfl
      linkage := fun _ _ => rfl }

theorem updateTask (h : Apart t site u v) {f : Task → Task}
    (hf : site = none → ∀ task, task.activity.call? = none → (f task).activity.call? = none) :
    Apart t site u (v.updateTask t f) :=
  h.trans
    { sessions := fun _ _ hx => hx
      tasks := fun r task hr htask => by
        rw [World.updateTask, Array.getElem?_modify, if_neg (Ne.symm hr), htask]
      fresh := fun r task hr hnone htask => by
        rw [World.updateTask, Array.getElem?_modify, if_neg (Ne.symm hr), hnone] at htask
        cases htask
      size := Nat.le_of_eq Array.size_modify.symm
      own := fun hs hc => by
        rw [call?, World.updateTask, Array.getElem?_modify, if_pos rfl]
        rw [call?] at hc
        cases htask : v.tasks[t]? with
        | none => rfl
        | some task =>
          rw [htask] at hc
          exact hf hs task hc
      settings := fun _ => rfl
      linkage := fun _ _ => rfl }

theorem become (h : Apart t site u v) {a : Activity} (ha : site = none → a.call? = none) :
    Apart t site u (v.become t a) :=
  h.updateTask fun hs _ _ => ha hs

theorem finish (h : Apart t site u v) (o : Outcome) : Apart t site u (v.finish t o) :=
  h.updateTask fun _ _ htask => htask

theorem spawn (h : Apart t site u v) {a : Activity} (ha : Task.IsFresh { activity := a })
    (ht : t < u.tasks.size) : Apart t site u (v.spawn a) :=
  h.trans
    { sessions := fun _ _ hx => hx
      tasks := fun r task hr htask => by
        have hlt := (Array.getElem?_eq_some_iff.1 htask).1
        rw [World.spawn, Array.getElem?_push, if_neg (Nat.ne_of_lt hlt), htask]
      fresh := fun r task hr hnone htask => by
        rw [World.spawn, Array.getElem?_push] at htask
        split at htask
        · cases htask
          exact ha
        · rw [hnone] at htask
          cases htask
      size := by simp [World.spawn]
      own := fun hs hc => by
        rw [call?, World.spawn, Array.getElem?_push,
          if_neg (Nat.ne_of_lt (Nat.lt_of_lt_of_le ht h.size))]
        exact hc
      settings := fun _ => rfl
      linkage := fun _ _ => rfl }

/-! ### Sessions and registries -/

theorem unlock (h : Apart t site u v) (s : Nat) : Apart t site u (v.unlock s) :=
  h.updateSession fun x => by split <;> rfl

theorem release (h : Apart t site u v) (s : Nat) : Apart t site u (v.release s) := by
  unfold World.release
  split
  · exact h
  · split
    · exact (h.updateSession (f := fun x => { x with held := none }) fun _ => rfl).drop _
    · exact h

theorem evict (h : Apart t (some n) u v) (s : Nat) : Apart t (some n) u (v.evict n s) := by
  unfold World.evict
  split
  · exact h
  · exact ((h.release s).count (.inl rfl)).updateApp (f := (·.lose _ s)) (fun _ => rfl) (.inl rfl)

theorem register (h : Apart t (some n) u v) (a : Address) (identity : Message) (s : Nat) :
    Apart t (some n) u (v.register n a identity s).2 := by
  unfold World.register
  split
  · exact h
  · next peer _ =>
    dsimp only
    split
    · exact h
    · have hput := ((h.updateNode (n := n)
        (f := fun node => { node with registry := node.registry.insert a s }) (fun _ => rfl)
        (.inl rfl)).count
        (c := .sessionAccepted) (.inl rfl)).updateApp (f := (·.accept identity peer s))
        (fun _ => rfl) (.inl rfl)
      split
      · exact hput
      · exact hput.evict _

theorem unregister (h : Apart t (some n) u v) (a : Address) :
    Apart t (some n) u (v.unregister n a).2 := by
  unfold World.unregister
  split
  · exact h
  · exact (h.updateNode (f := fun node => { node with registry := node.registry.erase a })
      (fun _ => rfl) (.inl rfl)).evict _

theorem removeBonded (h : Apart t (some n) u v) (a : Address) :
    Apart t (some n) u (v.removeBonded n a) :=
  (h.updateNode (f := fun node => { node with bonded := node.bonded.filter (· ≠ a) })
    (fun _ => rfl) (.inl rfl)).unregister a

theorem welcome (h : Apart t (some n) u v) (identity : Message) (a : Address)
    (device : Option String) : Apart t (some n) u (v.welcome n identity a device) := by
  unfold World.welcome
  cases device with
  | none => exact (h.addSession _).register _ _ _
  | some id =>
    have hbind (app : Application) : (app.bind id a).settings = app.settings := by
      unfold Application.bind
      split <;> rfl
    exact ((h.updateApp hbind (.inl rfl)).addSession _).register _ _ _

end Apart
end World
end RadioLink

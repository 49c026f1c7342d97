import RadioLink.Proofs.Air.Places
import RadioLink.Proofs.World.History
import RadioLink.Proofs.World.Listening

/-!
# Listeners that somebody attends to

Nodes take connections in at a place `q`, an address with an endpoint. By `World.Attended q` each
listener that is open there is one that a task waits for with `.listening`, and nobody else uses it.
It remains so (`World.Attended.event`) whatever satisfies `World.Around`: nodes are started and
stopped, radios are switched on and off, others connect, and all tasks take their steps. By `Deals`
an event has spared the links that wait at `q`, or has settled a whole queue, and started a task for
the link that was accepted, if there was one.
-/

namespace RadioLink

open Air (Spares Settles)

/-- A `task` that was started to take in a connection, with its `node`, its `stream` and the
`sender`. -/
structure Reception where
  task : Nat
  node : Nat
  stream : LinkEnd
  sender : Address
  deriving DecidableEq

/-- The `Reception` of task `t` if it starts with the activity of an `Accepting`. -/
def Activity.reception? (t : Nat) : Activity → Option Reception
  | .accepting ⟨node, sender, .ready (.link stream)⟩ => some ⟨t, node, stream, sender⟩
  | _ => none

/-- From `task` to `task'` the `role` is the same, no outcome has become none, and only a task that
listens was cancelled. -/
structure Task.Remains (task task' : Task) : Prop where
  role : task'.activity.role = task.activity.role
  live : task'.outcome = none → task.outcome = none
  cancelled : task'.cancelled = true →
    task.cancelled = true ∨ ∃ m, task.activity.role = .listening m

theorem Task.Remains.refl (task : Task) : task.Remains task := ⟨rfl, id, .inl⟩

/-- An activity of the same `role` as one that does not listen uses the same listener. -/
theorem Activity.listener?_of_role {a b : Activity} (h : b.role = a.role)
    (ha : ∀ l, a ≠ .listening l) : b.listener? = a.listener? := by
  cases a with
  | listening l => exact absurd rfl (ha l)
  | _ => cases b <;> simp_all [role, listener?]

namespace World

variable {q : Address × Endpoint} {w u v : World} {t : Nat}

/-- The `Reception`s of the tasks that were started from `w` to `u`. -/
def receptions (w u : World) : List Reception :=
  (List.range' w.tasks.size (u.tasks.size - w.tasks.size)).filterMap fun r =>
    u.tasks[r]?.bind (·.activity.reception? r)

theorem receptions_eq_nil (h : ∀ (r : Nat) (task : Task), w.tasks.size ≤ r →
    u.tasks[r]? = some task → task.activity.reception? r = none) : w.receptions u = [] := by
  rw [receptions, List.filterMap_eq_nil_iff]
  intro r hr
  cases htask : u.tasks[r]? with
  | none => rfl
  | some task => exact h r task (List.mem_range'_1.1 hr).1 htask

theorem receptions_of_size (h : u.tasks.size = w.tasks.size) : w.receptions u = [] :=
  receptions_eq_nil fun r task hr htask => by
    rw [Array.getElem?_eq_none (h ▸ hr)] at htask
    cases htask

theorem receptions_updateTask {f : Task → Task} (h : v.tasks = w.tasks) :
    w.receptions (v.updateTask t f) = [] :=
  receptions_of_size (Array.size_modify.trans (congrArg Array.size h))

theorem receptions_of_one {task : Task} {r : Reception} (hsize : u.tasks.size = w.tasks.size + 1)
    (htask : u.tasks[w.tasks.size]? = some task)
    (hr : task.activity.reception? w.tasks.size = some r) : w.receptions u = [r] := by
  have hone : u.tasks.size - w.tasks.size = 1 := by omega
  rw [receptions, hone]
  simp [List.range'_succ, htask, hr]

/-! ### The invariant -/

/-- Every listener that is open at `q` is one that a task waits for, and of all others only such a
task uses it. Only tasks that listen are cancelled. -/
structure Attended (q : Address × Endpoint) (w : World) : Prop where
  orderly : w.air.Orderly
  registered : w.air.Registered
  manned : ∀ id, w.air.place? id = some q → ∃ (t : Nat) (task : Task) (l : Listening),
    w.tasks[t]? = some task ∧ task.outcome = none ∧ task.activity = .listening l ∧
      l.stage = .waiting id
  owned : ∀ (t : Nat) (task : Task) (id : Nat), w.tasks[t]? = some task → task.outcome = none →
    task.activity.listener? = some id → id ≤ w.air.opened ∧ (w.air.place? id = some q →
      ∃ l, task.activity = .listening l ∧ w.place? l.node = some q)
  heads : ∀ n t, w.listening? n = some t → ∃ (task : Task) (m : Nat), w.tasks[t]? = some task ∧
    task.activity.role = .listening m
  kept : ∀ (t : Nat) (task : Task), w.tasks[t]? = some task → task.cancelled = true →
    ∃ m, task.activity.role = .listening m

/-- Where there are no tasks, and no listener is open at `q`, the world is `Attended`. -/
theorem attended_of_idle (orderly : w.air.Orderly) (registered : w.air.Registered)
    (closed : ∀ id, w.air.place? id ≠ some q) (idle : w.tasks = #[])
    (resting : ∀ n, w.listening? n = none) : Attended q w where
  orderly := orderly
  registered := registered
  manned id hid := absurd hid (closed id)
  owned t task id htask := by simp [idle] at htask
  heads n t ht := nomatch (resting n).symm.trans ht
  kept t task htask := by simp [idle] at htask

/-- What every event keeps of listeners, places and tasks. -/
structure Onward (q : Address × Endpoint) (w u : World) : Prop where
  orderly : u.air.Orderly
  registered : u.air.Registered
  opened : w.air.opened ≤ u.air.opened
  fresh : ∀ id, u.air.place? id = some q → w.air.place? id = some q ∨ w.air.opened < id
  places : ∀ n p, w.place? n = some p → u.place? n = some p
  heads : ∀ n t, u.listening? n = some t → w.listening? n = some t ∨
    ∃ (task : Task) (m : Nat), u.tasks[t]? = some task ∧ task.activity.role = .listening m
  old : ∀ (r : Nat) (task : Task), w.tasks[r]? = some task →
    ∃ task', u.tasks[r]? = some task' ∧ task.Remains task'
  new : ∀ (r : Nat) (task : Task), w.tasks.size ≤ r → u.tasks[r]? = some task →
    task.cancelled = false

/-- What an event has done with the links that wait at `q`: it `Spares` them, or `Settles` the queue
of one listener, with the `Reception` of the link that was taken out. -/
inductive Deals (q : Address × Endpoint) (w u : World) : List Reception → Prop where
  | spares (air : Spares q w.air u.air) : Deals q w u []
  | shuts {id : Nat} (air : Settles id none w.air u.air) : Deals q w u []
  | takes {id : Nat} {r : Reception} (air : Settles id (some r.stream.link) w.air u.air)
      (side : r.stream.side = .callee) (sender : u.air.remote? r.stream = some r.sender)
      (node : w.air.place? id = some q → w.place? r.node = some q)
      (task : ∃ task, u.tasks[r.task]? = some task ∧
        task.activity.role = .accepting r.node r.sender) : Deals q w u [r]

theorem Attended.onward (h : Attended q w) (ho : Onward q w u)
    (manned : ∀ id, u.air.place? id = some q → ∃ (t : Nat) (task : Task) (l : Listening),
      u.tasks[t]? = some task ∧ task.outcome = none ∧ task.activity = .listening l ∧
        l.stage = .waiting id)
    (owned : ∀ (t : Nat) (task : Task) (id : Nat), u.tasks[t]? = some task → task.outcome = none →
      task.activity.listener? = some id → id ≤ u.air.opened ∧ (u.air.place? id = some q →
        ∃ l, task.activity = .listening l ∧ u.place? l.node = some q)) : Attended q u where
  orderly := ho.orderly
  registered := ho.registered
  manned := manned
  owned := owned
  heads n t ht := by
    obtain hold | hnew := ho.heads n t ht
    · obtain ⟨task, m, htask, hrole⟩ := h.heads n t hold
      obtain ⟨task', htask', hremains⟩ := ho.old t task htask
      exact ⟨task', m, htask', hremains.role.trans hrole⟩
    · exact hnew
  kept t task htask hcancelled := by
    by_cases hlt : t < w.tasks.size
    · obtain ⟨former, hformer⟩ : ∃ former, w.tasks[t]? = some former :=
        ⟨_, Array.getElem?_eq_getElem hlt⟩
      obtain ⟨task', htask', hremains⟩ := ho.old t former hformer
      cases htask.symm.trans htask'
      rw [hremains.role]
      exact (hremains.cancelled hcancelled).elim (h.kept t former hformer) fun hlistens => hlistens
    · rw [ho.new t task (Nat.le_of_not_lt hlt) htask] at hcancelled
      cases hcancelled

/-! ### As long as nobody who listens goes on -/

/-- From `w` to `u` no task that listens has taken a step, and nobody else has used a listener at
`q`. -/
structure Rests (q : Address × Endpoint) (w u : World) : Prop where
  spares : Spares q w.air u.air
  registered : u.air.Registered
  closed : ∀ id, u.air.place? id = some q → w.air.place? id = some q
  places : ∀ n p, w.place? n = some p → u.place? n = some p
  heads : ∀ n t, u.listening? n = some t → w.listening? n = some t ∨
    ∃ (task : Task) (m : Nat), u.tasks[t]? = some task ∧ task.activity.role = .listening m
  old : ∀ (r : Nat) (task : Task), w.tasks[r]? = some task → ∃ task', u.tasks[r]? = some task' ∧
    task.Remains task' ∧ (task'.outcome = none →
      task'.activity.listener? = task.activity.listener?) ∧
    ∀ l, task.activity = .listening l → task'.activity = .listening l ∧
      task'.outcome = task.outcome
  new : ∀ (r : Nat) (task : Task), w.tasks.size ≤ r → u.tasks[r]? = some task →
    task.cancelled = false ∧ task.activity.reception? r = none ∧
      ∀ id, task.activity.listener? = some id → id ≤ w.air.opened ∧ w.air.place? id ≠ some q

namespace Rests

theorem onward (h : Rests q w u) : Onward q w u where
  orderly := h.spares.orderly
  registered := h.registered
  opened := h.spares.opened
  fresh := h.spares.fresh
  places := h.places
  heads := h.heads
  old r task htask := by
    obtain ⟨task', htask', hremains, -⟩ := h.old r task htask
    exact ⟨task', htask', hremains⟩
  new r task hr htask := (h.new r task hr htask).1

theorem deals (h : Rests q w u) : Deals q w u (w.receptions u) := by
  rw [receptions_eq_nil fun r task hr htask => (h.new r task hr htask).2.1]
  exact .spares h.spares

theorem attended (h : Rests q w u) (hw : Attended q w) : Attended q u := by
  refine hw.onward h.onward (fun id hid => ?_) fun t task id htask hlive hid => ?_
  · obtain ⟨t, task, l, htask, hlive, hactivity, hstage⟩ := hw.manned id (h.closed id hid)
    obtain ⟨task', htask', -, -, hsame⟩ := h.old t task htask
    obtain ⟨hactivity', houtcome'⟩ := hsame l hactivity
    exact ⟨t, task', l, htask', houtcome'.trans hlive, hactivity', hstage⟩
  · by_cases hlt : t < w.tasks.size
    · obtain ⟨former, hformer⟩ : ∃ former, w.tasks[t]? = some former :=
        ⟨_, Array.getElem?_eq_getElem hlt⟩
      obtain ⟨task', htask', hremains, hlistener, hsame⟩ := h.old t former hformer
      cases htask.symm.trans htask'
      obtain ⟨hle, hplace⟩ := hw.owned t former id hformer (hremains.live hlive)
        ((hlistener hlive).symm.trans hid)
      refine ⟨Nat.le_trans hle h.spares.opened, fun hq => ?_⟩
      obtain ⟨l, hactivity, hnode⟩ := hplace (h.closed id hq)
      exact ⟨l, (hsame l hactivity).1, h.places _ _ hnode⟩
    · obtain ⟨hle, hne⟩ := (h.new t task (Nat.le_of_not_lt hlt) htask).2.2 id hid
      exact ⟨Nat.le_trans hle h.spares.opened, fun hq => absurd (h.closed id hq) hne⟩

/-- A change of the air by acts that `Avoids` the place, and of nodes and other things, is one of
`Rests`. -/
theorem of_tasks (acts : List Air.Act) (hw : Attended q w) (htasks : u.tasks = w.tasks)
    (hair : u.air = acts.foldl Air.perform w.air) (hacts : ∀ x ∈ acts, x.Avoids q w.air)
    (hplaces : ∀ n p, w.place? n = some p → u.place? n = some p)
    (hheads : ∀ n t, u.listening? n = some t → w.listening? n = some t) : Rests q w u := by
  obtain ⟨hspares, hclosed⟩ := Air.spares_foldl hw.orderly hacts
  refine ⟨hair ▸ hspares, hair ▸ hw.registered.foldl hw.orderly acts, fun id hid => ?_, hplaces,
    fun n t ht => .inl (hheads n t ht), fun r task htask => ?_, fun r task hr htask => ?_⟩
  · exact hclosed id (hair ▸ hid)
  · exact ⟨task, htasks ▸ htask, .refl task, fun _ => rfl, fun l hl => ⟨hl, rfl⟩⟩
  · rw [htasks, Array.getElem?_eq_none hr] at htask
    cases htask

/-- A step of a task that does not listen is one of `Rests`. -/
theorem of_step (hw : Attended q w) {task : Task} (htask : w.tasks[t]? = some task)
    (hlive : task.outcome = none) (hother : ∀ l, task.activity ≠ .listening l)
    (hs : w.step t = some u) : Rests q w u := by
  obtain ⟨_, htask', -, hadvances, -⟩ := exists_advances hs
  cases htask.symm.trans htask'
  obtain ⟨acts, hair, hmay⟩ := hadvances.exists_acts
  -- a listener that is open at the place is one of a task that listens, so it is not this task's
  have hacts (x : Air.Act) (hx : x ∈ acts) : x.Avoids q w.air := by
    have hx := hmay x hx
    cases x with
    | listen owner e =>
      obtain ⟨l, node, hactivity, -⟩ := hx
      exact absurd hactivity (hother l)
    | accept id | close id =>
      obtain ⟨hle, hplace⟩ := hw.owned t task id htask hlive hx
      refine ⟨hle, fun hq => ?_⟩
      obtain ⟨l, hactivity, -⟩ := hplace hq
      exact hother l hactivity
    | switchOn | switchOff | bond | unbond | failNext => exact hx.elim
    | _ => exact trivial
  obtain ⟨hspares, hclosed⟩ := Air.spares_foldl hw.orderly hacts
  have hlt : t < w.tasks.size := (Array.getElem?_eq_some_iff.1 htask).1
  refine ⟨hair ▸ hspares, hair ▸ hw.registered.foldl hw.orderly acts, fun id hid => ?_,
    fun n p hp => (hadvances.sameNodes.place n).trans hp,
    fun n t' ht' => .inl ((hadvances.sameNodes.listening n).symm.trans ht'),
    fun r former hformer => ?_, fun r new hr hnew => ?_⟩
  · exact hclosed id (hair ▸ hid)
  · by_cases hrt : r = t
    · subst hrt
      cases htask.symm.trans hformer
      obtain ⟨b, hrole, hown⟩ | ⟨o, hown⟩ := hadvances.own htask
      · exact ⟨_, hown, ⟨hrole, id, .inl⟩, fun _ => Activity.listener?_of_role hrole hother,
          fun l hl => absurd hl (hother l)⟩
      · exact ⟨_, hown, ⟨rfl, nofun, .inl⟩, nofun, fun l hl => absurd hl (hother l)⟩
    · have hr := (Array.getElem?_eq_some_iff.1 hformer).1
      exact ⟨former, (hadvances.old hr hrt).trans hformer, .refl _, fun _ => rfl,
        fun l hl => ⟨hl, rfl⟩⟩
  · obtain ⟨b, hspawns, rfl⟩ := hadvances.new hlt hr hnew
    obtain ⟨s, rfl, -⟩ | ⟨l, sender, stream, hactivity, -⟩ := hspawns
    · exact ⟨rfl, rfl, nofun⟩
    · exact absurd hactivity (hother l)

theorem of_start (hw : Attended q w) (n : Nat) : Rests q w (w.start n).2 := by
  obtain hsame | ⟨v, h⟩ := w.start_cases n
  · rw [hsame]
    exact of_tasks [] hw rfl rfl nofun (fun _ _ hp => hp) fun _ _ ht => ht
  · have hnew (r : Nat) (hr : w.tasks.size ≤ r) : w.listening? n ≠ some r := fun heq => by
      obtain ⟨task, m, htask, -⟩ := hw.heads n r heq
      rw [Array.getElem?_eq_none hr] at htask
      cases htask
    refine ⟨by rw [h.air]; exact .refl hw.orderly, h.air ▸ hw.registered,
      fun id hid => h.air ▸ hid, fun m p hp => (h.place m).trans hp, fun m t ht => ?_,
      fun r task htask => ?_, fun r task hr htask => ?_⟩
    · rw [h.listening] at ht
      split at ht
      · obtain rfl := Option.some.inj ht
        refine .inr ⟨{ activity := .listening { node := n } }, n, ?_, rfl⟩
        rw [h.tasks, if_neg (hnew _ h.more.size), World.spawn, Array.getElem?_push_size]
      · exact .inl ht
    · have hr := (Array.getElem?_eq_some_iff.1 htask).1
      have hspawned : (v.spawn (.listening { node := n })).tasks[r]? = some task := by
        rw [World.spawn, Array.getElem?_push, if_neg, h.more.old r hr, htask]
        exact Nat.ne_of_lt (Nat.lt_of_lt_of_le hr h.more.size)
      rw [h.tasks, hspawned]
      split
      · next hformer =>
        -- the task that is cancelled is one that listens
        obtain ⟨task', m, htask', hrole⟩ := hw.heads n r hformer
        cases htask.symm.trans htask'
        exact ⟨_, rfl, ⟨rfl, id, fun _ => .inr ⟨m, hrole⟩⟩, fun _ => rfl, fun l hl => ⟨hl, rfl⟩⟩
      · exact ⟨task, rfl, .refl task, fun _ => rfl, fun l hl => ⟨hl, rfl⟩⟩
    · rw [h.tasks, if_neg (hnew r hr)] at htask
      obtain hold | ⟨d, rfl⟩ | ⟨-, rfl⟩ := h.task_cases htask
      · rw [Array.getElem?_eq_none hr] at hold
        cases hold
      · refine ⟨rfl, rfl, fun id hid => ?_⟩
        cases hid
      · refine ⟨rfl, rfl, fun id hid => ?_⟩
        cases hid

theorem of_spawn (hw : Attended q w) {b : Activity} (hnone : b.reception? w.tasks.size = none)
    (hlistener : ∀ id, b.listener? = some id → id ≤ w.air.opened ∧ w.air.place? id ≠ some q) :
    Rests q w (w.spawn b) := by
  refine ⟨.refl hw.orderly, hw.registered, fun _ hid => hid, fun _ _ hp => hp,
    fun _ _ ht => .inl ht, fun r task htask => ?_, fun r task hr htask => ?_⟩
  · have hr := (Array.getElem?_eq_some_iff.1 htask).1
    refine ⟨task, ?_, .refl task, fun _ => rfl, fun l hl => ⟨hl, rfl⟩⟩
    rw [World.spawn, Array.getElem?_push, if_neg (Nat.ne_of_lt hr), htask]
  · rw [World.spawn, Array.getElem?_push] at htask
    split at htask
    · next heq =>
      cases htask
      exact ⟨rfl, heq ▸ hnone, hlistener⟩
    · rw [Array.getElem?_eq_none hr] at htask
      cases htask

end Rests

/-! ### A task that listens goes on -/

/-- What a step of task `t`, which listens, does to the air and to itself, and the `Reception` that
it starts. -/
inductive Handled (w u : World) (t : Nat) (l : Listening) : List Reception → Prop where
  | rests (away : ∀ id, l.stage ≠ .waiting id) (air : u.air = w.air)
      (idle : ∀ task, u.tasks[t]? = some task → task.outcome = none →
        task.activity.listener? = none) : Handled w u t l []
  | opens {task : Task} {node : Node} {id : Nat} (stage : l.stage = .ready)
      (hnode : w.nodes[l.node]? = some node)
      (listen : w.air.listen (Listening.place node).1 (Listening.place node).2 = (.ok id, u.air))
      (waits : u.tasks[t]? = some task ∧ task.outcome = none ∧
        task.activity = .listening { l with stage := .waiting id }) : Handled w u t l []
  | shuts {id : Nat} (stage : l.stage = .waiting id) (air : Settles id none w.air u.air)
      (idle : ∀ task, u.tasks[t]? = some task → task.outcome = none →
        task.activity.listener? = none) : Handled w u t l []
  | takes {id : Nat} {stream : LinkEnd} {sender : Address} (stage : l.stage = .waiting id)
      (air : Settles id (some stream.link) w.air u.air) (side : stream.side = .callee)
      (remote : u.air.remote? stream = some sender)
      (idle : ∀ task, u.tasks[t]? = some task → task.outcome = none →
        task.activity.listener? = none)
      (started : u.tasks[w.tasks.size]?
        = some { activity := .accepting ⟨l.node, sender, .ready (.link stream)⟩ }) :
      Handled w u t l [⟨w.tasks.size, l.node, stream, sender⟩]

/-- A task with an outcome uses no listener. -/
theorem idle_finish {task : Task} {o : Outcome} (htask : v.tasks[t]? = some task) (task' : Task)
    (htask' : (v.finish t o).tasks[t]? = some task') (hlive : task'.outcome = none) :
    task'.activity.listener? = none := by
  cases (tasks_finish htask).symm.trans htask'
  cases hlive

theorem idle_become {task : Task} {a : Activity} (htask : v.tasks[t]? = some task)
    (ha : a.listener? = none) (task' : Task) (htask' : (v.become t a).tasks[t]? = some task')
    (_ : task'.outcome = none) : task'.activity.listener? = none := by
  cases (tasks_become htask).symm.trans htask'
  exact ha

theorem handled_of_move {task : Task} {l : Listening} {node : Node} (hair : w.air.Orderly)
    (htask : w.tasks[t]? = some task) (hlive : task.outcome = none)
    (hnode : w.nodes[l.node]? = some node) (hmove : l.Move t node w u) :
    Handled w u t l (w.receptions u) := by
  cases hmove with
  | @rests v stage idle away _ htasks heq =>
    rw [World.become, receptions_updateTask htasks]
    refine .rests away heq (idle_become (htasks ▸ htask) ?_)
    obtain rfl | ⟨timer, rfl⟩ := idle <;> rfl
  | ends away _ htasks heq =>
    rw [World.finish, receptions_updateTask htasks]
    exact .rests away heq (idle_finish (htasks ▸ htask))
  | opens stage _ listen htasks =>
    rw [World.become, receptions_updateTask htasks]
    exact .opens stage hnode listen ⟨tasks_become (htasks ▸ htask), hlive, rfl⟩
  | @shuts v _ id stage htasks heq after =>
    -- the listener is closed: by the task, or by the accept that failed
    have hsettles : Settles id none w.air v.air := by
      obtain heq | ⟨⟨fault, haccept⟩, heq⟩ := heq
      · rw [heq]
        exact Air.settles_close hair id
      · rw [heq]
        exact Air.settles_of_error hair haccept
    obtain ⟨timer, rfl⟩ | ⟨o, rfl⟩ := after
    · rw [World.become, receptions_updateTask htasks]
      exact .shuts stage hsettles (idle_become (htasks ▸ htask) rfl)
    · rw [World.finish, receptions_updateTask htasks]
      exact .shuts stage hsettles (idle_finish (htasks ▸ htask))
  | @takes v id stream sender stage accept remote htasks =>
    obtain ⟨hside, hsettles⟩ := Air.settles_of_connected hair accept
    have htask' : v.tasks[t]? = some task := htasks ▸ htask
    have hlt : t < w.tasks.size := (Array.getElem?_eq_some_iff.1 htask).1
    -- the task that takes the connection in is the newest one
    have hstarted : (v.handOver t l id stream sender).tasks[w.tasks.size]?
        = some { activity := .accepting ⟨l.node, sender, .ready (.link stream)⟩ } := by
      rw [World.handOver, World.become, World.updateTask, Array.getElem?_modify,
        if_neg (Nat.ne_of_lt hlt), World.spawn, ← htasks]
      exact Array.getElem?_push_size
    rw [receptions_of_one ((Listening.size_handOver ..).trans (by rw [htasks])) hstarted rfl]
    refine .takes stage hsettles (congrArg LinkEnd.side hside) ?_ (fun task' htask'' _ => ?_)
      hstarted
    · exact Air.remote?_perform (.close id) remote
    · cases (Listening.tasks_handOver htask' id stream sender).symm.trans htask''
      rfl

theorem handled_of_step {task : Task} {l : Listening} (hair : w.air.Orderly)
    (htask : w.tasks[t]? = some task) (hactivity : task.activity = .listening l)
    (hs : w.step t = some u) : Handled w u t l (w.receptions u) := by
  obtain ⟨_, htask', hlive, -, hstep⟩ := exists_advances hs
  cases htask.symm.trans htask'
  rw [hactivity] at hstep
  split at hstep
  · -- it has been cancelled, so it ends, and closes the listener that it waits at
    obtain ⟨n, stage⟩ := l
    have hnone {v : World} (htasks : v.tasks = w.tasks) :
        w.receptions (v.finish t .aborted) = [] := receptions_updateTask htasks
    by_cases hwaiting : ∃ id, stage = .waiting id
    · obtain ⟨id, rfl⟩ := hwaiting
      obtain rfl : u = (w.closeListener id).finish t .aborted := hstep
      rw [hnone (v := w.closeListener id) rfl]
      exact .shuts rfl (Air.settles_close hair id) (idle_finish (v := w.closeListener id) htask)
    · have hends : u = w.finish t .aborted := by
        rw [hstep]
        unfold World.abortListening
        split
        · next heq =>
          cases heq
          exact absurd ⟨_, rfl⟩ hwaiting
        · rfl
      rw [hends, hnone rfl]
      exact .rests (fun id heq => hwaiting ⟨id, heq⟩) rfl (idle_finish htask)
  · obtain ⟨node, hnode, hmove⟩ := Listening.move_of_step hstep
    exact handled_of_move hair htask hlive hnode hmove

/-- A step of a task in `.waiting id` `Settles` the queue of listener `id`. -/
theorem Handled.settles {l : Listening} {id : Nat} {rs : List Reception} (h : Handled w u t l rs)
    (hstage : l.stage = .waiting id) : ∃ taken, Settles id taken w.air u.air := by
  cases h with
  | rests away => exact absurd hstage (away id)
  | opens stage => cases stage.symm.trans hstage
  | shuts stage air | takes stage air =>
    cases stage.symm.trans hstage
    exact ⟨_, air⟩

/-! ### Every event -/

/-- Every step is `Onward`. -/
theorem Onward.of_step (hw : Attended q w) (hs : w.step t = some u) : Onward q w u := by
  obtain ⟨task, htask, -, hadvances, -⟩ := exists_advances hs
  obtain ⟨acts, hair, -⟩ := hadvances.exists_acts
  have hopened := Air.opened_le_foldl w.air acts
  have hlt : t < w.tasks.size := (Array.getElem?_eq_some_iff.1 htask).1
  refine ⟨hair ▸ hw.orderly.foldl acts, hair ▸ hw.registered.foldl hw.orderly acts, hair ▸ hopened,
    fun id hid => Air.fresh_foldl (hair ▸ hid),
    fun n p hp => (hadvances.sameNodes.place n).trans hp,
    fun n t' ht' => .inl ((hadvances.sameNodes.listening n).symm.trans ht'),
    fun r former hformer => ?_, fun r new hr hnew => ?_⟩
  · by_cases hrt : r = t
    · subst hrt
      cases htask.symm.trans hformer
      obtain ⟨b, hrole, hown⟩ | ⟨o, hown⟩ := hadvances.own htask
      · exact ⟨_, hown, hrole, id, .inl⟩
      · exact ⟨_, hown, rfl, nofun, .inl⟩
    · have hr := (Array.getElem?_eq_some_iff.1 hformer).1
      exact ⟨former, (hadvances.old hr hrt).trans hformer, .refl _⟩
  · obtain ⟨b, -, rfl⟩ := hadvances.new hlt hr hnew
    rfl

theorem Handled.deals {l : Listening} {rs : List Reception} (h : Handled w u t l rs)
    (hw : Attended q w) {task : Task} (htask : w.tasks[t]? = some task)
    (hlive : task.outcome = none) (hactivity : task.activity = .listening l) : Deals q w u rs := by
  cases h with
  | rests away air idle =>
    refine .spares ?_
    rw [air]
    exact .refl hw.orderly
  | opens stage hnode listen =>
    have hair : u.air = (w.air.listen _ _).2 := (congrArg Prod.snd listen).symm
    refine .spares ?_
    rw [hair]
    exact Air.spares_listen hw.orderly _ _
  | shuts stage air => exact .shuts air
  | @takes id stream sender stage air side remote idle started =>
    refine .takes air side remote (fun hid => ?_) ⟨_, started, rfl⟩
    obtain ⟨n, s⟩ := l
    obtain rfl : s = .waiting id := stage
    obtain ⟨l', hl', hnode⟩ := (hw.owned t task id htask hlive (by rw [hactivity]; rfl)).2 hid
    cases hactivity.symm.trans hl'
    exact hnode

theorem Handled.attended {l : Listening} {rs : List Reception} (h : Handled w u t l rs)
    (hw : Attended q w) {task : Task} (htask : w.tasks[t]? = some task)
    (hactivity : task.activity = .listening l) (hs : w.step t = some u) : Attended q u := by
  have honward := Onward.of_step hw hs
  obtain ⟨_, hsame, -, hadvances, -⟩ := exists_advances hs
  cases htask.symm.trans hsame
  clear hsame
  have hlt : t < w.tasks.size := (Array.getElem?_eq_some_iff.1 htask).1
  -- a listener that the task does not wait for has another task that waits for it
  have hother (id : Nat) (hid : w.air.place? id = some q) (hne : l.stage ≠ .waiting id) :
      ∃ (t : Nat) (task : Task) (l : Listening), u.tasks[t]? = some task ∧ task.outcome = none ∧
        task.activity = .listening l ∧ l.stage = .waiting id := by
    obtain ⟨t', task', l', htask', hrest⟩ := hw.manned id hid
    have hne' : t' ≠ t := by
      rintro rfl
      cases htask.symm.trans htask'
      cases hactivity.symm.trans hrest.2.1
      exact hne hrest.2.2
    exact ⟨t', task', l', (hadvances.old (Array.getElem?_eq_some_iff.1 htask').1 hne').trans htask',
      hrest⟩
  -- First each open listener at the place has a task that waits for it, then each such task has its
  -- listener there.
  refine hw.onward honward (fun id hid => ?_) fun t' task' id htask' hlive' hid => ?_
  · cases h with
    | rests away air => exact hother id (air ▸ hid) (away id)
    | @opens task' node id' stage hnode listen waits =>
      have hair : (w.air.listen _ _).2 = u.air := congrArg Prod.snd listen
      obtain hold | ⟨-, hnew⟩ := Air.place?_listen _ _ (hair ▸ hid)
      · exact hother id hold (by rw [stage]; exact nofun)
      · rw [hnew, ← (Air.listen_eq_ok listen).1]
        exact ⟨t, task', _, waits.1, waits.2.1, waits.2.2, rfl⟩
    | shuts stage air | takes stage air =>
      rw [air.place] at hid
      split at hid
      · cases hid
      · next hne =>
        refine hother id hid fun heq => hne ?_
        exact Listening.Stage.waiting.inj (heq.symm.trans stage)
  · by_cases htt : t' = t
    · subst htt
      cases h with
      | rests _ _ idle | shuts _ _ idle | takes _ _ _ _ idle =>
        rw [idle task' htask' hlive'] at hid
        cases hid
      | @opens task'' node id' stage hnode listen waits =>
        obtain ⟨hown, -, hactivity'⟩ := waits
        cases htask'.symm.trans hown
        rw [hactivity'] at hid ⊢
        obtain rfl : id' = id := Option.some.inj hid
        obtain ⟨hid', hopened⟩ := Air.listen_eq_ok listen
        have hair : (w.air.listen _ _).2 = u.air := congrArg Prod.snd listen
        refine ⟨Nat.le_of_eq hopened.symm, fun hq => ⟨_, rfl, honward.places _ _ ?_⟩⟩
        obtain hold | ⟨rfl, -⟩ := Air.place?_listen _ _ (hair ▸ hq)
        · -- listeners are numbered in the order in which they were opened, and this one is new
          have := hw.orderly.numbered id' (by rw [hold]; exact Option.some_ne_none _)
          omega
        · rw [place?, hnode]
          rfl
    · by_cases hlt' : t' < w.tasks.size
      · have hsame := (hadvances.old hlt' htt).symm.trans htask'
        obtain ⟨hle, hplace⟩ := hw.owned t' task' id hsame hlive' hid
        refine ⟨Nat.le_trans hle honward.opened, fun hq => ?_⟩
        obtain hold | hnew := honward.fresh id hq
        · obtain ⟨l', hl', hnode⟩ := hplace hold
          exact ⟨l', hl', honward.places _ _ hnode⟩
        · omega
      · obtain ⟨b, hspawns, rfl⟩ := hadvances.new hlt (Nat.le_of_not_lt hlt') htask'
        obtain ⟨s, rfl, -⟩ | ⟨l', sender, stream, -, rfl⟩ := hspawns <;> cases hid

/-! ### What may happen around -/

/-- What others may do: start and stop nodes; perform acts that `Avoids` the place; start tasks that
neither use a listener at `q` nor have a `Reception`. What leaves the air and tasks alone is free
(`aside`). -/
inductive Around (q : Address × Endpoint) : World → World → Prop where
  | start {w : World} (n : Nat) : Around q w (w.start n).2
  | stop {w : World} (n : Nat) : Around q w (w.beginStop n).2
  | act {w : World} {x : Air.Act} (h : x.Avoids q w.air) :
      Around q w { w with air := w.air.perform x }
  | spawn {w : World} {b : Activity} (hnone : b.reception? w.tasks.size = none)
      (hlistener : ∀ id, b.listener? = some id → id ≤ w.air.opened ∧ w.air.place? id ≠ some q) :
      Around q w (w.spawn b)
  | aside {w u : World} (air : u.air = w.air) (tasks : u.tasks = w.tasks)
      (places : ∀ n p, w.place? n = some p → u.place? n = some p)
      (heads : ∀ n t, u.listening? n = some t → w.listening? n = some t) : Around q w u

/-- A call of `removeBonded` is one of `Rests`: it drops the connection that the session holds, at
most. -/
theorem Rests.of_removal (hw : Attended q w) (n : Nat) (a : Address) :
    Rests q w (w.removeBonded n a) := by
  have hcourse : Course w.tasks.size (.inspecting ⟨0, false⟩) w [] (w.removeBonded n a) :=
    Course.start.removeBonded (Nat.le_refl _) n a
  obtain ⟨acts, hair, hmay⟩ := hcourse.exists_acts
  refine .of_tasks acts hw (tasks_removeBonded ..) hair (fun x hx => ?_)
    (fun m p hp => (hcourse.sameNodes.place m).trans hp)
    fun m t ht => (hcourse.sameNodes.listening m).symm.trans ht
  have hx := hmay x hx
  cases x with
  | listen owner e =>
    obtain ⟨l, node, hactivity, -⟩ := hx
    cases hactivity
  | accept id | close id => cases hx
  | switchOn | switchOff | bond | unbond | failNext => exact hx.elim
  | _ => exact trivial

theorem Rests.of_around (hw : Attended q w) (h : Around q w u) : Rests q w u := by
  cases h with
  | start n => exact .of_start hw n
  | stop n =>
    refine .of_tasks [] hw (tasks_beginStop w n) (air_beginStop w n) nofun
      (fun m p hp => (place?_beginStop w n m).trans hp) fun m t ht => ?_
    rw [listening?_beginStop] at ht
    split at ht
    · cases ht
    · exact ht
  | act hx =>
    exact .of_tasks [_] hw rfl rfl (fun y hy => List.mem_singleton.1 hy ▸ hx)
      (fun _ _ hp => hp) fun _ _ ht => ht
  | spawn hnone hlistener => exact .of_spawn hw hnone hlistener
  | aside air tasks places heads => exact .of_tasks [] hw tasks air nofun places heads

/-- After every event the world is `Attended`, and the event is `Onward` and `Deals` with the links
that wait. -/
theorem Attended.event {e : Event} (hw : Attended q e.before) (he : e.Happens (Around q)) :
    Attended q e.after ∧ Onward q e.before e.after ∧
      Deals q e.before e.after (e.before.receptions e.after) := by
  obtain ⟨cause, before, after⟩ := e
  cases cause with
  | task t =>
    obtain ⟨task, htask, hlive, -, -⟩ := exists_advances he
    by_cases hlistens : ∃ l, task.activity = .listening l
    · obtain ⟨l, hactivity⟩ := hlistens
      have hhandled := handled_of_step hw.orderly htask hactivity he
      exact ⟨hhandled.attended hw htask hactivity he, .of_step hw he,
        hhandled.deals hw htask hlive hactivity⟩
    · have hrests := Rests.of_step hw htask hlive (fun l hl => hlistens ⟨l, hl⟩) he
      exact ⟨hrests.attended hw, hrests.onward, hrests.deals⟩
  | removal n a =>
    obtain rfl : after = before.removeBonded n a := he
    have hrests := Rests.of_removal hw n a
    exact ⟨hrests.attended hw, hrests.onward, hrests.deals⟩
  | other =>
    have hrests := Rests.of_around hw he
    exact ⟨hrests.attended hw, hrests.onward, hrests.deals⟩

end World
end RadioLink

import RadioLink.Proofs.Config.Limits
import RadioLink.Proofs.World.Retrying
import RadioLink.Proofs.World.Rounds

/-!
# How long tasks wait

There are two kinds of `Wait` that settings have a limit for: the pause between two attempts of a
session or an announcement, or between two rounds of a listener; and an attempt to connect. A wait
is set by a step of the task itself, to at most `LinkConfig.longest` of some node
(`resets_of_step`), and nobody puts it off. So where time does not pass a timer before its task has
gone on (`World.Timely`), no wait is longer than that; what the settings that pass the check can say
is in `RadioLink.Proofs.Config.Limits`.
-/

namespace RadioLink

/-! ### Waits -/

/-- What a task waits for that settings have a limit for. -/
inductive Wait where
  /-- The time between two attempts, or two rounds. -/
  | pause
  /-- An attempt to connect that has not been answered. -/
  | attempt

/-- The most seconds that a `Wait` may take. -/
def Wait.limit : Wait → Nat
  | .pause => 60
  | .attempt => 300

/-- The longest that a `Wait` can be by the settings `c`. -/
def LinkConfig.longest (c : LinkConfig) : Wait → Nat
  | .pause => max c.session.maxRetryBackoff (max c.announce.retryBackoff c.listener.errorBackoff)
  | .attempt => c.session.connectTimeout

/-- If `c` is `Within` its limits, so is `c.longest`. -/
theorem LinkConfig.Within.longest_le {parts : Nat} {longest : Nat → Nat} {c : LinkConfig}
    (h : c.Within parts longest) (k : Wait) : c.longest k ≤ longest k.limit := by
  cases k with
  | pause =>
    exact Nat.max_le.2 ⟨h.session.backoff.2, Nat.max_le.2 ⟨h.announce.backoff, h.listener.backoff⟩⟩
  | attempt => exact h.session.connect.2

/-- The timer of a `Retry` that is in a `Wait`. -/
def Retry.waits (k : Wait) (r : Retry) : Option Timer :=
  match k, r.stage with
  | .attempt, .calling call => some call.deadline
  | .pause, .pausing timer => some timer
  | _, _ => none

/-- The timer of a `Handling` that is in a `Wait`. -/
def Handling.waits (k : Wait) (d : Handling) : Option Timer :=
  match k, d.stage with
  | .attempt, .calling call => some call.deadline
  | _, _ => none

/-- The timer of an `Announcing` that is in a `Wait`. -/
def Announcing.waits (k : Wait) (a : Announcing) : Option Timer :=
  match k, a.stage with
  | .attempt, .calling call => some call.deadline
  | .pause, .pausing timer => some timer
  | _, _ => none

/-- The timer of a `Listening` that is in a `Wait`. -/
def Listening.waits (k : Wait) (l : Listening) : Option Timer :=
  match k, l.stage with
  | .pause, .pausing timer => some timer
  | _, _ => none

/-- The timer of an activity that is in a `Wait`. -/
def Activity.waits (k : Wait) : Activity → Option Timer
  | .sending ⟨_, _, _, .connecting retry _⟩ => retry.waits k
  | .connecting retry => retry.waits k
  | .handling d => d.waits k
  | .accepting ⟨_, _, .handling d⟩ => d.waits k
  | .announcing a => a.waits k
  | .listening l => l.waits k
  | _ => none

/-- The timer of a `Wait` is the one that `Activity.timer?` tells. -/
theorem Activity.timer?_of_waits {a : Activity} {k : Wait} {timer : Timer}
    (h : a.waits k = some timer) : a.timer? = some timer := by
  cases a with
  | sending s =>
    obtain ⟨_, _, _, _ | _ | ⟨⟨_, _, _, _ | call | pause⟩, _⟩ | _⟩ := s <;> cases k <;> cases h
    all_goals rfl
  | connecting r => obtain ⟨_, _, _, _ | call | pause⟩ := r <;> cases k <;> cases h <;> rfl
  | handling d =>
    obtain ⟨_, _, _ | call | fetch⟩ := d <;> cases k <;> cases h
    rfl
  | accepting d =>
    obtain ⟨_, _, _ | _ | ⟨_, _, _ | call | fetch⟩⟩ := d <;> cases k <;> cases h
    rfl
  | announcing d => obtain ⟨_, _, _, _ | call | _ | pause⟩ := d <;> cases k <;> cases h <;> rfl
  | listening l =>
    obtain ⟨_, _ | _ | _ | pause⟩ := l <;> cases k <;> cases h
    rfl
  | inspecting i => cases h
  | serving s => cases h
  | capturing c => cases h

/-- A node that `create` returns has settings that are `Accepted`, in milliseconds. -/
theorem Node.accepted_of_create {dirs : LogPath.Directories} {address : Address}
    {config : LinkConfig} {app : Application} {node : Node}
    (h : create dirs address config app = .ok node) :
    node.config = config ∧ config.Accepted 1 := by
  unfold create at h
  split at h
  · cases h
  · next hcheck =>
    cases h
    exact ⟨rfl, _, hcheck⟩

namespace World

variable {t r : Nat} {k : Wait} {timer : Timer} {b : Activity} {w u v : World}

/-- The timer of task `t` that is in a `Wait` and has no outcome. -/
def waits? (w : World) (k : Wait) (t : Nat) : Option Timer :=
  w.tasks[t]?.bind fun task => if task.outcome.isSome then none else task.activity.waits k

theorem timer?_of_waits? (h : w.waits? k t = some timer) : w.timer? t = some timer := by
  obtain ⟨task, htask, h⟩ := Option.bind_eq_some_iff.1 h
  rw [timer?, htask, Option.bind_some]
  split at h
  · cases h
  · next hlive => rw [if_neg hlive, Activity.timer?_of_waits h]

theorem waits?_of_tasks (h : v.tasks[t]? = w.tasks[t]?) : v.waits? k t = w.waits? k t := by
  rw [waits?, h, waits?]

theorem waits_of_become (h : (v.become t b).waits? k t = some timer) : b.waits k = some timer := by
  obtain ⟨task, htask, h⟩ := Option.bind_eq_some_iff.1 h
  rw [become, updateTask, Array.getElem?_modify, if_pos rfl] at htask
  obtain ⟨_, -, rfl⟩ := Option.map_eq_some_iff.1 htask
  split at h
  · cases h
  · exact h

theorem waits?_finish (v : World) (t : Nat) (o : Outcome) : (v.finish t o).waits? k t = none := by
  refine Option.bind_eq_none_iff.2 fun task htask => ?_
  rw [finish, updateTask, Array.getElem?_modify, if_pos rfl] at htask
  obtain ⟨_, -, rfl⟩ := Option.map_eq_some_iff.1 htask
  rfl

/-! ### Setting a wait -/

/-- Up to `timer` it takes from `w.now` no longer than `longest` of the settings of some node. -/
def Sets (w : World) (k : Wait) (timer : Timer) : Prop :=
  ∃ (n : Nat) (node : Node) (time : Nat), w.nodes[n]? = some node ∧
    time ≤ node.config.longest k ∧ timer.due = w.now + time

/-- Every `Wait` of task `t` in `v` is one that was set at `w.now`. -/
def Resets (t : Nat) (w v : World) : Prop :=
  ∀ (k : Wait) (timer : Timer), v.waits? k t = some timer → w.Sets k timer

theorem resets_become (h : ∀ (k : Wait) (timer : Timer), b.waits k = some timer → w.Sets k timer) :
    Resets t w (v.become t b) := fun k timer hwaits => h k timer (waits_of_become hwaits)

theorem resets_of_idle (h : ∀ k, b.waits k = none) : Resets t w (v.become t b) :=
  resets_become fun k _ hwaits => nomatch (h k).symm.trans hwaits

theorem resets_finish {o : Outcome} : Resets t w (v.finish t o) :=
  fun _ _ hwaits => nomatch (waits?_finish v t o).symm.trans hwaits

theorem call_due {caller target : Address} {e : Endpoint} {limit : Nat} {call : Call}
    (h : w.call caller target e limit = (.ok call, v)) : call.deadline.due = w.now + limit := by
  unfold World.call at h
  split at h <;> cases h
  rfl

end World

open World (Sets Resets resets_become resets_of_idle resets_finish)

variable {t : Nat} {k : Wait} {timer : Timer} {w u v : World}

/-! ### Steps of tasks -/

theorem LinkConfig.backoffFor_le_longest (c : LinkConfig) (i : Nat) :
    c.session.backoffFor i ≤ c.longest .pause :=
  Nat.le_trans (Nat.min_le_right ..) (Nat.le_max_left ..)

/-- A `Wait` that a step of `Retry` begins `Sets` its timer. -/
theorem Retry.sets_of_step {r r' : Retry} {q : Progress × World} (h : r.step w = some q)
    (hq : q.1 = .going r') (hwaits : r'.waits k = some timer) : w.Sets k timer := by
  cases hnode : w.nodes[r.node]? with
  | none => simp [step, hnode] at h
  | some node =>
    have hfailure {u : World} (hnow : u.now = w.now)
        (hq : (r.afterFailure node.config u).1 = .going r') : w.Sets k timer := by
      obtain ⟨p, _, heq, -, -, ⟨pause, rfl, -, hdue⟩ | ⟨rfl, -⟩⟩ :=
        r.afterFailure_cases node.config u
      · rw [heq] at hq
        cases hq
        cases k with
        | pause =>
          cases hwaits
          exact ⟨_, node, _, hnode, node.config.backoffFor_le_longest r.attempt, hnow ▸ hdue⟩
        | attempt => cases hwaits
      · rw [heq] at hq
        cases hq
    have hturn := turn_of_step hnode h
    cases hturn with
    | spent | connected => cases hq
    | calls _ _ _ _ due =>
      cases hq
      cases k with
      | pause => cases hwaits
      | attempt =>
        cases hwaits
        exact ⟨_, node, _, hnode, Nat.le_refl _, due⟩
    | refused _ _ _ _ counts => exact hfailure counts.keeps.2.1 hq
    | failed _ answer => exact hfailure (World.Aside.refl.answer answer).now hq
    | resumes =>
      cases hq
      cases k <;> cases hwaits

theorem Handling.deliver_ne_going {m : Message} {n : Nat} {node : Node} {d : Handling} :
    (deliver m n node w).1 ≠ .going d := by
  unfold deliver
  split <;> exact nofun

/-- A `Wait` that a step of `Handling` begins `Sets` its timer. -/
theorem Handling.sets_of_step {d d' : Handling} {q : Progress × World} (h : d.step w = some q)
    (hq : q.1 = .going d') (hwaits : d'.waits k = some timer) : w.Sets k timer := by
  obtain ⟨x, node, -, hnode, hturn⟩ := turn_of_step h
  cases hturn with
  | detached | undecipherable | aborted => cases hq
  | plain | unreachable | declined | unanswered | tooLarge | full | cutOff | ended | disrupted
  | tooSlow => exact absurd hq deliver_ne_going
  | calls _ _ _ _ _ _ due =>
    cases hq
    cases k with
    | pause => cases hwaits
    | attempt =>
      cases hwaits
      exact ⟨_, node, _, hnode, Nat.le_refl _, due⟩
  | begins | takes =>
    cases hq
    cases k <;> cases hwaits

/-- A `Wait` that a step of an `Accepting` begins is one of its `Handling`, and `Sets` its timer. -/
theorem Accepting.sets_of_step {a a' : Accepting} {q : Progress × World} (h : a.step w = some q)
    (hq : q.1 = .going a') (hwaits : (Activity.accepting a').waits k = some timer) :
    w.Sets k timer := by
  obtain ⟨node, -, hmove⟩ := move_of_step h
  cases hmove with
  | begun | more =>
    cases hq
    cases hwaits
  | aborted | overfull | timedOut | misframed => cases hq
  | framed _ _ _ _ taken =>
    cases taken <;> cases hq
    cases k <;> cases hwaits
  | @handled d q _ step =>
    obtain ⟨p, v⟩ := q
    cases p <;> cases hq
    exact Handling.sets_of_step step rfl hwaits

/-- A `Wait` that a step of `Announcing` begins `Sets` its timer. -/
theorem Announcing.sets_of_step {a a' : Announcing} (h : a.step w = some (.going a', v))
    (hwaits : a'.waits k = some timer) : w.Sets k timer := by
  obtain ⟨node, hnode, hstep⟩ := step_of_step h
  have hfailure {u : World} (hnow : u.now = w.now)
      (hq : Progress.going a' = (a.afterFailure node.config.announce u).1) : w.Sets k timer := by
    unfold afterFailure at hq
    dsimp only at hq
    split at hq <;> cases hq
    cases k with
    | pause =>
      cases hwaits
      refine ⟨_, node, _, hnode, ?_, congrArg (· + node.config.announce.retryBackoff) hnow⟩
      exact Nat.le_trans (Nat.le_max_left ..) (Nat.le_max_right ..)
    | attempt => cases hwaits
  generalize hq : (Progress.going a', v) = q at hstep
  cases hstep with
  | barred | sent | unsent => cases hq
  | calls _ _ _ placed =>
    cases hq
    cases k with
    | pause => cases hwaits
    | attempt =>
      cases hwaits
      unfold placeCall at placed
      have hdue := World.call_due placed
      exact ⟨_, node, _, hnode, Nat.le_refl _, hdue⟩
  | refused _ _ _ placed =>
    unfold placeCall at placed
    refine hfailure ?_ (congrArg Prod.fst hq)
    exact (placed ▸ World.Aside.refl.call _ _ _ _ : (w.count a.node _).Aside _).now
  | reached =>
    have hq := congrArg Prod.fst hq
    unfold sendOver at hq
    dsimp only at hq
    split at hq <;> cases hq
    cases k <;> cases hwaits
  | failed _ answer => exact hfailure (World.Aside.refl.answer answer).now (congrArg Prod.fst hq)
  | resumes =>
    cases hq
    cases k <;> cases hwaits

namespace World

variable {s : Sending} {x : Session} {node : Node}

theorem resets_finishSending {size : Option Nat} : Resets t w (v.finishSending t s x size) := by
  cases size <;> exact resets_finish

theorem resets_beginWriting {stream : LinkEnd} :
    Resets t w (v.beginWriting t s x node stream) := by
  unfold beginWriting
  dsimp only
  split
  · exact resets_finishSending
  · exact resets_of_idle fun _ => rfl

theorem resets_takeConnection : Resets t w (v.takeConnection t s x node) := by
  unfold takeConnection
  dsimp only
  split
  · exact resets_beginWriting
  · exact resets_of_idle fun k => by cases k <;> rfl

theorem resets_of_writeStep {stream : LinkEnd} {rest : Outflow} {deadline : Timer}
    (h : s.WriteStep t x stream rest deadline w u) : Resets t w u := by
  cases h with
  | takes | goesOn | shuts => exact resets_of_idle fun _ => rfl
  | breaks | tooSlow | fails | done => exact resets_finishSending

theorem resets_stepSending (h : w.stepSending t s = some u) : Resets t w u := by
  obtain ⟨x, node, -, -, hstep⟩ := Sending.step_of_stepSending h
  cases hstep with
  | locks | follows => exact resets_takeConnection
  | queues => exact resets_of_idle fun _ => rfl
  | dials _ step =>
    exact resets_become fun k timer hwaits => Retry.sets_of_step step rfl hwaits
  | connected => exact resets_beginWriting
  | failed => exact resets_finishSending
  | writes _ write => exact resets_of_writeStep write

theorem resets_stepConnecting {d : Retry} (h : w.stepConnecting t d = some u) : Resets t w u := by
  obtain ⟨d', v, heq, rfl⟩ | ⟨q, o, heq, rfl⟩ := exists_of_stepConnecting h
  · exact resets_become fun k timer hwaits => Retry.sets_of_step heq rfl hwaits
  · exact resets_finish

theorem resets_stepHandling {d : Handling} (h : w.stepHandling t d = some u) : Resets t w u := by
  obtain ⟨d', v, heq, rfl⟩ | ⟨q, o, heq, rfl⟩ := exists_of_stepHandling h
  · exact resets_become fun k timer hwaits => Handling.sets_of_step heq rfl hwaits
  · exact resets_finish

theorem resets_stepAccepting {d : Accepting} (h : w.stepAccepting t d = some u) :
    Resets t w u := by
  obtain ⟨d', v, heq, rfl⟩ | ⟨q, o, heq, rfl⟩ := exists_of_stepAccepting h
  · exact resets_become fun k timer hwaits => Accepting.sets_of_step heq rfl hwaits
  · exact resets_finish

theorem resets_stepAnnouncing {d : Announcing} (h : w.stepAnnouncing t d = some u) :
    Resets t w u := by
  obtain ⟨d', v, heq, rfl⟩ | ⟨q, o, heq, rfl⟩ := exists_of_stepAnnouncing h
  · exact resets_become fun k timer hwaits => Announcing.sets_of_step heq hwaits
  · exact resets_finish

theorem resets_stepListening {l : Listening} (h : w.stepListening t l = some u) : Resets t w u := by
  cases hnode : w.nodes[l.node]? with
  | none => simp [stepListening, hnode] at h
  | some node =>
    cases Listening.turn_of_step hnode h with
    | retires | stops => exact resets_finish
    | opens | takes | dealt | recovers => exact resets_of_idle fun k => by cases k <;> rfl
    | fails _ _ due =>
      refine resets_become fun k timer hwaits => ?_
      cases k with
      | pause =>
        cases hwaits
        refine ⟨_, node, _, hnode, ?_, due⟩
        exact Nat.le_trans (Nat.le_max_right ..) (Nat.le_max_right ..)
      | attempt => cases hwaits

/-- After a step of task `t` its `Wait` is one that the step has set. -/
theorem resets_of_step (h : w.step t = some u) : Resets t w u := by
  obtain ⟨task, htask, -, hadvances, hstep⟩ := exists_advances h
  -- who neither connects nor listens for a node never waits for any of this, whatever it goes on to
  have hidle (hrole : ∀ b : Activity, b.role = task.activity.role → ∀ k, b.waits k = none) :
      Resets t w u := by
    cases hadvances with
    | goes _ _ role => exact resets_of_idle (hrole _ role)
    | ends => exact resets_finish
  split at hstep
  · rw [hstep]
    unfold abortListening
    split <;> exact resets_finish
  · cases hactivity : task.activity with
    | sending s => exact resets_stepSending (by rwa [hactivity] at hstep)
    | handling d => exact resets_stepHandling (by rwa [hactivity] at hstep)
    | accepting d => exact resets_stepAccepting (by rwa [hactivity] at hstep)
    | announcing d => exact resets_stepAnnouncing (by rwa [hactivity] at hstep)
    | listening l => exact resets_stepListening (by rwa [hactivity] at hstep)
    | connecting r => exact resets_stepConnecting (by rwa [hactivity] at hstep)
    | inspecting _ | serving _ | capturing _ =>
      refine hidle fun b hb k => ?_
      rw [hactivity] at hb
      cases b <;> first | rfl | cases hb

/-! ### Runs -/

/-- The settings of all nodes satisfy `admits`. -/
def Admits (admits : LinkConfig → Prop) (w : World) : Prop :=
  ∀ (n : Nat) (node : Node), w.nodes[n]? = some node → admits node.config

/-- What others may do while tasks wait: put nobody into a `Wait`, add nodes whose settings satisfy
`admits`, and let time pass up to the next timer. -/
structure Timely (admits : LinkConfig → Prop) (w w' : World) : Prop where
  forward : w.now ≤ w'.now
  time : ∀ t timer, w.timer? t = some timer → w.now ≤ timer.due → w'.now ≤ timer.due
  waits : ∀ t k timer, w'.waits? k t = some timer → w.waits? k t = some timer
  nodes : w.Admits admits → w'.Admits admits

/-- The settings of all nodes satisfy `admits`, and no task is in a `Wait`. -/
structure Begins (admits : LinkConfig → Prop) (w : World) : Prop where
  nodes : w.Admits admits
  idle : ∀ k t, w.waits? k t = none

/-- No timer of a `Wait` has been passed, and none is later than `limit` from now. -/
structure InTime (admits : LinkConfig → Prop) (limit : Wait → Nat) (w : World) : Prop where
  nodes : w.Admits admits
  pending : ∀ t k timer, w.waits? k t = some timer → w.now ≤ timer.due
  limited : ∀ t k timer, w.waits? k t = some timer → timer.due ≤ w.now + limit k

variable {admits : LinkConfig → Prop} {limit : Wait → Nat} {past later events : List Event}

theorem Begins.inTime (h : w.Begins admits) : w.InTime admits limit where
  nodes := h.nodes
  pending t k _ hwaits := nomatch (h.idle k t).symm.trans hwaits
  limited t k _ hwaits := nomatch (h.idle k t).symm.trans hwaits

theorem Admits.of_sameNodes (h : w.Admits admits) (hv : w.SameNodes v) : v.Admits admits := by
  intro n node hnode
  have hsettings := hv.settings n
  rw [settings?, settings?, hnode] at hsettings
  obtain ⟨node', hnode', heq⟩ := Option.map_eq_some_iff.1 hsettings.symm
  have hconfig : node'.config = node.config := (congrArg (·.config) heq :)
  exact hconfig ▸ h n node' hnode'

theorem waits_of_spawns {a : Activity} (h : a.Spawns b) (k : Wait) : b.waits k = none := by
  obtain ⟨⟨_, _, _, stage⟩, rfl, rfl⟩ | ⟨l, sender, link, -, rfl⟩ := h <;> rfl

/-- Every step keeps `InTime`, if `longest` of all settings that satisfy `admits` is within `limit`.
-/
theorem InTime.step (h : w.InTime admits limit)
    (hlongest : ∀ c, admits c → ∀ k, c.longest k ≤ limit k) (hs : w.step t = some v) :
    v.InTime admits limit := by
  obtain ⟨task, htask, -, hadvances, -⟩ := exists_advances hs
  have ht : t < w.tasks.size := (Array.getElem?_eq_some_iff.1 htask).1
  have hnow := hadvances.now
  have hwaits (r : Nat) (k : Wait) (timer : Timer) (hr : v.waits? k r = some timer) :
      w.waits? k r = some timer ∨ w.Sets k timer := by
    by_cases hne : r = t
    · exact .inr (resets_of_step hs k timer (hne ▸ hr))
    · by_cases hlt : r < w.tasks.size
      · exact .inl (waits?_of_tasks (hadvances.old hlt hne) ▸ hr)
      · -- a task that has just been started has yet to begin to wait
        obtain ⟨task', htask', hr⟩ := Option.bind_eq_some_iff.1 hr
        obtain ⟨b, hb, rfl⟩ := hadvances.new ht (Nat.le_of_not_lt hlt) htask'
        cases (waits_of_spawns hb k).symm.trans hr
  refine ⟨h.nodes.of_sameNodes hadvances.sameNodes, fun r k timer hr => ?_, fun r k timer hr => ?_⟩
  · obtain hold | ⟨n, node, time, -, -, hdue⟩ := hwaits r k timer hr
    · exact hnow ▸ h.pending r k timer hold
    · omega
  · obtain hold | ⟨n, node, time, hnode, htime, hdue⟩ := hwaits r k timer hr
    · exact hnow ▸ h.limited r k timer hold
    · have hlimit := hlongest node.config (h.nodes n node hnode) k
      omega

theorem InTime.removal (h : w.InTime admits limit) (n : Nat) (a : Address) :
    (w.removeBonded n a).InTime admits limit := by
  have hcourse := w.course_removeBonded n a
  have hwaits (t : Nat) (k : Wait) : (w.removeBonded n a).waits? k t = w.waits? k t :=
    waits?_of_tasks (by rw [tasks_removeBonded])
  refine ⟨h.nodes.of_sameNodes hcourse.sameNodes, fun t k timer ht => ?_, fun t k timer ht => ?_⟩
  · exact hcourse.now ▸ h.pending t k timer (hwaits t k ▸ ht)
  · exact hcourse.now ▸ h.limited t k timer (hwaits t k ▸ ht)

theorem InTime.timely (h : w.InTime admits limit) (hv : Timely admits w v) :
    v.InTime admits limit := by
  refine ⟨hv.nodes h.nodes, fun t k timer ht => ?_, fun t k timer ht => ?_⟩
  · have hw := hv.waits t k timer ht
    exact hv.time t timer (timer?_of_waits? hw) (h.pending t k timer hw)
  · have hdue := h.limited t k timer (hv.waits t k timer ht)
    have hforward := hv.forward
    omega

/-- At the end of every `History (Timely admits)` from where nobody waits, `InTime` holds. -/
theorem History.inTime (h : w.History (Timely admits) events v) (hw : w.Begins admits)
    (hlongest : ∀ c, admits c → ∀ k, c.longest k ≤ limit k) : v.InTime admits limit :=
  h.keeps hw.inTime (fun _ _ _ hu hs => hu.step hlongest hs) (fun n a _ hu => hu.removal n a)
    fun _ _ hu hv => hu.timely hv

/-- Task `t` is in the same `Wait` in `u` and, later, in `v`, in a history that begins where nobody
waits. -/
def Waited (admits : LinkConfig → Prop) (k : Wait) (u v : World) : Prop :=
  ∃ (w : World) (past later : List Event) (t : Nat) (timer : Timer), w.Begins admits ∧
    w.History (Timely admits) past u ∧ u.History (Timely admits) later v ∧
    u.waits? k t = some timer ∧ v.waits? k t = some timer

theorem Waited.now_le (h : Waited admits k u v)
    (hlongest : ∀ c, admits c → ∀ k, c.longest k ≤ limit k) : v.now ≤ u.now + limit k := by
  obtain ⟨w, past, later, t, timer, hw, hpast, hlater, hu, hv⟩ := h
  have hpending := ((hpast.append hlater).inTime hw hlongest).pending t k timer hv
  have hlimited := (hpast.inTime hw hlongest).limited t k timer hu
  exact Nat.le_trans hpending hlimited

/-- **Accepted settings bound every wait.** For every number `parts` of moments to the second: a
node that `Node.create` returns has settings that are `Accepted`, and settings that are `Accepted`
are `Within` all of their limits, except that a time with an upper limit may last to the end of its
last second (`lastOfSecond`). So no wait between two moments of a run (`Waited`) takes longer than
that, and where times are told in whole seconds, none takes longer than `Wait.limit`. -/
theorem waits_within_limits {parts : Nat} (hparts : 0 < parts) :
    (∀ (dirs : LogPath.Directories) (address : Address) (c : LinkConfig) (app : Application)
      (node : Node), Node.create dirs address c app = .ok node →
      node.config = c ∧ c.Accepted 1) ∧
    (∀ c : LinkConfig, c.Accepted parts → c.Within parts (lastOfSecond parts) ∧
      (c.InWholeSeconds parts → c.Within parts (seconds parts))) ∧
    (∀ (k : Wait) (u v : World), Waited (·.Accepted parts) k u v →
      v.now ≤ u.now + lastOfSecond parts k.limit) ∧
    ∀ (k : Wait) (u v : World), Waited (fun c => c.Accepted parts ∧ c.InWholeSeconds parts) k u v →
      v.now ≤ u.now + seconds parts k.limit := by
  refine ⟨fun dirs address c app node => Node.accepted_of_create, fun c hc => ?_, fun k u v h => ?_,
    fun k u v h => ?_⟩
  · exact ⟨hc.within hparts, (hc.within hparts).seconds hparts⟩
  · exact h.now_le fun c hc k => (hc.within hparts).longest_le k
  · exact h.now_le fun c hc k => ((hc.1.within hparts).seconds hparts hc.2).longest_le k

/-! ### What others do -/

/-- Time that passes up to `nextDue?` satisfies `Timely`. -/
theorem timely_of_time {moment : Nat} (hle : w.now ≤ moment)
    (h : ∀ due, w.nextDue? = some due → moment ≤ due) :
    Timely admits w { w with now := moment } :=
  ⟨hle, fun t => (keepsFetches_of_time h : KeepsFetches t w _).time, fun _ _ _ hr => hr,
    fun hw => hw⟩

/-- From `w` to `v` no time has passed, nobody was put into a `Wait`, and new nodes have settings
that satisfy `admits`. -/
structure Still (admits : LinkConfig → Prop) (w v : World) : Prop where
  now : v.now = w.now
  waits : ∀ t k timer, v.waits? k t = some timer → w.waits? k t = some timer
  nodes : w.Admits admits → v.Admits admits

namespace Still

theorem refl : Still admits w w := ⟨rfl, fun _ _ _ hr => hr, fun hw => hw⟩

theorem timely (h : Still admits w v) : Timely admits w v :=
  ⟨Nat.le_of_eq h.now.symm, fun _ _ _ hle => h.now ▸ hle, h.waits, h.nodes⟩

theorem air (h : Still admits w v) (air : Air) : Still admits w { v with air } := { h with }

theorem spawn (h : Still admits w v) (hb : ∀ k, b.waits k = none) : Still admits w (v.spawn b) := by
  refine { h with waits := fun t k timer ht => ?_ }
  obtain ⟨task, htask, hr⟩ := Option.bind_eq_some_iff.1 ht
  rw [World.spawn, Array.getElem?_push] at htask
  split at htask
  · cases htask
    cases (hb k).symm.trans hr
  · exact h.waits t k timer (Option.bind_eq_some_iff.2 ⟨task, htask, hr⟩)

theorem addNode {node : Node} (h : Still admits w v) (hnode : admits node.config) :
    Still admits w (v.addNode node) := by
  refine { h with nodes := fun hw n node' hn => ?_ }
  rw [World.addNode, Array.getElem?_push] at hn
  split at hn
  · cases hn
    exact hnode
  · exact h.nodes hw n node' hn

theorem updateNode {f : Node → Node} (h : Still admits w v) (n : Nat)
    (hf : ∀ node, (f node).config = node.config) : Still admits w (v.updateNode n f) := by
  refine { h with nodes := fun hw m node hm => ?_ }
  rw [nodes_updateNode] at hm
  split at hm
  · obtain ⟨former, hformer, rfl⟩ := Option.map_eq_some_iff.1 hm
    exact hf former ▸ h.nodes hw m former hformer
  · exact h.nodes hw m node hm

theorem cancel (h : Still admits w v) (r : Nat) : Still admits w (v.cancel r) := by
  refine { h with waits := fun t k timer ht => h.waits t k timer ?_ }
  obtain ⟨task, htask, hr⟩ := Option.bind_eq_some_iff.1 ht
  rw [World.cancel, updateTask, Array.getElem?_modify] at htask
  split at htask
  · obtain ⟨former, hformer, rfl⟩ := Option.map_eq_some_iff.1 htask
    exact Option.bind_eq_some_iff.2 ⟨former, hformer, hr⟩
  · exact Option.bind_eq_some_iff.2 ⟨task, htask, hr⟩

theorem announcing (h : Still admits w v) (n : Nat) (targets : List Address) : Still admits w
    (targets.foldl (fun v target => v.spawn (.announcing { node := n, target })) v) := by
  induction targets generalizing v with
  | nil => exact h
  | cons target targets ih => exact ih (h.spawn fun k => by cases k <;> rfl)

/-- After `World.start` nobody is in a `Wait`: its tasks have yet to take their first steps. -/
theorem start (h : Still admits w v) (n : Nat) : Still admits w (v.start n).2 := by
  have hidle (k : Wait) : (Activity.listening { node := n }).waits k = none := by cases k <;> rfl
  unfold World.start
  split
  · exact h
  · next node _ =>
    have hcancel {u : World} (hu : Still admits w u) :
        Still admits w (node.listening.elim u u.cancel) := by
      cases node.listening with
      | none => exact hu
      | some r => exact hu.cancel r
    dsimp only
    split
    · exact h
    · exact hcancel (((h.announcing n _).spawn hidle).updateNode n fun _ => rfl)

end Still

/-- The first step after `node` was added to the air that the `acts` make, and started. -/
def firstStep (acts : List Air.Act) (node : Node) : Option World :=
  ((({ air := acts.foldl Air.perform {} } : World).addNode node).start 0).2.step 0

/-- If the first step puts a task into a `Wait` of length `time`, and no other timer is due before,
the task is in it for all of `time`. -/
theorem exists_waited (admits : LinkConfig → Prop) (k : Wait) (acts : List Air.Act) (time : Nat)
    {node : Node} (hnode : admits node.config)
    (hstep : (firstStep acts node).map (fun u => decide (u.now = 0 ∧
      u.waits? k 0 = some ⟨time, 0⟩ ∧ u.nextDue? = some time)) = some true) :
    ∃ u v, Waited admits k u v ∧ v.now = u.now + time := by
  obtain ⟨u, hstep, hu⟩ := Option.map_eq_some_iff.1 hstep
  obtain ⟨hnow, hwaits, hdue⟩ := of_decide_eq_true hu
  have hempty : Begins admits {} := ⟨fun n node hn => by simp at hn, fun k t => by simp [waits?]⟩
  have hstart := (((Still.refl (w := {})).air (acts.foldl Air.perform {})).addNode hnode).start 0
  have hle : u.now ≤ time := Nat.le_trans (Nat.le_of_eq hnow) (Nat.zero_le _)
  have hpasses : Timely admits u { u with now := time } := timely_of_time hle fun due hnext => by
    cases hdue.symm.trans hnext
    exact Nat.le_refl _
  exact ⟨u, _, ⟨{}, _, _, 0, _, hempty, (History.start.thenOther hstart.timely).thenStep hstep,
    History.start.thenOther hpasses, hwaits, hwaits⟩, by rw [hnow, Nat.zero_add]⟩

/-- A node pauses for a minute after an announcement that nobody hears. -/
theorem waits_within_limits_minute :
    let c : LinkConfig := { announce := { retryBackoff := 60000 } }
    0 < 1 ∧ c.Accepted 1 ∧ c.Within 1 (seconds 1) ∧
      ∃ u v, Waited (fun c => c.Accepted 1 ∧ c.InWholeSeconds 1) .pause u v ∧
        v.now = u.now + 60000 ∧ v.now ≤ u.now + seconds 1 Wait.pause.limit := by
  intro c
  let a : Address := ⟨#v[2, 0, 0, 0, 0, 1]⟩
  let b : Address := ⟨#v[2, 0, 0, 0, 0, 2]⟩
  let node : Node :=
    { address := a, config := c,
      app := { deviceId := "p", secret := Vector.replicate 32 0,
               announcement := .ofKind 1 .identity } }
  have haccepted : c.Accepted 1 := ⟨fun _ => true, by decide +kernel⟩
  have hwhole : c.InWholeSeconds 1 := by constructor <;> decide
  have hadmits : node.config.Accepted 1 ∧ node.config.InWholeSeconds 1 := ⟨haccepted, hwhole⟩
  obtain ⟨u, v, hwaited, hminute⟩ :=
    exists_waited (fun c => c.Accepted 1 ∧ c.InWholeSeconds 1) .pause [.switchOn a, .bond a b] 60000
      hadmits (by decide +kernel)
  obtain ⟨-, hwithin, -, hwaits⟩ := waits_within_limits Nat.one_pos
  exact ⟨Nat.one_pos, haccepted, (hwithin c haccepted).2 hwhole, u, v, hwaited, hminute,
    hwaits _ _ _ hwaited⟩

/-- Times in the last second that is allowed are accepted, and then taken in full: by a pause after
an announcement that nobody hears, and by one that is heard and not answered. -/
theorem accepted_beyond_limits :
    let c : LinkConfig :=
      { session := { connectTimeout := 300999, retryBackoff := 60999, maxRetryBackoff := 60999 }
        announce := { retryBackoff := 60999 }
        listener := { readTimeout := 600999, errorBackoff := 60999 } }
    c.check ⟨[]⟩ = .ok () ∧ ¬ c.Within 1 (seconds 1) ∧
      (∃ u v, Waited (·.Accepted 1) .pause u v ∧ u.now + seconds 1 Wait.pause.limit < v.now) ∧
      ∃ u v, Waited (·.Accepted 1) .attempt u v ∧
        u.now + seconds 1 Wait.attempt.limit < v.now := by
  intro c
  let a : Address := ⟨#v[2, 0, 0, 0, 0, 1]⟩
  let b : Address := ⟨#v[2, 0, 0, 0, 0, 2]⟩
  let node : Node :=
    { address := a, config := c,
      app := { deviceId := "p", secret := Vector.replicate 32 0,
               announcement := .ofKind 1 .identity } }
  have hcheck : c.check ⟨[]⟩ = .ok () := by decide +kernel
  have hbeyond : ¬ c.Within 1 (seconds 1) := fun h => absurd h.announce.backoff (by decide)
  have haccepted : node.config.Accepted 1 := ⟨_, hcheck⟩
  obtain ⟨u, v, hpause, hlong⟩ := exists_waited (·.Accepted 1) .pause [.switchOn a, .bond a b] 60999
    haccepted (by decide +kernel)
  obtain ⟨u', v', hattempt, hlong'⟩ := exists_waited (·.Accepted 1) .attempt
    [.switchOn a, .bond a b, .switchOn b, .listen b (.service c.service.uuid)] 300999 haccepted
    (by decide +kernel)
  refine ⟨hcheck, hbeyond, ⟨u, v, hpause, ?_⟩, u', v', hattempt, ?_⟩
  · rw [hlong]
    exact Nat.add_lt_add_left (by decide) _
  · rw [hlong']
    exact Nat.add_lt_add_left (by decide) _

end World
end RadioLink

import RadioLink.Proofs.World.Attended
import RadioLink.Proofs.World.Rounds
import RadioLink.Proofs.World.Tries

/-!
# What ends a task that takes connections in

Every step of a task that takes connections in brings its rounds on, and nobody else does. By
`World.Ends` there are three ways for it to get an outcome: it `retires`, as it is `.ready` and
finds `active` false or the radio disabled; it `stops`, as it notices that `node.listening` is not
its own number any more; or it was cancelled and `aborts`. So nothing that comes in makes an end of
it: neither an error of `Air.listen` or `Air.accept`, nor whatever outcome the task has that takes a
connection in. Each listener that it `HasOpened` is closed before it goes on (`World.Tidy`).
-/

namespace RadioLink

open World (KeepsTimer History)

/-! ### Endpoints and listeners -/

namespace Air

variable {air : Air} {id : Nat} {q : Address × Endpoint}

/-- A listener that is not open any more never is again. -/
theorem place?_eq_none_foldl {acts : List Act} (hid : air.place? id = none)
    (hle : id ≤ air.opened) : (acts.foldl Air.perform air).place? id = none := by
  induction acts generalizing air with
  | nil => exact hid
  | cons x acts ih =>
    exact ih ((air.effect x).place?_eq_none hle hid) (Nat.le_trans hle (air.opened_le_perform x))

end Air

/-! ### What a task is doing -/

/-- The stage of the `Listening` of task `t`, unless the task has an outcome. -/
def World.stage? (w : World) (t : Nat) : Option Listening.Stage :=
  w.tasks[t]?.bind fun task =>
    if task.outcome.isSome then none
    else
      match task.activity with
      | .listening l => some l.stage
      | _ => none

/-- The task is about to listen. -/
def Listening.Stage.isReady : Listening.Stage → Bool
  | .ready => true
  | _ => false

/-- The task pauses after a failure. -/
def Listening.Stage.isPausing : Listening.Stage → Bool
  | .pausing _ => true
  | _ => false

/-- The event is a step of task `t` that has listened, or has tried to. -/
def Event.listens (t : Nat) (e : Event) : Bool :=
  e.cause = .task t && (e.before.stage? t).any (·.isReady) && (e.after.stage? t).isSome

/-- The event is a step of task `t` after which it pauses. -/
def Event.pauses (t : Nat) (e : Event) : Bool :=
  e.cause = .task t && (e.after.stage? t).any (·.isPausing)

/-- The moments of those events of which `p` holds. -/
def moments (p : Event → Bool) (events : List Event) : List Nat :=
  (events.filter p).map (·.before.now)

theorem moments_concat (p : Event → Bool) (events : List Event) (x : Event) :
    moments p (events ++ [x]) = moments p events ++ if p x then [x.before.now] else [] := by
  by_cases h : p x = true <;> simp [moments, h]

namespace World

variable {n t : Nat} {w v u : World} {l : Listening} {b : Bool}

theorem stage?_of_task (h : w.tasks[t]? = some ⟨.listening l, none, b⟩) :
    w.stage? t = some l.stage := by
  rw [stage?, h]
  rfl

theorem stage?_of_outcome {o : Outcome} (h : w.outcome? t = some o) : w.stage? t = none := by
  obtain ⟨task, htask, houtcome⟩ := Option.bind_eq_some_iff.1 h
  rw [stage?, htask, Option.bind_some, houtcome]
  rfl

theorem stage?_finish {task : Task} (o : Outcome) (h : w.tasks[t]? = some task) :
    (w.finish t o).stage? t = none := by
  rw [stage?, tasks_finish h]
  rfl

theorem stage?_become {a : Activity} (h : w.tasks[t]? = some ⟨a, none, b⟩) (l : Listening) :
    (w.become t (.listening l)).stage? t = some l.stage := stage?_of_task (tasks_become h)

theorem tasks_aborted (w : World) (t : Nat) (a : Activity) :
    (w.abortListening t a).tasks = (w.finish t .aborted).tasks := by
  unfold abortListening
  split <;> rfl

/-- What somebody else may do: keep the activity and the outcome of task `t`, which may be
cancelled, and the `settings` of node `n`; perform any acts; and let time pass where `step t` is
`none`, up to the timer that the task waits for. -/
structure KeepsActivity (n t : Nat) (w w' : World) : Prop where
  task : ∀ task, w.tasks[t]? = some task → ∃ task', w'.tasks[t]? = some task' ∧
    task'.activity = task.activity ∧ task'.outcome = task.outcome
  settings : w'.settings? n = w.settings? n
  acts : ∃ acts : List Air.Act, w'.air = acts.foldl Air.perform w.air
  forward : w.now ≤ w'.now
  waits : w'.now ≠ w.now → w.step t = none
  time : ∀ timer, w.timer? t = some timer → w.now ≤ timer.due → w'.now ≤ timer.due

theorem KeepsTimer.keepsActivity {acts : List Air.Act} (h : KeepsTimer t w v)
    (hair : v.air = acts.foldl Air.perform w.air) : KeepsActivity n t w v where
  task task htask := ⟨task, h.task.trans htask, rfl, rfl⟩
  settings := h.settings n
  acts := ⟨acts, hair⟩
  forward := h.forward
  waits := h.waits
  time := h.time

/-- An event of a `History (KeepsActivity n t)` that is no step of task `t` satisfies
`KeepsActivity n t`. -/
theorem keepsActivity_of_happens {x : Event} {task : Task} (h : x.Happens (KeepsActivity n t))
    (hcause : x.cause ≠ .task t) (htask : x.before.tasks[t]? = some task) :
    KeepsActivity n t x.before x.after := by
  obtain ⟨cause, before, after⟩ := x
  cases cause with
  | task r =>
    have hstep : Event.Happens (KeepsTimer t) ⟨.task r, before, after⟩ := h
    obtain ⟨_, -, -, hadvances, -⟩ := exists_advances h
    obtain ⟨acts, hair, -⟩ := hadvances.exists_acts
    exact (keepsTimer_of_happens hstep hcause htask).keepsActivity hair
  | removal m a =>
    have hremoval : Event.Happens (KeepsTimer t) ⟨.removal m a, before, after⟩ := h
    obtain rfl : after = before.removeBonded m a := h
    obtain ⟨acts, hair, -⟩ := (before.course_removeBonded m a).exists_acts
    exact (keepsTimer_of_happens hremoval hcause htask).keepsActivity hair
  | other => exact h

/-! ### How it ends -/

/-- How the event `e`, a step of task `t`, gives it an outcome. -/
inductive Ends (n t : Nat) (e : Event) : Outcome → Prop where
  /-- It was `.ready`, and `active? n` is false or the radio is not on; after the step `active? n`
  is false. -/
  | retires (stage : e.before.stage? t = some .ready)
      (idle : e.before.active? n = some false ∨ ¬ e.before.IsOn n)
      (inactive : e.after.active? n = some false) : Ends n t e .done
  /-- It was in any stage but `.handling`, and `listening? n` was not `t`. -/
  | stops {s : Listening.Stage} (stage : e.before.stage? t = some s) (away : ∀ r, s ≠ .handling r)
      (told : e.before.listening? n ≠ some t) : Ends n t e .done
  /-- It had been cancelled. -/
  | aborts {task : Task} (htask : e.before.tasks[t]? = some task)
      (cancelled : task.cancelled = true) : Ends n t e .aborted

/-- One of the `events` is a step that `Ends` task `t` with the outcome `o`. -/
def Ended (n t : Nat) (events : List Event) (o : Outcome) : Prop :=
  ∃ e ∈ events, e.cause = .task t ∧ e.after.outcome? t = some o ∧ Ends n t e o

theorem Ended.concat {events : List Event} {o : Outcome} (h : Ended n t events o) (x : Event) :
    Ended n t (events ++ [x]) o := by
  obtain ⟨e, he, hrest⟩ := h
  exact ⟨e, List.mem_append_left _ he, hrest⟩

end World

namespace Listening

open World (KeepsActivity Ended stage?_of_task stage?_become stage?_finish)

/-- How far a task has got: its `Standing` with its rounds, or its outcome and how it has `Ended`.
-/
inductive Effort (node : Node) (n t since : Nat) (events : List Event) (now : Nat) :
    Task → List Round → Prop where
  | underway {s : Stage} {cancelled : Bool} {all : List Round}
      (standing : Standing node n t since events now s all) :
      Effort node n t since events now ⟨.listening ⟨n, s⟩, none, cancelled⟩ all
  | finished {task : Task} {o : Outcome} {all : List Round}
      (rounds : Rounds node n t since events all) (outcome : task.outcome = some o)
      (ended : Ended n t events o) :
      Effort node n t since events now task all

/-- The steps of task `t` show its rounds: it has listened when they begin, and begun to pause when
they fail. -/
structure Shown (t : Nat) (events : List Event) (all : List Round) : Prop where
  begun : moments (·.listens t) events = all.map (·.begun)
  paused : moments (·.pauses t) events = all.filterMap (·.failed?)

variable {node node' : Node} {n t since now : Nat} {events : List Event} {all : List Round}
  {task : Task} {x : Event} {s s' : Stage}

/-- An event shows nothing if it is no step of task `t`, or gives it an outcome. -/
theorem Shown.quiet (h : Shown t events all) (hx : x.cause = .task t → x.after.stage? t = none) :
    Shown t (events ++ [x]) all := by
  have hlistens : x.listens t = false := by
    by_cases hcause : x.cause = .task t
    · simp [Event.listens, hx hcause]
    · simp [Event.listens, hcause]
  have hpauses : x.pauses t = false := by
    by_cases hcause : x.cause = .task t
    · simp [Event.pauses, hx hcause]
    · simp [Event.pauses, hcause]
  exact ⟨by simp [moments_concat, hlistens, h.begun], by simp [moments_concat, hpauses, h.paused]⟩

theorem Shown.goes (h : Shown t events all) (hcause : x.cause = .task t)
    (hbefore : x.before.stage? t = some s) (hafter : x.after.stage? t = some s') {all' : List Round}
    (begun : all'.map (·.begun)
      = all.map (·.begun) ++ if s.isReady then [x.before.now] else [])
    (paused : all'.filterMap (·.failed?)
      = all.filterMap (·.failed?) ++ if s'.isPausing then [x.before.now] else []) :
    Shown t (events ++ [x]) all' := by
  have hlistens : x.listens t = s.isReady := by simp [Event.listens, hcause, hbefore, hafter]
  have hpauses : x.pauses t = s'.isPausing := by simp [Event.pauses, hcause, hafter]
  exact ⟨by rw [moments_concat, hlistens, h.begun, begun],
    by rw [moments_concat, hpauses, h.paused, paused]⟩

/-- An event that is no step of task `t` keeps its `Effort`. -/
theorem Effort.keep (h : Effort node n t since events x.before.now task all)
    (htask : x.before.tasks[t]? = some task) (hnode : x.before.nodes[n]? = some node')
    (hx : KeepsActivity n t x.before x.after) {task' : Task}
    (hactivity : task'.activity = task.activity) (houtcome : task'.outcome = task.outcome) :
    Effort node n t since (events ++ [x]) x.after.now task' all := by
  cases h with
  | finished rounds outcome ended =>
    exact .finished (rounds.concat x) (houtcome.trans outcome) (ended.concat x)
  | @underway s cancelled _ standing =>
    obtain ⟨a, o, c⟩ := task'
    obtain rfl : a = _ := hactivity
    obtain rfl : o = _ := houtcome
    refine .underway ?_
    cases standing with
    | ready rounds begins =>
      -- a task that is to listen does so before time goes on
      have hnow : x.after.now = x.before.now := by
        refine Decidable.byContradiction fun hne => ?_
        have hnone := hx.waits hne
        rw [World.step, htask] at hnone
        cases cancelled with
        | true => cases hnone
        | false => simp [Activity.step, World.stepListening, hnode] at hnone
      exact .ready (rounds.concat x) (hnow ▸ begins.concat x)
    | waiting rounds begins opened =>
      exact .waiting (rounds.concat x) (begins.concat x) (Noted.concat opened x)
    | handling rounds => exact .handling (rounds.concat x)
    | pausing rounds due time =>
      refine .pausing (rounds.concat x) due (hx.time _ ?_ time)
      rw [World.timer?, htask]
      rfl

/-- Every `Turn` after which the task has a stage leads from one `Standing` to the next. -/
theorem Standing.turn (h : Standing node n t since events x.before.now s all)
    (hturn : Turn t ⟨n, s⟩ node' x.before x.after) (hcause : x.cause = .task t)
    (hplace : place node' = place node) (hconfig : node'.config = node.config)
    (htask : x.before.tasks[t]? = some ⟨.listening ⟨n, s⟩, none, false⟩)
    (hstage : x.after.stage? t = some s') : ∃ all',
      Standing node n t since (events ++ [x]) x.before.now s' all' ∧
      all'.map (·.begun) = all.map (·.begun) ++ (if s.isReady then [x.before.now] else []) ∧
      all'.filterMap (·.failed?)
        = all.filterMap (·.failed?) ++ if s'.isPausing then [x.before.now] else [] := by
  -- Each `Turn` fixes the stage before it and after it. The stage before picks the one `Standing`
  -- that fits, and the `Turn` is the last step that the next `Standing` tells of.
  generalize hafter : x.after = u at hturn hstage
  cases hturn with
  | retires _ _ htasks | stops _ _ htasks =>
    cases (stage?_finish .done (htasks ▸ htask)).symm.trans hstage
  | opens stage _ _ listen htasks =>
    cases (stage?_become (htasks ▸ htask) _).symm.trans hstage
    obtain rfl : s = .ready := stage
    cases h with
    | ready rounds begins =>
      rw [hplace] at listen
      refine ⟨_, .waiting (rounds.concat x) (begins.concat x) (.last hcause ⟨listen, rfl⟩), ?_, ?_⟩
      · simp [Stage.isReady]
      · simp [Stage.isPausing, Round.failed?]
  | fails fails htasks due =>
    cases (stage?_become (htasks ▸ htask) _).symm.trans hstage
    rw [hconfig] at due
    cases h with
    | ready rounds begins =>
      cases fails with
      | listen _ _ listen =>
        rw [hplace] at listen
        refine ⟨_, .pausing ((rounds.concat x).next (begins.concat x)
          (.refused (.last hcause ⟨listen, rfl⟩))) due (by omega), ?_, ?_⟩
        · simp [Stage.isReady]
        · simp [Stage.isPausing, Round.failed?]
    | waiting rounds begins opened =>
      cases fails with
      | accept accept =>
        refine ⟨_, .pausing ((rounds.concat x).next (begins.concat x)
          (.lost (Noted.concat opened x) (.last hcause ⟨accept, rfl⟩))) due (by omega), ?_, ?_⟩
        · simp [Stage.isReady]
        · simp [Stage.isPausing, Round.failed?]
    | handling | pausing => cases fails
  | @takes v id stream sender stage accept htasks =>
    have htask' : v.tasks[t]? = some ⟨.listening ⟨n, s⟩, none, false⟩ := htasks ▸ htask
    have htaken := tasks_handOver (l := ⟨n, s⟩) htask' id stream sender
    cases (stage?_of_task htaken).symm.trans hstage
    obtain rfl : s = .waiting id := stage
    cases h with
    | waiting rounds begins opened =>
      have hstarted : x.after.tasks[v.tasks.size]?
          = some { activity := .accepting ⟨n, sender, .ready (.link stream)⟩ } := by
        -- the task that is started gets the next number, which is not `t`
        have hne : t ≠ v.tasks.size := Nat.ne_of_lt (Array.getElem?_eq_some_iff.1 htask').1
        rw [hafter, World.handOver, World.become, World.updateTask, Array.getElem?_modify,
          if_neg hne]
        exact Array.getElem?_push_size
      refine ⟨_, .handling ((rounds.concat x).next (begins.concat x) (.took (Noted.concat opened x)
        (List.mem_append_right _ List.mem_cons_self) hcause accept hstarted)), ?_, ?_⟩
      · simp [Stage.isReady]
      · simp [Stage.isPausing, Round.failed?]
  | dealt stage ended htasks =>
    cases (stage?_become (htasks ▸ htask) _).symm.trans hstage
    obtain rfl : s = .handling _ := stage
    cases h with
    | handling rounds =>
      refine ⟨_, .ready (rounds.concat x) (begins_concat ?_), ?_, ?_⟩
      · unfold Follows
        exact .last hcause ⟨ended, rfl⟩
      · simp [Stage.isReady]
      · simp [Stage.isPausing]
  | recovers stage due htasks =>
    cases (stage?_become (htasks ▸ htask) _).symm.trans hstage
    obtain rfl : s = .pausing _ := stage
    cases h with
    | pausing rounds hdue time =>
      refine ⟨_, .ready (rounds.concat x) (begins_concat ?_), ?_, ?_⟩
      · exact (Nat.le_antisymm time due).trans hdue
      · simp [Stage.isReady]
      · simp [Stage.isPausing]

/-- Every `Turn` either `Ends` the task, or leaves it with a stage. -/
theorem Turn.ends_or_goes (hturn : Turn t ⟨n, s⟩ node x.before x.after)
    (hnode : x.before.nodes[n]? = some node)
    (htask : x.before.tasks[t]? = some ⟨.listening ⟨n, s⟩, none, false⟩) :
    (∃ v : World, v.tasks = x.before.tasks ∧ x.after = v.finish t .done ∧ World.Ends n t x .done) ∨
      ∃ s', x.after.tasks[t]? = some ⟨.listening ⟨n, s'⟩, none, false⟩ := by
  have hbefore := stage?_of_task htask
  generalize hafter : x.after = u at hturn
  cases hturn with
  | @retires v stage idle htasks inactive =>
    obtain rfl : s = .ready := stage
    refine .inl ⟨v, htasks, rfl,
      .retires hbefore (idle.imp (fun hidle => ?_) fun hoff hon => ?_) ?_⟩
    · rw [World.active?, hnode, Option.map_some, hidle]
    · obtain ⟨node', hnode', hon⟩ := hon
      cases hnode.symm.trans hnode'
      cases hon.symm.trans hoff
    · rw [hafter]
      exact inactive
  | @stops v away told htasks =>
    refine .inl ⟨v, htasks, rfl, .stops hbefore away ?_⟩
    rw [World.listening?, hnode]
    exact told
  | opens _ _ _ _ htasks | fails _ htasks | dealt _ _ htasks | recovers _ _ htasks =>
    exact .inr ⟨_, World.tasks_become (htasks ▸ htask)⟩
  | takes _ _ htasks =>
    exact .inr ⟨_, tasks_handOver (l := ⟨n, s⟩) (htasks ▸ htask) _ _ _⟩

/-- Every step of task `t` leads from one `Effort` to the next. -/
theorem Effort.step (h : Effort node n t since events x.before.now task all)
    (hshown : Shown t events all) (htask : x.before.tasks[t]? = some task)
    (hnode : x.before.nodes[n]? = some node') (hsettings : node'.settings = node.settings)
    (hcause : x.cause = .task t) (hs : x.before.step t = some x.after) :
    ∃ task' all', x.after.tasks[t]? = some task' ∧
      Effort node n t since (events ++ [x]) x.after.now task' all' ∧
      Shown t (events ++ [x]) all' := by
  obtain ⟨_, hsame, -, hadvances, hstep⟩ := World.exists_advances hs
  cases htask.symm.trans hsame
  cases h with
  | finished _ outcome => simp [World.step, htask, outcome] at hs
  | @underway s cancelled _ standing =>
    -- a step that ends the task leaves its rounds as they are
    have hends {v : World} {o : Outcome} (htasks : v.tasks = x.before.tasks)
        (hafter : x.after.tasks = (v.finish t o).tasks) (hwhy : World.Ends n t x o) :
        ∃ task' all', x.after.tasks[t]? = some task' ∧
          Effort node n t since (events ++ [x]) x.after.now task' all' ∧
          Shown t (events ++ [x]) all' := by
      have hfinished := World.tasks_finish (o := o) (htasks ▸ htask)
      rw [← hafter] at hfinished
      have houtcome : x.after.outcome? t = some o := by
        rw [World.outcome?, hfinished]
        rfl
      exact ⟨_, all, hfinished, .finished (standing.rounds.concat x) rfl
        ⟨x, List.mem_append_right _ List.mem_cons_self, hcause, houtcome, hwhy⟩,
        hshown.quiet fun _ => World.stage?_of_outcome houtcome⟩
    cases cancelled with
    | true =>
      have hafter : x.after = x.before.abortListening t (.listening ⟨n, s⟩) := hstep
      exact hends rfl (hafter ▸ World.tasks_aborted ..) (.aborts htask rfl)
    | false =>
      have hturn := turn_of_step hnode hstep
      obtain ⟨v, htasks, hafter, hwhy⟩ | ⟨s', hgoes⟩ := hturn.ends_or_goes hnode htask
      · exact hends htasks (congrArg World.tasks hafter) hwhy
      · have hplace : place node' = place node :=
          show place node'.settings = place node.settings by rw [hsettings]
        have hconfig : node'.config = node.config := (congrArg (·.config) hsettings :)
        have hstage := stage?_of_task hgoes
        obtain ⟨all', hstanding, hbegun, hpaused⟩ :=
          standing.turn hturn hcause hplace hconfig htask hstage
        rw [hadvances.now]
        exact ⟨_, all', hgoes, .underway hstanding,
          hshown.goes hcause (stage?_of_task htask) hstage hbegun hpaused⟩

end Listening

/-! ### Endpoints -/

namespace World

open Listening (Effort Shown Standing Rounds Round)

variable {n t id : Nat} {w v : World} {events : List Event} {node : Node} {x : Event}

/-- A step of task `t` has opened the listener `id`. -/
def HasOpened (t : Nat) (events : List Event) (id : Nat) : Prop :=
  ∃ e ∈ events, e.cause = .task t ∧ e.before.air.place? id = none ∧ e.after.air.place? id ≠ none

/-- Every listener that task `t` `HasOpened` is the one it waits at, or is closed for good. -/
def Tidy (t : Nat) (events : List Event) (w : World) : Prop :=
  ∀ id, HasOpened t events id → id ≤ w.air.opened ∧
    (w.stage? t = some (.waiting id) ∨ w.air.place? id = none)

/-- An event that is no step of task `t` opens no listener for it. -/
theorem HasOpened.of_other (h : HasOpened t (events ++ [x]) id) (hcause : x.cause ≠ .task t) :
    HasOpened t events id := by
  obtain ⟨e, he, hown, hrest⟩ := h
  rcases List.mem_append.1 he with he | he
  · exact ⟨e, he, hown, hrest⟩
  · cases List.mem_singleton.1 he
    exact absurd hown hcause

theorem Tidy.keep (h : Tidy t events x.before) (hcause : x.cause ≠ .task t)
    (hx : KeepsActivity n t x.before x.after) {task : Task}
    (htask : x.before.tasks[t]? = some task) :
    Tidy t (events ++ [x]) x.after := by
  intro id hid
  obtain ⟨hle, hrest⟩ := h id (hid.of_other hcause)
  obtain ⟨acts, hair⟩ := hx.acts
  obtain ⟨task', htask', hactivity, houtcome⟩ := hx.task task htask
  have hstage : x.after.stage? t = x.before.stage? t := by
    rw [stage?, stage?, htask, htask', Option.bind_some, Option.bind_some, hactivity, houtcome]
  refine ⟨Nat.le_trans hle (hair ▸ Air.opened_le_foldl ..), ?_⟩
  rw [hstage, hair]
  exact hrest.imp_right fun hnone => Air.place?_eq_none_foldl hnone hle

theorem Tidy.step (h : Tidy t events x.before) (hair : x.before.air.Orderly) {l : Listening}
    {b : Bool} (htask : x.before.tasks[t]? = some ⟨.listening l, none, b⟩)
    (hs : x.before.step t = some x.after) : Tidy t (events ++ [x]) x.after := by
  have hstage := stage?_of_task htask
  -- a listener that the task has opened was open before, or comes about by this step
  have hcases (id : Nat) (hid : HasOpened t (events ++ [x]) id) : HasOpened t events id ∨
      x.before.air.place? id = none ∧ x.after.air.place? id ≠ none := by
    obtain ⟨e, he, hown, hrest⟩ := hid
    rcases List.mem_append.1 he with he | he
    · exact .inl ⟨e, he, hown, hrest⟩
    · cases List.mem_singleton.1 he
      exact .inr hrest
  have hclosed {id : Nat} {taken : Option Nat} (hwaits : l.stage = .waiting id)
      (hsettles : Air.Settles id taken x.before.air x.after.air) :
      Tidy t (events ++ [x]) x.after := by
    intro id' hid
    obtain hold | ⟨hnone, hnew⟩ := hcases id' hid
    · obtain ⟨hle, hrest⟩ := h id' hold
      refine ⟨hsettles.opened ▸ hle, .inr ?_⟩
      rw [hsettles.place]
      split
      · rfl
      · next hne =>
        refine hrest.resolve_left fun hwaits' => hne ?_
        rw [hstage, hwaits] at hwaits'
        cases hwaits'
        rfl
    · rw [hsettles.place] at hnew
      split at hnew
      · exact absurd rfl hnew
      · exact absurd hnone hnew
  have hhandled := handled_of_step hair htask rfl hs
  generalize x.before.receptions x.after = rs at hhandled
  cases hhandled with
  | rests away hsame =>
    intro id hid
    obtain hold | ⟨hnone, hnew⟩ := hcases id hid
    · obtain ⟨hle, hrest⟩ := h id hold
      refine ⟨hsame ▸ hle, .inr (hsame ▸ hrest.resolve_left fun hwaits => ?_)⟩
      rw [hstage] at hwaits
      exact away id (Option.some.inj hwaits)
    · exact absurd (hsame ▸ hnone) hnew
  | @opens task node id' stage hnode listen waits =>
    have hlisten : x.after.air = x.before.air.perform (.listen _ _) :=
      (congrArg Prod.snd listen).symm
    obtain ⟨hid', hopened⟩ := Air.listen_eq_ok listen
    intro id hid
    obtain hold | ⟨hnone, hnew⟩ := hcases id hid
    · obtain ⟨hle, hrest⟩ := h id hold
      have hnone := hrest.resolve_left fun hwaits => by
        rw [hstage, stage] at hwaits
        cases hwaits
      refine ⟨by omega, .inr ?_⟩
      rw [hlisten]
      exact (x.before.air.effect (.listen _ _)).place?_eq_none hle hnone
    · obtain ⟨q, hq⟩ := Option.ne_none_iff_exists'.1 hnew
      rw [hlisten] at hq
      obtain hold | ⟨-, hid⟩ := Air.place?_listen _ _ hq
      · cases hnone.symm.trans hold
      · obtain ⟨htask', hlive, hactivity⟩ := waits
        refine ⟨by omega, .inl ?_⟩
        rw [stage?, htask', Option.bind_some, hlive, hactivity, hid, ← hid']
        rfl
  | shuts stage settles | takes stage settles => exact hclosed stage settles

/-! ### What a task waits for -/

/-- What task `t` waits for in this stage when `step t` is `none`. -/
inductive Idles (n t : Nat) (w : World) : Listening.Stage → Prop where
  | connection {id : Nat} (kept : w.listening? n = some t) (none : (w.air.accept id).1 = .pending) :
      Idles n t w (.waiting id)
  | task {r : Nat} (under_way : w.outcome? r = none) : Idles n t w (.handling r)
  | time {timer : Timer} (kept : w.listening? n = some t) (due : w.now < timer.due) :
      Idles n t w (.pausing timer)

theorem History.orderly (h : w.History (KeepsActivity n t) events v) (hair : w.air.Orderly)
    (hleads : w.air.Leads) : v.air.Orderly ∧ v.air.Leads := by
  have hfoldl {u u' : World} {acts : List Air.Act} (hu : u.air.Orderly ∧ u.air.Leads)
      (hacts : u'.air = acts.foldl Air.perform u.air) : u'.air.Orderly ∧ u'.air.Leads := by
    rw [hacts]
    exact ⟨hu.1.foldl acts, hu.2.foldl hu.1 acts⟩
  refine h.keeps (P := fun u => u.air.Orderly ∧ u.air.Leads) ⟨hair, hleads⟩
    (fun r u u' hu hs => ?_) (fun m a u hu => ?_) fun u u' hu hx => ?_
  · obtain ⟨_, -, -, hadvances, -⟩ := exists_advances hs
    obtain ⟨acts, hacts, -⟩ := hadvances.exists_acts
    exact hfoldl hu hacts
  · obtain ⟨acts, hacts, -⟩ := (u.course_removeBonded m a).exists_acts
    exact hfoldl hu hacts
  · obtain ⟨acts, hacts⟩ := hx.acts
    exact hfoldl hu hacts

theorem History.rounds (h : w.History (KeepsActivity n t) events v) (hair : w.air.Orderly)
    (hleads : w.air.Leads) (hnode : w.nodes[n]? = some node)
    (htask : w.tasks[t]? = some { activity := .listening { node := n } }) :
    ∃ node' task all, v.nodes[n]? = some node' ∧ node'.settings = node.settings ∧
      v.tasks[t]? = some task ∧ Effort node n t w.now events v.now task all ∧
      Shown t events all ∧ Tidy t events v := by
  induction h with
  | start =>
    refine ⟨node, _, [], hnode, rfl, htask, .underway (.ready .none rfl), ⟨rfl, rfl⟩, ?_⟩
    rintro id ⟨e, he, -⟩
    cases he
  | @next events x past happens ih =>
    obtain ⟨node', task, all, hnode', hsettings, htask', heffort, hshown, htidy⟩ := ih
    have hnext (hx : x.after.settings? n = x.before.settings? n) :
        ∃ node'', x.after.nodes[n]? = some node'' ∧ node''.settings = node.settings := by
      rw [settings?, settings?, hnode', Option.map_some, hsettings] at hx
      exact Option.map_eq_some_iff.1 hx
    by_cases hcause : x.cause = .task t
    · have hs := happens.step hcause
      obtain ⟨node'', hnode'', hsettings'⟩ := hnext ((step_apart hs).settings n)
      obtain ⟨task', all', htask'', heffort', hshown'⟩ :=
        heffort.step hshown htask' hnode' hsettings hcause hs
      refine ⟨node'', task', all', hnode'', hsettings', htask'', heffort', hshown', ?_⟩
      cases heffort with
      | underway => exact htidy.step (past.orderly hair hleads).1 htask' hs
      | finished _ outcome => simp [World.step, htask', outcome] at hs
    · have hx := keepsActivity_of_happens happens hcause htask'
      obtain ⟨node'', hnode'', hsettings'⟩ := hnext hx.settings
      obtain ⟨task', htask'', hactivity, houtcome⟩ := hx.task task htask'
      exact ⟨node'', task', all, hnode'', hsettings', htask'',
        heffort.keep htask' hnode' hx hactivity houtcome,
        hshown.quiet fun hown => absurd hown hcause, htidy.keep hcause hx htask'⟩

end World

/-- What has become of a task that takes connections in for node `n`, with all of its rounds. -/
structure Listening.Report (node : Node) (n t : Nat) (w : World) (events : List Event) (v : World)
    (all : List Round) : Prop where
  /-- The rounds follow one another as `Follows` says: after `errorBackoff` if one has failed, and
  otherwise at the outcome, whichever it is, of the task that took the connection in. -/
  rounds : Rounds node n t w.now events all
  /-- The task has listened when its rounds begin and at no other moment. -/
  begun : moments (·.listens t) events = all.map (·.begun)
  /-- The task has begun to pause when a round failed and at no other moment. -/
  paused : moments (·.pauses t) events = all.filterMap (·.failed?)
  stands : ∀ s, v.stage? t = some s → Standing node n t w.now events v.now s all
  /-- With an outcome, one of its steps `Ends` the task. -/
  ends : ∀ o, v.outcome? t = some o → World.Ended n t events o
  /-- As long as everybody else leaves it one that node `n` `Wants`, the task has no outcome. -/
  stays : w.Wants n t → (∀ e ∈ events, e.cause = .other → e.before.Wants n t → e.after.Wants n t) →
    v.outcome? t = none
  /-- Where `step t` is `none` the task `Idles`: for a connection or for a time only if it has not
  been told to stop. -/
  waits : v.outcome? t = none → v.step t = none → ∃ s, v.stage? t = some s ∧ World.Idles n t v s
  /-- A step from `.ready` gives the task an outcome if `active? n` is false or the radio is not on.
  -/
  retires : ∀ u, v.stage? t = some .ready → v.active? n = some false ∨ ¬ v.IsOn n →
    v.step t = some u → (u.outcome? t).isSome = true
  /-- Of the listeners that the task `HasOpened` only the one that it waits at is open or
  registered. -/
  endpoints : ∀ id, World.HasOpened t events id →
    (v.air.place? id ≠ none ∨ ∃ a e, (e, id) ∈ (v.air.radio a).endpoints) →
      v.stage? t = some (.waiting id)

namespace World

variable {n t : Nat} {w v : World} {events : List Event} {node : Node}

end World
end RadioLink

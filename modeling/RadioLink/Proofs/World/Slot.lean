import RadioLink.Proofs.World.Ownership

/-!
# One send at a time

A send is `World.Engaged` from when it has taken the connection out of its session `s` until it has
an outcome, and all that time it is the `holder` of the session (`World.Slot.engaged`). So no two
sends through `s` are engaged at once. A session with a `holder` has nothing `held`
(`World.Slot.empty`), and one that is `World.Bare` stays so. `Sending.Passage` says what a step of a
send does in this respect; all other events keep a session as `Session.Keeps` says, or pass the turn
on.
-/

namespace RadioLink

/-- Whether a send in this stage has taken the connection out of its session. -/
def Sending.Stage.isEngaged : Sending.Stage → Bool
  | .connecting .. | .writing .. => true
  | .ready | .queued => false

/-- An activity of the same `role` as a send is a send of the same session, message and payload. -/
theorem Activity.sending_of_role {a : Activity} {d : Sending} (h : (sending d).role = a.role) :
    ∃ d', a = .sending d' ∧ d'.session = d.session ∧ d'.message = d.message ∧
      d'.payload = d.payload := by
  cases a with
  | sending d' =>
    obtain ⟨hsession, hmessage, hpayload⟩ := Role.sending.inj h
    exact ⟨d', rfl, hsession.symm, hmessage.symm, hpayload.symm⟩
  | _ => cases h

/-- From `x` to `y` the `holder` is the same, and what is `held` is the same or nothing. -/
structure Session.Keeps (x y : Session) : Prop where
  holder : y.holder = x.holder
  held : y.held = x.held ∨ y.held = none

namespace Session.Keeps

variable {x y z : Session}

theorem refl : x.Keeps x := ⟨rfl, .inl rfl⟩

theorem trans (h : x.Keeps y) (h' : y.Keeps z) : x.Keeps z where
  holder := h'.holder.trans h.holder
  held := by
    obtain heq | hnone := h'.held
    · rw [heq]
      exact h.held
    · exact .inr hnone

end Session.Keeps

namespace World

variable {s t : Nat} {a : Activity} {w u v : World} {x y : Session} {hand : List LinkEnd}

/-- Task `t` is the send `d` through session `s`. -/
def Sends (w : World) (s t : Nat) (d : Sending) : Prop :=
  d.session = s ∧ ∃ task, w.tasks[t]? = some task ∧ task.activity = .sending d

/-- Task `t` is a send through session `s` without an outcome, in a stage that `isEngaged`: it
connects, or it writes. -/
def Engaged (w : World) (s t : Nat) : Prop :=
  ∃ task d, w.tasks[t]? = some task ∧ task.outcome = none ∧ task.activity = .sending d ∧
    d.session = s ∧ d.stage.isEngaged = true

/-- Task `t` is the `holder` of session `s`. -/
def Locks (w : World) (s t : Nat) : Prop := ∃ x, w.sessions[s]? = some x ∧ x.holder = some t

/-- Session `s` has nothing `held`. -/
def Bare (w : World) (s : Nat) : Prop := ∃ x, w.sessions[s]? = some x ∧ x.held = none

/-! ### What others do to a session -/

theorem exists_release (r : Nat) (hx : v.sessions[s]? = some x) :
    ∃ y, (v.release r).sessions[s]? = some y ∧ x.Keeps y := by
  unfold release
  split
  · exact ⟨x, hx, .refl⟩
  · split
    · refine ⟨if r = s then { x with held := none } else x, ?_, ?_⟩
      · rw [sessions_drop, updateSession, Array.getElem?_modify, hx]
        split <;> rfl
      · split
        · exact ⟨rfl, .inr rfl⟩
        · exact .refl
    · exact ⟨x, hx, .refl⟩

/-- The `Course` of an activity that does not ask for session `s` leaves it as `Session.Keeps` says.
-/
theorem Course.keeps (h : Course t a w hand v) (hs : a.session? ≠ some s)
    (hx : w.sessions[s]? = some x) : ∃ y, v.sessions[s]? = some y ∧ x.Keeps y := by
  have hother {v : World} {r : Nat} {f : Session → Session} (hr : a.session? = some r)
      (h : ∃ y, v.sessions[s]? = some y ∧ x.Keeps y) :
      ∃ y, (v.updateSession r f).sessions[s]? = some y ∧ x.Keeps y := by
    have hne : r ≠ s := fun heq => hs (heq ▸ hr)
    rwa [updateSession, Array.getElem?_modify, if_neg hne]
  induction h with
  | start => exact ⟨x, hx, .refl⟩
  | forgets _ _ ih | node _ _ _ _ _ _ ih | act _ _ ih | connects _ _ _ ih | accepts _ _ _ ih
  | spawns _ _ ih => exact ih
  | aside _ hv _ ih => rwa [hv.sessions]
  | releases _ r ih =>
    obtain ⟨y, hy, hkeeps⟩ := ih
    obtain ⟨z, hz, hkeeps'⟩ := exists_release r hy
    exact ⟨z, hz, hkeeps.trans hkeeps'⟩
  | adds _ _ _ ih =>
    obtain ⟨y, hy, hkeeps⟩ := ih
    have hlt := (Array.getElem?_eq_some_iff.1 hy).1
    refine ⟨y, ?_, hkeeps⟩
    rw [addSession, Array.getElem?_push, if_neg (Nat.ne_of_lt hlt), hy]
  | asks _ hr _ _ ih | takes _ hr _ ih => exact hother hr ih

/-- What an `Inspecting` does to its session is to queue, which `Keeps` it, or to pass the turn on
if it is the `holder`. -/
theorem keeps_stepInspecting {i : Inspecting} (h : w.stepInspecting t i = some u)
    (hx : w.sessions[i.session]? = some x) :
    ∃ y, u.sessions[i.session]? = some y ∧ (x.Keeps y ∨ x.holder = some t ∧ y.held = x.held) := by
  have hself {f : Session → Session} :
      (w.updateSession i.session f).sessions[i.session]? = some (f x) := by
    rw [updateSession, Array.getElem?_modify, if_pos rfl, hx]
    rfl
  obtain ⟨x', hx', hstep⟩ := Inspecting.step_of_stepInspecting h
  rw [hx] at hx'
  obtain rfl := Option.some.inj hx'
  cases hstep with
  | follows _ turn =>
    refine ⟨_, hself, .inr ⟨turn, ?_⟩⟩
    split <;> rfl
  | looks => exact ⟨x, hx, .inl .refl⟩
  | queues => exact ⟨_, hself, .inl ⟨rfl, .inl rfl⟩⟩

end World

/-! ### What a send does to its session -/

namespace Sending

/-- It is the turn of task `t`: the session has no `holder`, or the task has queued and is the
`holder`. -/
def Turn (t : Nat) (d : Sending) (x : Session) : Prop :=
  d.stage = .ready ∧ x.holder = none ∨ d.stage = .queued ∧ x.holder = some t

/-- What a step of the send `d` can be, with its session `x`: the session afterwards, what the step
returns, and the world before `concludeSending`. -/
inductive Passage (t : Nat) (d : Sending) (x : Session) (w : World) :
    Session → Progress → World → Prop where
  /-- It queues for its turn. -/
  | queues {y : Session} {v : World} (stage : d.stage = .ready) (keeps : x.Keeps y)
      (idle : w.air.Idle v.air) : Passage t d x w y (.going { d with stage := .queued }) v
  /-- At its `Turn` it becomes the `holder` and leaves nothing `held`. -/
  | takes {y : Session} {v : World} {stage : Stage} (turn : d.Turn t x)
      (engaged : stage.isEngaged = true) (holder : y.holder = some t) (held : y.held = none)
      (idle : w.air.Idle v.air) : Passage t d x w y (.going { d with stage }) v
  /-- At its `Turn` it takes out what is held, and ends, since `Outflow.start` refuses its payload.
  -/
  | refuses {y : Session} {v : World} (turn : d.Turn t x) (held : y.held = none)
      (idle : w.air.Idle v.air) : Passage t d x w y (.ended false) v
  | goesOn {y : Session} {v : World} {stage : Stage} (was : d.stage.isEngaged = true)
      (engaged : stage.isEngaged = true) (keeps : x.Keeps y) :
      Passage t d x w y (.going { d with stage }) v
  /-- It ends, and the next in `waiting` has its turn. -/
  | leaves {y : Session} {v : World} {ok : Bool} (was : d.stage.isEngaged = true)
      (held : y.held = x.held ∨ y.held = none)
      (outgoing : ∀ e, v.air.outgoing e = w.air.outgoing e) : Passage t d x w y (.ended ok) v

end Sending

namespace World

variable {s t : Nat} {d : Sending} {w u v : World} {x y : Session}

theorem sessions_concludeSending (v : World) (t : Nat) (p : Sending.Progress) :
    (v.concludeSending t p).sessions = v.sessions := by
  cases p <;> rfl

theorem air_concludeSending (v : World) (t : Nat) (p : Sending.Progress) :
    (v.concludeSending t p).air = v.air := by
  cases p <;> rfl

/-- The world `u` comes about by a `Passage` of the send `d`. -/
def Passes (t : Nat) (d : Sending) (x : Session) (w u : World) : Prop :=
  ∃ y p v, d.Passage t x w y p v ∧ v.sessions[d.session]? = some y ∧ v.tasks = w.tasks ∧
    u = v.concludeSending t p

/-- What `finishSending` does is to `unlock` the session; what is `held` and the air are the same.
-/
theorem exists_finishSending (hy : v.sessions[d.session]? = some y) (x : Session)
    (size : Option Nat) : ∃ (z : Session) (v' : World), v.finishSending t d x size
      = v'.concludeSending t (.ended size.isSome) ∧ v'.sessions[d.session]? = some z ∧
        z.held = y.held ∧ v'.tasks = v.tasks ∧ v'.air = v.air := by
  have hunlock : ∃ z, (v.unlock d.session).sessions[d.session]? = some z ∧ z.held = y.held := by
    rw [unlock, updateSession, Array.getElem?_modify, if_pos rfl, hy]
    refine ⟨_, rfl, ?_⟩
    dsimp only
    split <;> rfl
  obtain ⟨z, hz, hheld⟩ := hunlock
  cases size with
  | none => exact ⟨z, (v.unlock d.session).count x.node .sendFailure, rfl, hz, hheld, rfl, rfl⟩
  | some size =>
    exact ⟨z, (v.unlock d.session).count x.node (.frameSent (UInt64.ofNat size)), rfl, hz, hheld,
      rfl, rfl⟩

/-- What `beginWriting` returns is a stage that `isEngaged`, or the send ends with `.ended false`.
-/
theorem exists_beginWriting (hy : v.sessions[d.session]? = some y) (x : Session) (node : Node)
    (stream : LinkEnd) : ∃ (z : Session) (p : Sending.Progress) (v' : World),
      v.beginWriting t d x node stream = v'.concludeSending t p ∧
      v'.sessions[d.session]? = some z ∧ v'.tasks = v.tasks ∧ v.air.Idle v'.air ∧
      ((∃ stage : Sending.Stage, stage.isEngaged = true ∧ p = .going { d with stage } ∧ z = y) ∨
        p = .ended false ∧ z.held = y.held) := by
  have hidle : v.air.Idle (v.air.cancelDiscovery node.address) := Air.Idle.refl.cancelDiscovery _
  unfold beginWriting
  dsimp only
  split
  · obtain ⟨z, v', heq, hz, hheld, htasks, hair⟩ := exists_finishSending (t := t)
      (v := (v.cancelDiscovery node).drop stream) hy x none
    refine ⟨z, _, v', heq, hz, htasks, ?_, .inr ⟨rfl, hheld⟩⟩
    rw [hair]
    exact hidle.drop stream
  · next rest _ =>
    exact ⟨y, .going { d with stage := .writing stream rest _ }, (v.cancelDiscovery node).withTimer,
      rfl, hy, rfl, hidle, .inl ⟨_, rfl, rfl, rfl⟩⟩

theorem passes_takeConnection (hturn : d.Turn t x) (hy : v.sessions[d.session]? = some y)
    (hholder : y.holder = some t) (htasks : v.tasks = w.tasks) (hair : v.air = w.air)
    (node : Node) : Passes t d x w (v.takeConnection t d x node) := by
  have htaken : (v.updateSession d.session fun x => { x with held := none }).sessions[d.session]?
      = some { y with held := none } := by
    rw [updateSession, Array.getElem?_modify, if_pos rfl, hy]
    rfl
  unfold takeConnection
  dsimp only
  split
  · next stream _ =>
    obtain ⟨z, p, v', heq, hz, htasks', hidle, hgoes | ⟨rfl, hheld⟩⟩ :=
      exists_beginWriting (t := t) htaken x node stream
    · obtain ⟨stage, hengaged, rfl, rfl⟩ := hgoes
      exact ⟨{ y with held := none }, _, v', .takes hturn hengaged hholder rfl (hair ▸ hidle), hz,
        htasks'.trans htasks, heq⟩
    · exact ⟨z, _, v', .refuses hturn hheld (hair ▸ hidle), hz, htasks'.trans htasks, heq⟩
  · refine ⟨{ y with held := none },
      .going { d with stage := .connecting (Retry.start x.node x.peer.address) x.held },
      v.updateSession d.session fun x => { x with held := none },
      .takes hturn rfl hholder rfl ?_, htaken, htasks, rfl⟩
    show w.air.Idle v.air
    rw [hair]
    exact .refl

theorem passes_finishSending (hwas : d.stage.isEngaged = true)
    (hy : v.sessions[d.session]? = some y) (hkeeps : x.Keeps y) (htasks : v.tasks = w.tasks)
    (houtgoing : ∀ e, v.air.outgoing e = w.air.outgoing e) (size : Option Nat) :
    Passes t d x w (v.finishSending t d x size) := by
  obtain ⟨z, v', heq, hz, hheld, htasks', hair⟩ := exists_finishSending (t := t) hy x size
  refine ⟨z, _, v', .leaves hwas ?_ ?_, hz, htasks'.trans htasks, heq⟩
  · rw [hheld]
    exact hkeeps.held
  · rwa [hair]

/-- From a stage that `isEngaged`, `beginWriting` is a `Passage`. -/
theorem passes_beginWriting (hwas : d.stage.isEngaged = true)
    (hy : v.sessions[d.session]? = some y) (hkeeps : x.Keeps y) (htasks : v.tasks = w.tasks)
    (houtgoing : ∀ e, v.air.outgoing e = w.air.outgoing e) (node : Node) (stream : LinkEnd) :
    Passes t d x w (v.beginWriting t d x node stream) := by
  obtain ⟨z, p, v', heq, hz, htasks', hidle, hgoes | ⟨rfl, hheld⟩⟩ :=
    exists_beginWriting (t := t) hy x node stream
  · obtain ⟨stage, hengaged, rfl, rfl⟩ := hgoes
    exact ⟨z, _, v', .goesOn hwas hengaged hkeeps, hz, htasks'.trans htasks, heq⟩
  · refine ⟨z, _, v', .leaves hwas ?_ fun e => ?_, hz, htasks'.trans htasks, heq⟩
    · rw [hheld]
      exact hkeeps.held
    · exact (hidle.outgoing e).trans (houtgoing e)

theorem passes_of_writeStep {stream : LinkEnd} {rest : Outflow} {deadline : Timer}
    (hstage : d.stage = .writing stream rest deadline) (hx : w.sessions[d.session]? = some x)
    (h : d.WriteStep t x stream rest deadline w u) : Passes t d x w u := by
  have hwas : d.stage.isEngaged = true := by
    rw [hstage]
    rfl
  have hgo (air : Air) (rest : Outflow) : Passes t d x w
      (({ w with air } : World).become t
        (.sending { d with stage := .writing stream rest deadline })) :=
    ⟨x, .going { d with stage := .writing stream rest deadline }, { w with air },
      .goesOn hwas rfl .refl, hx, rfl, rfl⟩
  have hover {v : World} (hv : v.sessions = w.sessions) (htasks : v.tasks = w.tasks)
      (hair : ∀ e, v.air.outgoing e = w.air.outgoing e) (size : Option Nat) :
      Passes t d x w ((v.drop stream).finishSending t d x size) :=
    passes_finishSending (v := v.drop stream) hwas (hv ▸ hx) .refl htasks
      (fun e => (Air.outgoing_drop stream).trans (hair e)) size
  cases h with
  | takes | goesOn | shuts => exact hgo _ _
  | @breaks air _ write =>
    -- a write that fails has put nothing into the pipe
    have hnothing (e : LinkEnd) : air.outgoing e = w.air.outgoing e := by
      have hwritten := w.air.outgoing_write e stream rest.pending
      rw [write] at hwritten
      rw [hwritten]
      split <;> exact List.append_nil _
    exact hover (v := { w with air }) rfl rfl hnothing none
  | tooSlow | fails | done => exact hover rfl rfl (fun _ => rfl) _

/-- Whatever `stepSending` returns comes about by a `Passage`. -/
theorem passes_of_stepSending (h : w.stepSending t d = some u) :
    ∃ x, w.sessions[d.session]? = some x ∧ Passes t d x w u := by
  obtain ⟨x, node, hx, -, hstep⟩ := Sending.step_of_stepSending h
  refine ⟨x, hx, ?_⟩
  have hself (f : Session → Session) :
      (w.updateSession d.session f).sessions[d.session]? = some (f x) := by
    rw [updateSession, Array.getElem?_modify, if_pos rfl, hx]
    rfl
  have hengaged {retry : Retry} {stale : Option LinkEnd}
      (hstage : d.stage = .connecting retry stale) : d.stage.isEngaged = true := by
    rw [hstage]
    rfl
  -- connecting is the same for a task that asks for no session
  have hretry {retry : Retry} {q : Retry.Progress × World} (hq : retry.step w = some q) :
      ∃ y, q.2.sessions[d.session]? = some y ∧ x.Keeps y :=
    (Retry.course_step (t := t) (a := .connecting retry) rfl .start (fun _ he => he) hq).keeps
      (Option.some_ne_none d.session).symm hx
  have hmute {retry : Retry} {q : Retry.Progress × World} (hq : retry.step w = some q) :
      w.Mute q.2 := Mute.refl.retry hq
  have hstale (stale : Option LinkEnd) (v : World) :
      (stale.elim v v.drop).sessions = v.sessions ∧ (stale.elim v v.drop).tasks = v.tasks ∧
        ∀ e, (stale.elim v v.drop).air.outgoing e = v.air.outgoing e := by
    cases stale with
    | none => exact ⟨rfl, rfl, fun _ => rfl⟩
    | some m => exact ⟨rfl, rfl, fun _ => Air.outgoing_drop m⟩
  cases hstep with
  | locks stage free =>
    exact passes_takeConnection (w := w) (.inl ⟨stage, free⟩)
      (hself fun x => { x with holder := some t }) rfl rfl rfl node
  | queues stage =>
    let f (x : Session) : Session := { x with waiting := x.waiting ++ [t] }
    exact ⟨f x, .going { d with stage := .queued }, w.updateSession d.session f,
      .queues stage ⟨rfl, .inl rfl⟩ .refl, hself f, rfl, rfl⟩
  | follows stage locked =>
    exact passes_takeConnection (.inr ⟨stage, locked⟩) hx locked rfl rfl node
  | @dials retry retry' stale v stage step =>
    obtain ⟨y, hy, hkeeps⟩ := hretry step
    exact ⟨y, .going { d with stage := .connecting retry' stale }, v,
      .goesOn (hengaged stage) rfl hkeeps, hy, (hmute step).tasks, rfl⟩
  | @connected retry stale stream v stage step =>
    obtain ⟨y, hy, hkeeps⟩ := hretry step
    obtain ⟨hsessions, htasks, houtgoing⟩ := hstale stale v
    exact passes_beginWriting (hengaged stage) (hsessions ▸ hy) hkeeps
      (htasks.trans (hmute step).tasks) (fun e => (houtgoing e).trans ((hmute step).outgoing e))
      node stream
  | @failed retry stale e v stage step =>
    obtain ⟨y, hy, hkeeps⟩ := hretry step
    obtain ⟨hsessions, htasks, houtgoing⟩ := hstale stale v
    exact passes_finishSending (hengaged stage) (hsessions ▸ hy) hkeeps
      (htasks.trans (hmute step).tasks) (fun e => (houtgoing e).trans ((hmute step).outgoing e))
      none
  | writes stage write => exact passes_of_writeStep stage hx write

/-! ### The invariant -/

/-- The invariant of session `s`: a task that is `Engaged` is its `holder`, and with a `holder` it
has nothing `held`. -/
structure Slot (s : Nat) (w : World) (x : Session) : Prop where
  here : w.sessions[s]? = some x
  engaged : ∀ t, w.Engaged s t → x.holder = some t
  empty : x.holder ≠ none → x.held = none

variable {r : Nat} {task : Task} {ours : LinkEnd → Prop}

theorem Slot.locks (h : Slot s w x) (ht : w.Engaged s t) : w.Locks s t :=
  ⟨x, h.here, h.engaged t ht⟩

theorem Slot.bare (h : Slot s w x) (ht : w.Engaged s t) : w.Bare s :=
  ⟨x, h.here, h.empty (h.engaged t ht ▸ Option.some_ne_none t)⟩

theorem Engaged.of_former {former : Task} (hformer : w.tasks[r]? = some former)
    (htask : u.tasks[r]? = some task) (hactivity : task.activity = former.activity)
    (houtcome : task.outcome = former.outcome) (hr : u.Engaged s r) : w.Engaged s r := by
  obtain ⟨task', d, htask', hlive, hsending, hd⟩ := hr
  cases htask.symm.trans htask'
  exact ⟨former, d, hformer, houtcome ▸ hlive, hactivity ▸ hsending, hd⟩

/-- A task that is `Engaged` after an event was so before it, unless the event is its own step. -/
theorem Engaged.of_event {event : Event} (h : event.Happens (Outside ours))
    (hcause : event.cause ≠ .task r) (hr : event.after.Engaged s r) : event.before.Engaged s r := by
  obtain ⟨task, d, htask, -, hsending, -, hengaged⟩ := id hr
  obtain ⟨former, hformer, hactivity, houtcome⟩ | ⟨-, -, hready⟩ := exists_former h hcause htask
  · exact hr.of_former hformer htask hactivity houtcome
  · rw [hready d hsending] at hengaged
    cases hengaged

theorem Engaged.of_step (hs : w.step t = some u) (hne : r ≠ t) (hr : u.Engaged s r) :
    w.Engaged s r := by
  have happens : Event.Happens (Outside fun _ => False) ⟨.task t, w, u⟩ := hs
  exact Engaged.of_event happens (fun heq => hne (Cause.task.inj heq).symm) hr

theorem Engaged.of_concludeSending {p : Sending.Progress} (htask : v.tasks[t]? = some task)
    (ht : (v.concludeSending t p).Engaged s t) : ∃ d, p = .going d ∧ d.stage.isEngaged = true := by
  obtain ⟨task', d, htask', hlive, hsending, -, hengaged⟩ := ht
  cases p with
  | going d' =>
    cases (tasks_become htask).symm.trans htask'
    cases hsending
    exact ⟨d, rfl, hengaged⟩
  | ended ok =>
    cases (tasks_finish htask).symm.trans htask'
    cases hlive

/-- What is no send through session `s` keeps its `Slot`: it `Keeps` the session, or passes the turn
on without being `Engaged`. -/
theorem Slot.others (h : Slot s w x) (hy : u.sessions[s]? = some y)
    (hkeeps : x.Keeps y ∨ (∃ t, x.holder = some t ∧ ¬ w.Engaged s t) ∧ y.held = x.held)
    (hengaged : ∀ r, u.Engaged s r → w.Engaged s r) :
    Slot s u y ∧ (y.held = x.held ∨ y.held = none) := by
  obtain hkeeps | ⟨⟨t, hholder, hfree⟩, hheld⟩ := hkeeps
  · refine ⟨⟨hy, fun r hr => hkeeps.holder.trans (h.engaged r (hengaged r hr)), fun hne => ?_⟩,
      hkeeps.held⟩
    obtain heq | hnone := hkeeps.held
    · rw [heq]
      exact h.empty (hkeeps.holder ▸ hne)
    · exact hnone
  · refine ⟨⟨hy, fun r hr => ?_, fun _ => ?_⟩, .inl hheld⟩
    · -- nobody is engaged, as the task that had the connection to itself is not
      have hr := hengaged r hr
      cases hholder.symm.trans (h.engaged r hr)
      exact absurd hr hfree
    · rw [hheld]
      exact h.empty (hholder ▸ Option.some_ne_none t)

/-- A step of a send keeps the `Slot` of its session. -/
theorem Slot.sending (h : Slot s w x) (htask : w.tasks[t]? = some task)
    (hsending : task.activity = .sending d) (hd : d.session = s) (hs : w.step t = some u) :
    ∃ y, Slot s u y ∧ (y.held = x.held ∨ y.held = none) := by
  obtain ⟨task', htask', hlive, -, hstep⟩ := exists_advances hs
  cases htask.symm.trans htask'
  have hother (r : Nat) (hne : r ≠ t) (hr : u.Engaged s r) : w.Engaged s r := hr.of_step hs hne
  rw [hsending] at hstep
  split at hstep
  · -- a task that is aborted only ends
    obtain rfl : u = w.finish t .aborted := hstep
    refine ⟨x, h.others h.here (.inl .refl) fun r hr => ?_⟩
    by_cases hrt : r = t
    · obtain ⟨task', -, htask', hlive', -⟩ := hr
      cases (tasks_finish htask).symm.trans (hrt ▸ htask')
      cases hlive'
    · exact hother r hrt hr
  · obtain ⟨x', hx', y, p, v, hpassage, hy, htasks, rfl⟩ := passes_of_stepSending hstep
    cases (hd ▸ hx').symm.trans h.here
    have hy : (v.concludeSending t p).sessions[s]? = some y := by
      rw [sessions_concludeSending, ← hd]
      exact hy
    have hself (ht : (v.concludeSending t p).Engaged s t) :
        ∃ d, p = .going d ∧ d.stage.isEngaged = true :=
      ht.of_concludeSending (htasks ▸ htask)
    have hengaged (hwas : d.stage.isEngaged = true) : x.holder = some t :=
      h.engaged t ⟨task, d, htask, hlive, hsending, hd, hwas⟩
    -- while it is somebody's turn, nobody else is engaged
    have hturn (hd : d.Turn t x) (r : Nat) (hne : r ≠ t)
        (hr : (v.concludeSending t p).Engaged s r) : False := by
      have hholder := h.engaged r (hother r hne hr)
      obtain ⟨-, hnone⟩ | ⟨-, hsome⟩ := hd
      · cases hnone.symm.trans hholder
      · cases hsome.symm.trans hholder
        exact hne rfl
    cases hpassage with
    | queues _ keeps _ =>
      refine ⟨y, h.others hy (.inl keeps) fun r hr => ?_⟩
      by_cases hrt : r = t
      · obtain ⟨d', heq, hengaged'⟩ := hself (hrt ▸ hr)
        cases heq
        cases hengaged'
      · exact hother r hrt hr
    | takes turn _ holder held _ =>
      refine ⟨y, ⟨hy, fun r hr => ?_, fun _ => held⟩, .inr held⟩
      by_cases hrt : r = t
      · rw [holder, hrt]
      · exact (hturn turn r hrt hr).elim
    | refuses turn held _ =>
      refine ⟨y, ⟨hy, fun r hr => ?_, fun _ => held⟩, .inr held⟩
      by_cases hrt : r = t
      · obtain ⟨d', heq, -⟩ := hself (hrt ▸ hr)
        cases heq
      · exact (hturn turn r hrt hr).elim
    | goesOn was _ keeps =>
      refine ⟨y, h.others hy (.inl keeps) fun r hr => ?_⟩
      by_cases hrt : r = t
      · exact hrt ▸ ⟨task, d, htask, hlive, hsending, hd, was⟩
      · exact hother r hrt hr
    | leaves was held _ =>
      -- the session held nothing while the send was at it, and nobody else was
      have hholder := hengaged was
      have hnone : x.held = none := h.empty (hholder ▸ Option.some_ne_none t)
      refine ⟨y, ⟨hy, fun r hr => ?_, fun _ => held.elim (fun heq => heq.trans hnone) id⟩, held⟩
      by_cases hrt : r = t
      · obtain ⟨d', heq, -⟩ := hself (hrt ▸ hr)
        cases heq
      · cases hholder.symm.trans (h.engaged r (hother r hrt hr))
        exact absurd rfl hrt

/-- A step of any other task keeps the `Slot` of session `s`. -/
theorem Slot.step (h : Slot s w x) (htask : w.tasks[t]? = some task)
    (hnot : ∀ d, task.activity = .sending d → d.session ≠ s) (hs : w.step t = some u) :
    ∃ y, Slot s u y ∧ (y.held = x.held ∨ y.held = none) := by
  obtain ⟨task', htask', hlive, hadvances, hstep⟩ := exists_advances hs
  cases htask.symm.trans htask'
  have hfree : ¬ w.Engaged s t := by
    rintro ⟨task', d, htask', -, hsending, hd, -⟩
    cases htask.symm.trans htask'
    exact hnot d hsending hd
  have hengaged (r : Nat) (hr : u.Engaged s r) : w.Engaged s r := by
    by_cases hrt : r = t
    · subst hrt
      obtain ⟨task', d, htask', hlive', hsending, hd, -⟩ := hr
      obtain ⟨b, hrole, hown⟩ | ⟨o, hown⟩ := hadvances.own htask
      · -- whoever sends afterwards has been a send all along
        cases hown.symm.trans htask'
        obtain rfl : b = .sending d := hsending
        obtain ⟨d', hsending', hd', -⟩ := Activity.sending_of_role hrole
        exact absurd (hd'.trans hd) (hnot d' hsending')
      · cases hown.symm.trans htask'
        cases hlive'
    · exact hr.of_step hs hrt
  -- who asks for the connection of this session but is no send only looks whether it is there
  by_cases hsession : task.activity.session? = some s
  · cases hactivity : task.activity with
    | inspecting i =>
      rw [hactivity] at hsession hstep
      obtain rfl : i.session = s := Option.some.inj hsession
      split at hstep
      · obtain rfl : u = w.finish t .aborted := hstep
        exact ⟨x, h.others h.here (.inl .refl) hengaged⟩
      · obtain ⟨y, hy, hkeeps | ⟨hholder, hheld⟩⟩ := keeps_stepInspecting hstep h.here
        · exact ⟨y, h.others hy (.inl hkeeps) hengaged⟩
        · exact ⟨y, h.others hy (.inr ⟨⟨t, hholder, hfree⟩, hheld⟩) hengaged⟩
    | sending d =>
      rw [hactivity] at hsession
      exact absurd (Option.some.inj hsession) (hnot d hactivity)
    | _ =>
      rw [hactivity] at hsession
      cases hsession
  · cases hadvances with
    | goes hcourse | ends hcourse =>
      obtain ⟨y, hy, hkeeps⟩ := hcourse.keeps hsession h.here
      exact ⟨y, h.others hy (.inl hkeeps) hengaged⟩

/-- Every event keeps the `Slot` of session `s`, and what is `held` is the same or nothing. -/
theorem Slot.event {event : Event} (h : Slot s event.before x)
    (happens : event.Happens (Outside ours)) :
    ∃ y, Slot s event.after y ∧ (y.held = x.held ∨ y.held = none) := by
  have hengaged (r : Nat) (hcause : event.cause ≠ .task r) (hr : event.after.Engaged s r) :=
    Engaged.of_event happens hcause hr
  obtain ⟨cause, before, after⟩ := event
  cases cause with
  | task t =>
    obtain ⟨task, htask, -⟩ := exists_advances happens
    by_cases hsend : ∃ d, task.activity = .sending d ∧ d.session = s
    · obtain ⟨d, hsending, hd⟩ := hsend
      exact h.sending htask hsending hd happens
    · exact h.step htask (fun d hsending hd => hsend ⟨d, hsending, hd⟩) happens
  | removal n a =>
    obtain rfl : after = before.removeBonded n a := happens
    obtain ⟨y, hy, hkeeps⟩ := (before.course_removeBonded n a).keeps (s := s) nofun h.here
    exact ⟨y, h.others hy (.inl hkeeps) fun r => hengaged r nofun⟩
  | other =>
    have hsame (hsessions : after.sessions = before.sessions) :
        ∃ y, Slot s after y ∧ (y.held = x.held ∨ y.held = none) :=
      ⟨x, h.others (hsessions ▸ h.here) (.inl .refl) fun r => hengaged r nofun⟩
    have happens : Outside ours before after := happens
    cases happens with
    | act _ | spawn _ _ | cancel _ => exact hsame rfl
    | aside _ sessions _ => exact hsame sessions
    | release n =>
      obtain ⟨y, hy, hkeeps⟩ := exists_release n h.here
      exact ⟨y, h.others hy (.inl hkeeps) fun r => hengaged r nofun⟩
    | addSession _ =>
      refine ⟨x, h.others ?_ (.inl .refl) fun r => hengaged r nofun⟩
      have hlt := (Array.getElem?_eq_some_iff.1 h.here).1
      rw [addSession, Array.getElem?_push, if_neg (Nat.ne_of_lt hlt)]
      exact h.here

theorem History.slot {events : List Event} (h : w.History (Outside ours) events v)
    (hw : Slot s w x) :
    ∃ y, Slot s v y ∧ (y.held = x.held ∨ y.held = none) := by
  induction h with
  | start => exact ⟨x, hw, .inl rfl⟩
  | next _ happens ih =>
    obtain ⟨y, hslot, hheld⟩ := ih
    obtain ⟨z, hslot', hheld'⟩ := hslot.event happens
    refine ⟨z, hslot', ?_⟩
    obtain heq | hnone := hheld'
    · rw [heq]
      exact hheld
    · exact .inr hnone

/-- A step of a send that is not `Engaged` is `Air.Idle`: it neither connects nor writes. -/
theorem idle_of_step (hd : w.Sends s t d) (hfree : ¬ w.Engaged s t) (hs : w.step t = some u) :
    w.air.Idle u.air := by
  obtain ⟨hsession, task, htask, hsending⟩ := hd
  obtain ⟨task', htask', hlive, -, hstep⟩ := exists_advances hs
  cases htask.symm.trans htask'
  rw [hsending] at hstep
  split at hstep
  · obtain rfl : u = w.finish t .aborted := hstep
    exact .refl
  · obtain ⟨x, -, y, p, v, hpassage, -, -, rfl⟩ := passes_of_stepSending hstep
    rw [air_concludeSending]
    have hnot (was : d.stage.isEngaged = true) : False :=
      hfree ⟨task, d, htask, hlive, hsending, hsession, was⟩
    cases hpassage with
    | queues _ _ idle | takes _ _ _ _ idle | refuses _ _ idle => exact idle
    | goesOn was | leaves was => exact (hnot was).elim

/-! ### An empty session -/

/-- The step in which a send gets its outcome writes nothing and leaves its session `Bare`. -/
theorem Slot.ended {o : Outcome} (h : Slot s w x) (hd : d.session = s)
    (htask : w.tasks[t]? = some task) (hlive : task.outcome = none)
    (hsending : task.activity = .sending d) (hs : w.stepSending t d = some u)
    (ho : u.outcome? t = some o) : u.Bare s ∧ ∀ e, u.air.outgoing e = w.air.outgoing e := by
  obtain ⟨x', hx', y, p, v, hpassage, hy, htasks, rfl⟩ := passes_of_stepSending hs
  rw [hd] at hx' hy
  cases hx'.symm.trans h.here
  have hgoing (d' : Sending) (hp : p = .going d') : False := by
    rw [outcome?, hp, concludeSending, tasks_become (htasks ▸ htask)] at ho
    exact nomatch hlive.symm.trans ho
  have hbare (hnone : y.held = none) : (v.concludeSending t p).Bare s :=
    ⟨y, by rwa [sessions_concludeSending], hnone⟩
  rw [air_concludeSending]
  cases hpassage with
  | queues | takes | goesOn => exact (hgoing _ rfl).elim
  | refuses _ held idle => exact ⟨hbare held, idle.outgoing⟩
  | leaves was held outgoing =>
    have hholder := h.engaged t ⟨task, d, htask, hlive, hsending, hd, was⟩
    have hnone := h.empty (hholder ▸ Option.some_ne_none t)
    exact ⟨hbare (held.elim (fun heq => heq.trans hnone) id), outgoing⟩

theorem History.bare {events : List Event} (h : w.History (Outside ours) events v)
    (hw : Slot s w x) (hbare : w.Bare s) : v.Bare s := by
  obtain ⟨y, hy, hheld⟩ := h.slot hw
  obtain ⟨x', hx', hnone⟩ := hbare
  cases hw.here.symm.trans hx'
  exact ⟨y, hy.here, hheld.elim (fun heq => heq.trans hnone) id⟩


/-- After `release` the session is `Bare`; while a send is `Engaged` nothing changes at all. -/
theorem Slot.release (h : Slot s w x) :
    (w.release s).Bare s ∧ ∀ t, w.Engaged s t → w.release s = w := by
  unfold World.release
  rw [h.here]
  dsimp only
  split
  · next e hholder hheld =>
    refine ⟨⟨{ x with held := none }, ?_, rfl⟩, fun t ht => ?_⟩
    · rw [sessions_drop, updateSession, Array.getElem?_modify, if_pos rfl, h.here]
      rfl
    · cases hholder.symm.trans (h.engaged t ht)
  · next hnot =>
    refine ⟨⟨x, h.here, ?_⟩, fun _ _ => rfl⟩
    cases hholder : x.holder with
    | some t => exact h.empty (hholder ▸ Option.some_ne_none t)
    | none =>
      cases hheld : x.held with
      | none => rfl
      | some e => exact (hnot e hholder hheld).elim

end World
end RadioLink

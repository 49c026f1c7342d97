import RadioLink.Proofs.World.Attempts
import RadioLink.Proofs.World.Fetches
import RadioLink.Proofs.World.Turns

/-!
# Completing a message from a channel

A message that announces a payload on a channel is an `Errand`: the peer is called once, over that
channel, and from when it has answered on

    pieces.flatten ++ p.content = carried events ⟨link, .callee⟩

where the pieces are what has been received and `p` is the pipe to be read from, until enough has
been received, nothing more can come, or the deadline is there. `Errand.Fetched` says how an errand
ends and `Errand.Underway` how far it has come; each step of its task takes something of the number
of steps that are left, and events that satisfy `World.KeepsFetches` leave it as it is.
-/

namespace RadioLink

open World (KeepsFetches)

/-! ### Tasks that handle a message -/

namespace Handling

/-- The activity of a task that handles a message: `.handling`, or `.accepting` if it has taken the
message in itself. -/
def within (d : Handling) : Option Accepting → Activity
  | none => .handling d
  | some a => .accepting { a with stage := .handling d }

/-- The outcome of a task that has handled its message. -/
def outcome : Option Accepting → Outcome
  | none => .done
  | some _ => .accepted (.ok ())

variable {d : Handling} {inbound : Option Accepting}

theorem draws_within : (d.within inbound).draws = d.stage.draws := by
  cases inbound <;> rfl

/-- Of a `Handling` the deadline of the call or of the fetch is the timer. -/
theorem timer?_within : (d.within inbound).timer? =
    match d.stage with
    | .ready => none
    | .calling call => some call.deadline
    | .fetching f => some f.deadline := by
  obtain ⟨session, message, stage⟩ := d
  cases inbound <;> cases stage <;> rfl

end Handling

/-- The outcome of the task that hands `m` to an application, and what that adds to `delivered`. -/
def Application.given (app : Application) (inbound : Option Accepting) (m : Message) :
    Outcome × List Message :=
  if app.faulty = some .deliver then (.aborted, []) else (Handling.outcome inbound, [m])

namespace World

variable {t n : Nat} {w v : World} {d : Handling} {inbound : Option Accepting}

/-- What `World.step` makes of the `Progress` of a `Handling`. -/
def concludeHandling (w : World) (t : Nat) (inbound : Option Accepting) : Handling.Progress → World
  | .going d => w.become t (d.within inbound)
  | .done => w.finish t (Handling.outcome inbound)
  | .abort => w.finish t .aborted

theorem step_within (htask : w.tasks[t]? = some { activity := d.within inbound })
    (hnode : ∀ a ∈ inbound, (w.nodes[a.node]?).isSome = true) :
    w.step t = (d.step w).map fun q => q.2.concludeHandling t inbound q.1 := by
  simp only [step, htask, Option.isSome_none, Bool.false_eq_true, if_false]
  cases inbound with
  | none =>
    simp only [Handling.within, Activity.step, stepHandling]
    rcases d.step w with _ | ⟨_ | _ | _, v⟩ <;> rfl
  | some a =>
    obtain ⟨node, hnode⟩ := Option.isSome_iff_exists.1 (hnode a rfl)
    simp only [Handling.within, Activity.step, stepAccepting, Accepting.step, hnode]
    rcases d.step w with _ | ⟨_ | _ | _, v⟩ <;> rfl

/-- What `deliver` gains is what `Application.given` says. -/
theorem conclude_deliver {node : Node} {task : Task} (hnode : w.nodes[n]? = some node)
    (htask : w.tasks[t]? = some task) (aside : w.Aside v) (m : Message)
    (inbound : Option Accepting) :
    ∃ o ds w', (Handling.deliver m n node v).2.concludeHandling t inbound
        (Handling.deliver m n node v).1 = w' ∧ node.app.given inbound m = (o, ds) ∧
      w'.tasks[t]? = some { task with outcome := some o } ∧
      Event.gain n ⟨.task t, w, w'⟩ = ⟨{}, ds, []⟩ ∧ w'.air = v.air := by
  have hkept : v.tasks[t]? = some task := aside.tasks ▸ htask
  have hv : v.nodes[n]? = some node := aside.nodes ▸ hnode
  unfold Handling.deliver Application.given
  by_cases hfaulty : node.app.faulty = some .deliver
  · rw [if_pos hfaulty, if_pos hfaulty]
    refine ⟨_, _, _, rfl, rfl, tasks_finish hkept, ?_, rfl⟩
    exact Event.gain_of_gains hnode hv node.gains_refl
  · rw [if_neg hfaulty, if_neg hfaulty]
    refine ⟨_, _, _, rfl, rfl, tasks_finish hkept, ?_, rfl⟩
    refine Event.gain_of_gains hnode ?_ (node.gains_deliver m)
    show (v.updateApp n fun app => { app with delivered := app.delivered ++ [m] }).nodes[n]? = _
    rw [nodes_updateApp, if_pos rfl, hv]
    rfl

end World

/-! ### Errands -/

/-- A message that is to be completed, the `node` that handles it, and the `target` and the
`channel` that the rest is to be had from. -/
structure Errand where
  message : Message
  node : Node
  target : Address
  channel : UInt8

namespace Errand

/-- The channel of the errand, as an endpoint. -/
def endpoint (r : Errand) : Endpoint := .channel r.channel.toNat

/-- What an errand comes to in the records of the radio at `a`: one attempt with the radio of its
node, none with any other. -/
def attempts (r : Errand) (a : Address) : List (Address × Endpoint) :=
  if r.node.address = a then [(r.target, r.endpoint)] else []

/-- At the moment `asked` task `t` found that `Air.connect` returns `link`. -/
def Called (r : Errand) (t : Nat) (events : List Event) (link asked : Nat) : Prop :=
  Noted t events fun _ w =>
    (w.air.connect r.node.address r.target r.endpoint).1 = .ok link ∧ w.now = asked

/-- At the moment `since`, within `connectTimeout` of the call, task `t` was answered, and began to
fetch `size` bytes, declared or not as `sized` says. -/
def Begun (r : Errand) (t : Nat) (events : List Event) (link since size : Nat) (sized : Bool) :
    Prop :=
  Handling.Wants r.message r.node.config.service.maxFrameSize size sized ∧
  ∃ asked, r.Called t events link asked ∧ Noted t events fun _ w =>
    w.air.answer? link = some (.ok ⟨link, .caller⟩) ∧ w.now = since ∧
      since ≤ asked + r.node.config.session.connectTimeout

/-- What task `t` has got for the payload: `some` of it, if as many bytes as it `Wants` have come by
the deadline, or all there were if none is declared. The other constructors give `none`: nobody was
reached or answered in time, the declared size is too large, or fewer bytes have come before the
deadline, an error, or the end. -/
inductive Fetched (r : Errand) (t : Nat) (events : List Event) : Option Bytes → Prop where
  | unreachable {fault : LinkError} (found : Noted t events fun _ w =>
      (w.air.connect r.node.address r.target r.endpoint).1 = .error fault) : Fetched r t events none
  | declined {link asked : Nat} {e : LinkError} (called : r.Called t events link asked)
      (found : Noted t events fun _ w => w.air.answer? link = some (.error e)) :
      Fetched r t events none
  | unanswered {link asked : Nat} (called : r.Called t events link asked)
      (found : Noted t events fun _ w => w.air.answer? link = none ∧
        asked + r.node.config.session.connectTimeout ≤ w.now) : Fetched r t events none
  | tooLarge {link asked : Nat} {size : UInt64} (called : r.Called t events link asked)
      (declared : r.message.payloadSize = some size)
      (large : r.node.config.service.maxFrameSize < size.toNat) : Fetched r t events none
  | tooSlow {link since size : Nat} {sized : Bool} (begun : r.Begun t events link since size sized)
      (found : Noted t events fun past w => (carried past ⟨link, .callee⟩).length < size ∧
        since + r.node.config.session.payloadTimeout ≤ w.now) : Fetched r t events none
  | disrupted {link since size : Nat} {sized : Bool} {fault : StreamFault}
      (begun : r.Begun t events link since size sized)
      (found : Noted t events fun past w => (carried past ⟨link, .callee⟩).length < size ∧
        w.air.fault? ⟨link, .callee⟩ = some fault) : Fetched r t events none
  | cutOff {link since size : Nat} (begun : r.Begun t events link since size true)
      (found : Noted t events fun past w => (carried past ⟨link, .callee⟩).length < size ∧
        w.air.isClosed ⟨link, .callee⟩ = true) : Fetched r t events none
  | full {link since size : Nat} {sized : Bool} {payload : Bytes}
      (begun : r.Begun t events link since size sized)
      (found : Noted t events fun past w => size ≤ (carried past ⟨link, .callee⟩).length ∧
        payload = (carried past ⟨link, .callee⟩).take size ∧
        w.now ≤ since + r.node.config.session.payloadTimeout) : Fetched r t events (some payload)
  | ended {link since size : Nat} {payload : Bytes} (begun : r.Begun t events link since size false)
      (found : Noted t events fun past w => (carried past ⟨link, .callee⟩).length < size ∧
        payload = carried past ⟨link, .callee⟩ ∧ w.air.isClosed ⟨link, .callee⟩ = true ∧
        w.now ≤ since + r.node.config.session.payloadTimeout) : Fetched r t events (some payload)

/-- How far an errand has come in this stage, and a bound on the steps that are left. -/
inductive Underway (r : Errand) (t : Nat) (events : List Event) (w : World) :
    Handling.Stage → Nat → Prop where
  | calling {call : Call} {asked : Nat} {p : Pipe} (called : r.Called t events call.link asked)
      (due : call.deadline.due = asked + r.node.config.session.connectTimeout)
      (time : w.now ≤ call.deadline.due) (pipe : w.air.pipe? ⟨call.link, .callee⟩ = some p)
      (carried : carried events ⟨call.link, .callee⟩ = p.content) :
      Underway r t events w (.calling call) (r.node.config.service.maxFrameSize + 2)
  | fetching {link since size received : Nat} {sized : Bool} {pieces : List Bytes}
      {deadline : Timer} {p : Pipe} (begun : r.Begun t events link since size sized)
      (due : deadline.due = since + r.node.config.session.payloadTimeout)
      (time : w.now ≤ deadline.due) (pipe : w.air.pipe? ⟨link, .callee⟩ = some p)
      (carried : carried events ⟨link, .callee⟩ = pieces.reverse.flatten ++ p.content)
      (count : received = pieces.reverse.flatten.length) (most : received ≤ size) :
      Underway r t events w
        (.fetching ⟨⟨link, .caller⟩, size, sized, pieces, received, deadline⟩)
        (size - received + 1)

variable {r : Errand} {t : Nat} {events : List Event} {w w' : World} {stage : Handling.Stage}
  {left : Nat} {x : Event}

theorem Called.concat {link asked : Nat} (h : r.Called t events link asked) (x : Event) :
    r.Called t (events ++ [x]) link asked := Noted.concat h x

theorem Begun.concat {link since size : Nat} {sized : Bool}
    (h : r.Begun t events link since size sized) (x : Event) :
    r.Begun t (events ++ [x]) link since size sized := by
  obtain ⟨hwants, asked, hcalled, hanswered⟩ := h
  exact ⟨hwants, asked, hcalled.concat x, hanswered.concat x⟩

theorem Begun.size_le {link since size : Nat} {sized : Bool}
    (h : r.Begun t events link since size sized) : size ≤ r.node.config.service.maxFrameSize := by
  obtain ⟨hwants, -⟩ := h
  unfold Handling.Wants at hwants
  split at hwants
  · obtain ⟨hle, rfl, -⟩ := hwants
    exact hle
  · obtain ⟨rfl, -⟩ := hwants
    exact Nat.le_refl _

end Errand

/-- An event that reads nothing leaves `taken` as it was: `carried` grows as the pipe does. -/
theorem carried_of_front {events : List Event} {x : Event} {e : LinkEnd} {p p' : Pipe}
    (taken : Bytes) (hp : x.before.air.pipe? e = some p) (hp' : x.after.air.pipe? e = some p')
    (hfront : p.content <+: p'.content) (h : carried events e = taken ++ p.content) :
    carried (events ++ [x]) e = taken ++ p'.content := by
  obtain ⟨new, hnew⟩ := hfront
  rw [carried_concat, h, Event.writes, Air.outgoing_of_pipe? hp, Air.outgoing_of_pipe? hp',
    ← hnew, List.drop_left, List.append_assoc]

/-- What an event reads goes over from the pipe to `taken`. -/
theorem carried_of_read {events : List Event} {x : Event} {e : LinkEnd} {p p' : Pipe}
    {taken bytes : Bytes} (hp : x.before.air.pipe? e = some p) (hp' : x.after.air.pipe? e = some p')
    (hread : p.content = bytes ++ p'.content) (h : carried events e = taken ++ p.content) :
    carried (events ++ [x]) e = (taken ++ bytes) ++ p'.content := by
  have hwrites : x.writes e = [] := by
    rw [Event.writes, Air.outgoing_of_pipe? hp, Air.outgoing_of_pipe? hp', hread]
    exact List.drop_eq_nil_of_le (by simp)
  rw [carried_of_mute hwrites, h, hread, List.append_assoc]

namespace Errand.Underway

variable {r : Errand} {t : Nat} {events : List Event} {w w' : World} {stage : Handling.Stage}
  {left : Nat} {x : Event} {d : Handling} {inbound : Option Accepting}

/-- An event that satisfies `KeepsFetches` leaves an errand `Underway`. -/
theorem keep (h : r.Underway t events x.before d.stage left)
    (htask : x.before.tasks[t]? = some { activity := d.within inbound })
    (hkeeps : KeepsFetches t x.before x.after) :
    r.Underway t (events ++ [x]) x.after d.stage left := by
  have hfetches {link : Nat} (hmem : ⟨link, .caller⟩ ∈ d.stage.draws) :
      x.before.Fetches t link := ⟨_, htask, rfl, Handling.draws_within ▸ hmem⟩
  have htimer : x.before.timer? t = (d.within inbound).timer? := by
    rw [World.timer?, htask]
    rfl
  rw [Handling.timer?_within] at htimer
  generalize d.stage = stage at h hfetches htimer
  cases h with
  | calling called due time pipe carried =>
    obtain ⟨p', hp', hfront⟩ := hkeeps.pipe (hfetches List.mem_cons_self) pipe
    exact .calling (called.concat x) due (hkeeps.time _ htimer time) hp'
      (carried_of_front [] pipe hp' hfront carried)
  | fetching begun due time pipe carried count most =>
    obtain ⟨p', hp', hfront⟩ := hkeeps.pipe (hfetches List.mem_cons_self) pipe
    exact .fetching (begun.concat x) due (hkeeps.time _ htimer time) hp'
      (carried_of_front _ pipe hp' hfront carried) count most

end Errand.Underway

/-! ### Parcels -/

/-- A message that a session is to handle, with all that decides what becomes of it: the `host`
session and the `settings` of its node. -/
structure Parcel where
  session : Nat
  message : Message
  inbound : Option Accepting
  host : Session
  settings : Node

namespace Parcel

/-- What `Handling.opened` makes of the message. -/
def opened (p : Parcel) : Except LinkError Message :=
  Handling.opened p.settings.app.decrypt p.message

/-- The errand of a message `m` that announces a payload with this `transfer`. -/
def errand (p : Parcel) (m : Message) (transfer : Transfer) : Errand :=
  ⟨m, p.settings, p.host.peer.address, transfer.channel⟩

/-- The task of the parcel with the message `m`, in this stage. -/
def task (p : Parcel) (m : Message) (stage : Handling.Stage) : Task where
  activity := (⟨p.session, m, stage⟩ : Handling).within p.inbound

/-- The session and the settings of its node are there as the parcel has them. -/
structure Hosted (p : Parcel) (w : World) : Prop where
  settings : w.settings? p.host.node = some p.settings
  session : w.lasting? p.session = some p.host
  attached : p.host.detached = false
  site : ∀ a ∈ p.inbound, a.node = p.host.node

/-- What becomes of the parcel: the outcome of its task, and what the node gains. -/
inductive Fate (p : Parcel) (t : Nat) (events : List Event) : Outcome → Gain → Prop where
  | undecipherable {e : LinkError} (opened : p.opened = .error e)
      (quiet : ∀ a, attempted t a events = []) :
      Fate p t events (Handling.outcome p.inbound) (.counted [.decryptionFailure])
  | plain {m : Message} {o : Outcome} {ds : List Message} (opened : p.opened = .ok m)
      (complete : m.needsTransfer = false) (quiet : ∀ a, attempted t a events = [])
      (given : p.settings.app.given p.inbound m = (o, ds)) : Fate p t events o ⟨{}, ds, []⟩
  | fetched {m : Message} {transfer : Transfer} {payload : Option Bytes} {o : Outcome}
      {ds : List Message} (opened : p.opened = .ok m) (bare : m.payload = none)
      (announced : m.transfer = some transfer)
      (once : ∀ a, attempted t a events = (p.errand m transfer).attempts a)
      (fetched : (p.errand m transfer).Fetched t events payload)
      (given : p.settings.app.given p.inbound (payload.elim m m.setPayload) = (o, ds)) :
      Fate p t events o ⟨{}, ds, []⟩

/-- How far a task has come with the parcel, what its node has gained from it, and a bound on the
steps that are left. -/
inductive Progress (p : Parcel) (t : Nat) (events : List Event) (w : World) :
    Task → Gain → Nat → Prop where
  | ready (quiet : ∀ a, attempted t a events = []) :
      Progress p t events w (p.task p.message .ready) {}
        (p.settings.config.service.maxFrameSize + 3)
  | underway {m : Message} {transfer : Transfer} {stage : Handling.Stage} {left : Nat}
      (opened : p.opened = .ok m) (bare : m.payload = none) (announced : m.transfer = some transfer)
      (once : ∀ a, attempted t a events = (p.errand m transfer).attempts a)
      (underway : (p.errand m transfer).Underway t events w stage left) :
      Progress p t events w (p.task m stage) {} left
  | settled {task : Task} {o : Outcome} {gain : Gain} (fate : p.Fate t events o gain)
      (outcome : task.outcome = some o) : Progress p t events w task gain 0

/-- The step of task `t` from `w` to `w'` leads to another `Progress` with fewer steps `left`, and
with what it gains added. -/
def Advances (p : Parcel) (t : Nat) (events : List Event) (w w' : World) (gain : Gain)
    (left : Nat) : Prop :=
  ∃ task' left', w'.tasks[t]? = some task' ∧ left' < left ∧
    p.Progress t (events ++ [⟨.task t, w, w'⟩]) w' task'
      (gain + Event.gain p.host.node ⟨.task t, w, w'⟩) left'

variable {p : Parcel} {t : Nat} {events : List Event} {w v w' : World} {node : Node} {task : Task}
  {m : Message} {transfer : Transfer} {left : Nat}

/-- A step with `.going` `Advances`, if its errand is `Underway` afterwards. -/
theorem advances_going {stage stage' : Handling.Stage} {m' : Message} {left' : Nat}
    (htask : w.tasks[t]? = some (p.task m' stage)) (aside : w.Aside v) (hlt : left' < left)
    (hopened : p.opened = .ok m) (hbare : m.payload = none)
    (hannounced : m.transfer = some transfer)
    (hw' : v.concludeHandling t p.inbound (.going ⟨p.session, m, stage'⟩) = w')
    (once : ∀ a, attempted t a (events ++ [⟨.task t, w, w'⟩]) = (p.errand m transfer).attempts a)
    (h : (p.errand m transfer).Underway t (events ++ [⟨.task t, w, w'⟩]) w' stage' left') :
    p.Advances t events w w' {} left := by
  subst hw'
  refine ⟨_, left', World.tasks_become (aside.tasks ▸ htask), hlt, ?_⟩
  rw [Event.gain_of_nodes_eq (congrArg (·[p.host.node]?) aside.nodes)]
  exact .underway hopened hbare hannounced once h

/-- A step with `deliver` `Advances` to the `Fate` of the parcel. -/
theorem advances_deliver (hnode : w.nodes[p.host.node]? = some node)
    (hsettings : node.settings = p.settings) (htask : w.tasks[t]? = some task) (aside : w.Aside v)
    (hlt : 0 < left)
    (hw' : (Handling.deliver m p.host.node node v).2.concludeHandling t p.inbound
      (Handling.deliver m p.host.node node v).1 = w')
    (hfate : ∀ o ds, w'.air = v.air → p.settings.app.given p.inbound m = (o, ds) →
      p.Fate t (events ++ [⟨.task t, w, w'⟩]) o ⟨{}, ds, []⟩) :
    p.Advances t events w w' {} left := by
  obtain ⟨o, ds, w'', rfl, hgiven, htask', hgain, hair⟩ :=
    World.conclude_deliver hnode htask aside m p.inbound
  subst hw'
  refine ⟨_, 0, htask', hlt, ?_⟩
  rw [hgain, Gain.empty_add]
  exact .settled (hfate o ds hair (hsettings ▸ hgiven)) rfl

/-- A step with `deliver` after the errand has `Fetched` what it could, and without any attempt,
`Advances`. -/
theorem advances_fetched (acts : List Air.Act) (payload : Option Bytes)
    (hnode : w.nodes[p.host.node]? = some node) (hsettings : node.settings = p.settings)
    (htask : w.tasks[t]? = some task) (aside : w.Aside v) (hlt : 0 < left)
    (hopened : p.opened = .ok m) (hbare : m.payload = none)
    (hannounced : m.transfer = some transfer)
    (once : ∀ a, attempted t a events = (p.errand m transfer).attempts a)
    (hair : v.air = acts.foldl Air.perform w.air) (hacts : ∀ a, acts.flatMap (·.attempts a) = [])
    (hw' : (Handling.deliver (payload.elim m m.setPayload) p.host.node node v).2.concludeHandling t
      p.inbound (Handling.deliver (payload.elim m m.setPayload) p.host.node node v).1 = w')
    (hfetched : (p.errand m transfer).Fetched t (events ++ [⟨.task t, w, w'⟩]) payload) :
    p.Advances t events w w' {} left :=
  advances_deliver hnode hsettings htask aside hlt hw' fun _ _ hsame hgiven =>
    .fetched hopened hbare hannounced
      (fun a => (attempted_of_quiet (hsame.trans hair) hacts a).trans (once a)) hfetched hgiven

theorem Hosted.exists_host (h : p.Hosted w) : ∃ x node,
    p = ⟨p.session, p.message, p.inbound, x.lasting, node.settings⟩ ∧
      w.sessions[p.session]? = some x ∧ x.detached = false ∧ w.nodes[x.node]? = some node ∧
      ∀ a ∈ p.inbound, (w.nodes[a.node]?).isSome = true := by
  obtain ⟨session, message, inbound, host, settings⟩ := p
  obtain ⟨hsettings, hsession, hattached, hsite⟩ := h
  obtain ⟨x, hx, hlasting⟩ := Option.map_eq_some_iff.1 hsession
  obtain ⟨node, hnode, hkept⟩ := Option.map_eq_some_iff.1 hsettings
  dsimp only at hx hlasting hnode hkept hsite
  subst hlasting hkept
  refine ⟨x, node, rfl, hx, hattached, hnode, fun a ha => ?_⟩
  rw [hsite a ha, hnode]
  rfl

/-- A step of the task is a `Handling.Turn`, with the session and the node that host the parcel. -/
theorem exists_turn {stage : Handling.Stage} (hosted : p.Hosted w)
    (htask : w.tasks[t]? = some (p.task m stage)) (hstep : w.step t = some w') :
    ∃ x node q, p = ⟨p.session, p.message, p.inbound, x.lasting, node.settings⟩ ∧
      x.detached = false ∧ w.nodes[x.node]? = some node ∧
      Handling.Turn ⟨p.session, m, stage⟩ x node w q ∧
      q.2.concludeHandling t p.inbound q.1 = w' := by
  obtain ⟨x, node, hp, hx, hattached, hnode, hnodes⟩ := hosted.exists_host
  rw [World.step_within htask hnodes] at hstep
  obtain ⟨q, hq, hw'⟩ := Option.map_eq_some_iff.1 hstep
  obtain ⟨x', node', hx', hnode', hturn⟩ := Handling.turn_of_step hq
  cases hx.symm.trans hx'
  cases hnode.symm.trans hnode'
  exact ⟨x, node, q, hp, hattached, hnode, hturn, hw'⟩

/-- From `.ready` the step opens the message, and delivers it or calls. -/
theorem advances_ready (hosted : p.Hosted w) (quiet : ∀ a, attempted t a events = [])
    (hfresh : ∀ e : LinkEnd, w.air.links.size ≤ e.link → carried events e = [])
    (htask : w.tasks[t]? = some (p.task p.message .ready)) (hstep : w.step t = some w') :
    p.Advances t events w w' {} (p.settings.config.service.maxFrameSize + 3) := by
  obtain ⟨x, node, q, hp, hattached, hnode, hturn, hw'⟩ := exists_turn hosted htask hstep
  generalize p.session = session, p.message = message, p.inbound = inbound at hp hturn hw'
  subst hp
  have hquiet (hair : w'.air = w.air) (a : Address) :
      attempted t a (events ++ [⟨.task t, w, w'⟩]) = [] := by
    have hsame : w'.air = [].foldl Air.perform w.air := hair
    rw [attempted_of_quiet hsame fun _ => rfl, quiet]
  have honce {m : Message} {transfer : Transfer} (hair : w'.air
      = [.cancelDiscovery node.address, .connect node.address x.peer.address
        (.channel transfer.channel.toNat)].foldl Air.perform w.air) (a : Address) :
      attempted t a (events ++ [⟨.task t, w, w'⟩])
        = (errand ⟨session, message, inbound, x.lasting, node.settings⟩ m
          transfer).attempts a := by
    rw [attempted_step hair, quiet]
    exact List.append_nil _
  cases hturn with
  | detached _ gone => cases hattached.symm.trans gone
  | undecipherable _ _ opened =>
    subst hw'
    refine ⟨_, 0, World.tasks_finish htask, Nat.succ_pos _, ?_⟩
    have hgain : Event.gain x.node ⟨.task t, w, (w.count x.node .decryptionFailure).finish t
        (Handling.outcome inbound)⟩ = .counted [.decryptionFailure] := by
      refine Event.gain_of_gains hnode ?_ (node.gains_count _)
      show (w.count x.node .decryptionFailure).nodes[x.node]? = _
      rw [World.nodes_count, if_pos rfl, hnode]
      rfl
    refine .settled (o := Handling.outcome inbound) ?_ rfl
    rw [Gain.empty_add]
    exact Eq.mpr (congrArg _ hgain) (.undecipherable opened (hquiet rfl))
  | plain _ _ opened complete =>
    exact advances_deliver hnode rfl htask .refl (Nat.succ_pos _) hw' fun o ds hair given =>
      .plain opened complete (hquiet hair) given
  | @unreachable m transfer fault v _ _ opened bare announced connect aside air =>
    refine advances_deliver hnode rfl htask aside (Nat.succ_pos _) hw' fun o ds hair given => ?_
    exact .fetched opened bare announced (honce (hair.trans air))
      (.unreachable (Noted.last rfl connect)) given
  | @calls m transfer call v _ _ opened bare announced connect due aside air =>
    have hair : w'.air = v.air := hw' ▸ rfl
    have hnow : w'.now = w.now := (congrArg World.now hw').symm.trans aside.now
    have hpipe : w'.air.pipe? ⟨call.link, .callee⟩ = some {} := by
      rw [hair, air]
      exact Air.pipe?_connect ((w.air.fst_connect_cancelDiscovery ..).trans connect) .callee
    -- a link that is new has not been written to, neither before the step nor in it
    have hnothing : carried (events ++ [⟨.task t, w, w'⟩]) ⟨call.link, .callee⟩ = [] := by
      rw [carried_of_mute, hfresh _ (Nat.le_of_eq (Air.eq_size_of_connect connect).symm)]
      rw [Event.writes, Air.outgoing_of_pipe? hpipe]
      exact List.drop_nil
    refine advances_going htask aside (Nat.lt_succ_self _) opened bare announced hw'
      (honce (hair.trans air)) ?_
    exact .calling (Noted.last rfl ⟨connect, rfl⟩) due
      (by rw [hnow, due]; exact Nat.le_add_right ..) hpipe hnothing
  -- the stage of every other turn is not `.ready`
  | declined stage | unanswered stage | tooLarge stage | begins stage | full stage | takes stage
  | cutOff stage | ended stage | disrupted stage | aborted stage | tooSlow stage => cases stage

/-- From `.calling` the step delivers the message as it is, or begins to fetch. -/
theorem advances_calling {call : Call} {asked : Nat} {pipe : Pipe} (hosted : p.Hosted w)
    (opened : p.opened = .ok m) (bare : m.payload = none) (announced : m.transfer = some transfer)
    (once : ∀ a, attempted t a events = (p.errand m transfer).attempts a)
    (called : (p.errand m transfer).Called t events call.link asked)
    (due : call.deadline.due = asked + p.settings.config.session.connectTimeout)
    (time : w.now ≤ call.deadline.due) (hpipe : w.air.pipe? ⟨call.link, .callee⟩ = some pipe)
    (hcarried : carried events ⟨call.link, .callee⟩ = pipe.content)
    (htask : w.tasks[t]? = some (p.task m (.calling call))) (hstep : w.step t = some w') :
    p.Advances t events w w' {} (p.settings.config.service.maxFrameSize + 2) := by
  obtain ⟨x, node, q, hp, hattached, hnode, hturn, hw'⟩ := exists_turn hosted htask hstep
  generalize p.session = session, p.message = message, p.inbound = inbound at hp hturn hw'
  subst hp
  have hcalled := called.concat ⟨.task t, w, w'⟩
  cases hturn with
  | declined stage answer =>
    cases stage
    exact advances_fetched [] none hnode rfl htask .refl (Nat.succ_pos _) opened bare announced once
      rfl (fun _ => rfl) hw' (.declined hcalled (Noted.last rfl answer))
  | unanswered stage answer late aside air =>
    cases stage
    exact advances_fetched [.abandon call.link] none hnode rfl htask aside (Nat.succ_pos _) opened
      bare announced once air (fun _ => rfl) hw'
      (.unanswered hcalled (Noted.last rfl ⟨answer, due ▸ late⟩))
  | @tooLarge _ size stage answer declared large =>
    cases stage
    exact advances_fetched [.drop ⟨call.link, .caller⟩] none hnode rfl htask
      (World.Aside.refl.drop _) (Nat.succ_pos _) opened bare announced once rfl (fun _ => rfl) hw'
      (.tooLarge hcalled declared large)
  | @begins _ size sized deadline v stage answer wants since aside air =>
    cases stage
    have hair : w'.air = w.air := (congrArg World.air hw').symm.trans air
    have hnow : w'.now = w.now := (congrArg World.now hw').symm.trans aside.now
    have hbegun :
        Errand.Begun (errand ⟨session, message, inbound, x.lasting, node.settings⟩ m transfer) t
          (events ++ [⟨.task t, w, w'⟩]) call.link w.now size sized :=
      ⟨wants, asked, hcalled, Noted.last rfl ⟨answer, rfl, due ▸ time⟩⟩
    -- the step writes nothing, so what the peer has written is all in the pipe still
    have hnothing : carried (events ++ [⟨.task t, w, w'⟩]) ⟨call.link, .callee⟩ = pipe.content := by
      rw [carried_of_mute, hcarried]
      rw [Event.writes, hair]
      exact List.drop_length
    have hsame : w'.air = [].foldl Air.perform w.air := hair
    refine advances_going htask aside ?_ opened bare announced hw'
      (fun a => (attempted_of_quiet hsame (fun _ => rfl) a).trans (once a))
      (.fetching hbegun since (by rw [hnow, since]; exact Nat.le_add_right ..)
        (hair ▸ hpipe) hnothing rfl (Nat.zero_le _))
    have hle := hbegun.size_le
    exact Nat.succ_lt_succ (Nat.lt_succ_of_le hle)
  | detached stage | undecipherable stage | plain stage | unreachable stage | calls stage
  | full stage | takes stage | cutOff stage | ended stage | disrupted stage | aborted stage
  | tooSlow stage => cases stage

/-- From `.fetching` the step reads on, or delivers the message with what the errand has `Fetched`.
-/
theorem advances_fetching {link since size received : Nat} {sized : Bool} {pieces : List Bytes}
    {deadline : Timer} {pipe : Pipe} (hosted : p.Hosted w) (opened : p.opened = .ok m)
    (bare : m.payload = none) (announced : m.transfer = some transfer)
    (once : ∀ a, attempted t a events = (p.errand m transfer).attempts a)
    (begun : (p.errand m transfer).Begun t events link since size sized)
    (due : deadline.due = since + p.settings.config.session.payloadTimeout)
    (time : w.now ≤ deadline.due) (hpipe : w.air.pipe? ⟨link, .callee⟩ = some pipe)
    (hcarried : carried events ⟨link, .callee⟩ = pieces.reverse.flatten ++ pipe.content)
    (count : received = pieces.reverse.flatten.length) (most : received ≤ size)
    (htask : w.tasks[t]? = some (p.task m
      (.fetching ⟨⟨link, .caller⟩, size, sized, pieces, received, deadline⟩)))
    (hstep : w.step t = some w') : p.Advances t events w w' {} (size - received + 1) := by
  obtain ⟨x, node, q, hp, hattached, hnode, hturn, hw'⟩ := exists_turn hosted htask hstep
  generalize p.session = session, p.message = message, p.inbound = inbound at hp hturn hw'
  subst hp
  obtain ⟨hread, hleft⟩ := Air.read_of_pipe? hpipe (size - received)
  have hbegun := begun.concat ⟨.task t, w, w'⟩
  -- A read into no room would be done at once; while something is still missing there is room.
  have hroom (hlacks : received ≠ size) : size - received ≠ 0 :=
    Nat.sub_ne_zero_of_lt (Nat.lt_of_le_of_ne most hlacks)
  -- where there is nothing left to be read, all that has come has been taken
  have hshort (hempty : pipe.content = []) (hlacks : received ≠ size) :
      carried events ⟨link, .callee⟩ = pieces.reverse.flatten ∧
        (carried events ⟨link, .callee⟩).length < size := by
    rw [hcarried, hempty, List.append_nil]
    exact ⟨rfl, by omega⟩
  have hdelivered (acts : List Air.Act) (payload : Option Bytes) {v : World} (aside : w.Aside v)
      (air : v.air = acts.foldl Air.perform w.air) (hacts : ∀ a, acts.flatMap (·.attempts a) = [])
      (hw' : (Handling.deliver (payload.elim m m.setPayload) x.node node v).2.concludeHandling t
        inbound (Handling.deliver (payload.elim m m.setPayload) x.node node v).1 = w')
      (fetched : (errand ⟨session, message, inbound, x.lasting, node.settings⟩ m
        transfer).Fetched t (events ++ [⟨.task t, w, w'⟩]) payload) :
      Advances ⟨session, message, inbound, x.lasting, node.settings⟩ t events w w' {}
        (size - received + 1) :=
    advances_fetched acts payload hnode rfl htask aside (Nat.succ_pos _) opened bare announced once
      air hacts hw' fetched
  cases hturn with
  | full stage full =>
    cases stage
    have full : received = size := full
    refine hdelivered [.drop ⟨link, .caller⟩] (some pieces.reverse.flatten)
      (World.Aside.refl.drop _) rfl (fun _ => rfl) hw' (.full hbegun (Noted.last rfl ⟨?_, ?_, ?_⟩))
    · rw [hcarried, List.length_append]
      omega
    · rw [hcarried, List.take_left' (count.symm.trans full)]
    · exact due ▸ time
  | @takes _ bytes v stage lacks read aside air =>
    cases stage
    have lacks : received ≠ size := lacks
    obtain ⟨hcontent, hsome, hmost⟩ := Pipe.of_read_data (hroom lacks) (hread.symm.trans read)
    have hair : w'.air = [.read ⟨link, .caller⟩ (size - received)].foldl Air.perform w.air :=
      (congrArg World.air hw').symm.trans air
    have hnow : w'.now = w.now := (congrArg World.now hw').symm.trans aside.now
    have hpos : 0 < bytes.length := List.length_pos_of_ne_nil hsome
    have hflatten : (bytes :: pieces).reverse.flatten = pieces.reverse.flatten ++ bytes := by
      simp
    have hpipe' : w'.air.pipe? ⟨link, .callee⟩ = some (pipe.read (size - received)).2 :=
      hair ▸ hleft
    have hless : size - (received + bytes.length) + 1 < size - received + 1 := by omega
    refine advances_going htask aside hless opened bare announced hw'
      (fun a => (attempted_of_quiet hair (fun _ => rfl) a).trans (once a))
      (.fetching hbegun due (hnow ▸ time) hpipe' ?_ ?_ ?_)
    · rw [hflatten]
      exact carried_of_read (x := ⟨.task t, w, w'⟩) hpipe hpipe' hcontent hcarried
    · rw [hflatten, List.length_append, count]
    · show received + bytes.length ≤ size
      omega
  | cutOff stage lacks hsized read aside air =>
    cases stage
    obtain ⟨hempty, hclosed⟩ := Pipe.of_read_ended (hroom lacks) (hread.symm.trans read)
    obtain rfl : sized = true := hsized
    exact hdelivered _ none aside air (fun _ => rfl) hw'
      (.cutOff hbegun
        (Noted.last rfl ⟨(hshort hempty lacks).2, Air.isClosed_iff.2 ⟨_, hpipe, hclosed⟩⟩))
  | ended stage lacks unsized read aside air =>
    cases stage
    obtain ⟨hempty, hclosed⟩ := Pipe.of_read_ended (hroom lacks) (hread.symm.trans read)
    obtain ⟨hall, hlt⟩ := hshort hempty lacks
    obtain rfl : sized = false := unsized
    exact hdelivered _ (some pieces.reverse.flatten) aside air (fun _ => rfl) hw'
      (.ended hbegun
        (Noted.last rfl ⟨hlt, hall.symm, Air.isClosed_iff.2 ⟨_, hpipe, hclosed⟩, due ▸ time⟩))
  | disrupted stage lacks read aside air =>
    cases stage
    obtain ⟨hempty, hfault⟩ := Pipe.of_read_fault (hroom lacks) (hread.symm.trans read)
    exact hdelivered _ none aside air (fun _ => rfl) hw'
      (.disrupted hbegun
        (Noted.last rfl ⟨(hshort hempty lacks).2, Air.fault?_of_pipe? hpipe hfault⟩))
  | aborted stage lacks read =>
    cases stage
    exact absurd (hread.symm.trans read) (pipe.read_ne_abort (hroom lacks))
  | tooSlow stage lacks read late =>
    cases stage
    have hempty := Pipe.of_read_pending (hroom lacks) (hread.symm.trans read)
    exact hdelivered [.drop ⟨link, .caller⟩] none (World.Aside.refl.drop _)
      rfl (fun _ => rfl) hw'
      (.tooSlow hbegun (Noted.last rfl ⟨(hshort hempty lacks).2, due ▸ late⟩))
  | detached stage | undecipherable stage | plain stage | unreachable stage | calls stage
  | declined stage | unanswered stage | tooLarge stage | begins stage => cases stage

/-- Every step of the task `Advances`. -/
theorem Progress.step {gain : Gain} (h : p.Progress t events w task gain left) (hosted : p.Hosted w)
    (hfresh : ∀ e : LinkEnd, w.air.links.size ≤ e.link → carried events e = [])
    (htask : w.tasks[t]? = some task) (hstep : w.step t = some w') :
    p.Advances t events w w' gain left := by
  cases h with
  | ready quiet => exact advances_ready hosted quiet hfresh htask hstep
  | underway opened bare announced once underway =>
    cases underway with
    | calling called due time pipe carried =>
      exact advances_calling hosted opened bare announced once called due time pipe carried htask
        hstep
    | fetching begun due time pipe carried count most =>
      exact advances_fetching hosted opened bare announced once begun due time pipe carried count
        most htask hstep
  | settled _ outcome => simp [World.step, htask, outcome] at hstep

/-- Where `step t` is `none`, the timer of the task is yet to come. -/
theorem Progress.waits {gain : Gain} (h : p.Progress t events w task gain left)
    (hosted : p.Hosted w) (htask : w.tasks[t]? = some task) (hlive : task.outcome = none)
    (hstep : w.step t = none) : ∃ timer, w.timer? t = some timer ∧ w.now < timer.due := by
  obtain ⟨x, node, -, hx, -, hnode, hnodes⟩ := hosted.exists_host
  have hwaits {m : Message} {stage : Handling.Stage} (htask : w.tasks[t]? = some (p.task m stage)) :
      ∃ timer, w.timer? t = some timer ∧ w.now < timer.due := by
    rw [World.step_within htask hnodes, Option.map_eq_none_iff] at hstep
    rw [World.timer?, htask, Option.bind_some]
    show ∃ timer, ((⟨p.session, m, stage⟩ : Handling).within p.inbound).timer? = some timer ∧ _
    rw [Handling.timer?_within]
    obtain ⟨call, rfl, -, hdue⟩ | ⟨f, rfl, -, hdue⟩ := Handling.step_eq_none hx hnode hstep
    · exact ⟨_, rfl, hdue⟩
    · exact ⟨_, rfl, hdue⟩
  cases h with
  | ready => exact hwaits htask
  | underway => exact hwaits htask
  | settled _ outcome => cases hlive.symm.trans outcome

end Parcel

/-! ### Whole histories -/

theorem Errand.Fetched.concat {r : Errand} {t : Nat} {events : List Event} {payload : Option Bytes}
    (h : r.Fetched t events payload) (x : Event) : r.Fetched t (events ++ [x]) payload := by
  cases h with
  | unreachable found => exact .unreachable (found.concat x)
  | declined called found => exact .declined (called.concat x) (found.concat x)
  | unanswered called found => exact .unanswered (called.concat x) (found.concat x)
  | tooLarge called declared large => exact .tooLarge (called.concat x) declared large
  | tooSlow begun found => exact .tooSlow (begun.concat x) (found.concat x)
  | disrupted begun found => exact .disrupted (begun.concat x) (found.concat x)
  | cutOff begun found => exact .cutOff (begun.concat x) (found.concat x)
  | full begun found => exact .full (begun.concat x) (found.concat x)
  | ended begun found => exact .ended (begun.concat x) (found.concat x)

namespace Parcel

variable {p : Parcel} {t : Nat} {events : List Event} {w w' : World} {task : Task} {left : Nat}
  {gain : Gain} {x : Event}

/-- An event that is no step of task `t` keeps the `Fate` of its parcel. -/
theorem Fate.keep {o : Outcome} (h : p.Fate t events o gain) (hcause : x.cause ≠ .task t) :
    p.Fate t (events ++ [x]) o gain := by
  have hsame := attempted_of_other events hcause
  cases h with
  | undecipherable opened quiet => exact .undecipherable opened fun a => (hsame a).trans (quiet a)
  | plain opened complete quiet given =>
    exact .plain opened complete (fun a => (hsame a).trans (quiet a)) given
  | fetched opened bare announced once fetched given =>
    exact .fetched opened bare announced (fun a => (hsame a).trans (once a))
      (fetched.concat x) given

theorem Progress.keep (h : p.Progress t events x.before task gain left)
    (hcause : x.cause ≠ .task t) (htask : x.before.tasks[t]? = some task)
    (hkeeps : KeepsFetches t x.before x.after) :
    p.Progress t (events ++ [x]) x.after task gain left := by
  have hsame := attempted_of_other events hcause
  cases h with
  | ready quiet => exact .ready fun a => (hsame a).trans (quiet a)
  | underway opened bare announced once underway =>
    exact .underway opened bare announced (fun a => (hsame a).trans (once a))
      (underway.keep htask hkeeps)
  | settled fate outcome => exact .settled (fate.keep hcause) outcome

theorem Hosted.keep (h : p.Hosted w)
    (hsettings : ∀ n, w'.settings? n = w.settings? n)
    (hsessions : ∀ s y, w.lasting? s = some y → w'.lasting? s = some y) : p.Hosted w' where
  settings := (hsettings _).trans h.settings
  session := hsessions _ _ h.session
  attached := h.attached
  site := h.site

end Parcel

/-- In a `History (KeepsFetches t)` the `Progress` of the parcel is known after every event, and
task `t` stays `Alone`. -/
theorem World.History.parcel {p : Parcel} {t : Nat} {events : List Event} {w w' : World}
    (hosted : p.Hosted w) (halone : w.Alone t)
    (htask : w.tasks[t]? = some (p.task p.message .ready))
    (h : World.History (KeepsFetches t) w events w') :
    (p.Hosted w' ∧ w'.Alone t ∧ ∀ e : LinkEnd, w'.air.links.size ≤ e.link → carried events e = []) ∧
    ∃ task left, w'.tasks[t]? = some task ∧
      p.Progress t events w' task (share p.host.node t events) left ∧
      events.countP (·.cause = .task t) + left ≤ p.settings.config.service.maxFrameSize + 3 := by
  induction h with
  | start =>
    exact ⟨⟨hosted, halone, fun _ _ => rfl⟩, _, _, htask, .ready fun _ => rfl, by simp⟩
  | @next events x _ happens ih =>
    obtain ⟨⟨hosted, halone, hfresh⟩, task, left, htask, hprogress, hcount⟩ := ih
    have hfresh' (hsize : x.before.air.links.size ≤ x.after.air.links.size) (e : LinkEnd)
        (he : x.after.air.links.size ≤ e.link) : carried (events ++ [x]) e = [] := by
      rw [carried_of_mute (Event.writes_of_size he), hfresh e (Nat.le_trans hsize he)]
    rw [share_concat, List.countP_append]
    by_cases hcause : x.cause = .task t
    · obtain ⟨cause, before, after⟩ := x
      obtain rfl : cause = .task t := hcause
      have hstep : before.step t = some after := happens
      have hapart := step_apart hstep
      obtain ⟨task', left', htask', hlt, hnext⟩ := hprogress.step hosted hfresh htask hstep
      refine ⟨⟨hosted.keep hapart.settings hapart.sessions, halone.step hstep,
        hfresh' (links_size_le_of_step hstep)⟩, task', left', htask', ?_, ?_⟩
      · rw [if_pos rfl]
        exact hnext
      · simp only [List.countP_singleton, decide_true, if_true]
        omega
    · have hkeeps := keepsFetches_of_happens happens hcause htask halone
      refine ⟨⟨hosted.keep hkeeps.settings hkeeps.sessions, halone.keep hkeeps,
        hfresh' hkeeps.links_size_le⟩, task, left, hkeeps.task.trans htask, ?_, ?_⟩
      · rw [if_neg hcause]
        exact hprogress.keep hcause htask hkeeps
      · simpa [hcause] using hcount

end RadioLink

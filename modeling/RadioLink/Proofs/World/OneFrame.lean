import RadioLink.Proofs.World.Journal
import RadioLink.Proofs.World.Slot

/-!
# One frame per connection

A send writes on one connection, and nobody else does: not before, as its session has held the end
or its link is new, and not afterwards, as the send still `Owns` it when it has ended
(`World.Sends.owns`). `World.Posted s ours events w` accounts for all that the connections of
session `s` have carried, by the `Journal` of each send through it. It holds of a session that is
`Unused`, and every event that satisfies `Outside` keeps it (`World.Posted.event`).
-/

namespace RadioLink
namespace World

variable {s t : Nat} {w u v : World} {events : List Event} {d : Sending} {x : Event}
  {e : LinkEnd} {ours : LinkEnd → Prop}

/-! ### Whose the connections are -/

theorem Sends.of_activity {task : Task} {d' : Sending} (htask : w.tasks[t]? = some task)
    (hsending : task.activity = .sending d) (hd' : w.Sends s t d') : d' = d := by
  obtain ⟨-, task', htask', hsending'⟩ := hd'
  cases htask.symm.trans htask'
  exact (Activity.sending.inj (hsending.symm.trans hsending')).symm

/-- The task of a send owns its `pens`, also when it has an outcome. -/
theorem Sends.owns (hd : w.Sends s t d) (he : e ∈ d.stage.pens) : w.Owns (.task t) e := by
  obtain ⟨-, task, htask, hsending⟩ := hd
  refine ⟨task, htask, ?_⟩
  rw [Task.pens, hsending]
  split <;> exact he

theorem Sends.mem_of_owns (hd : w.Sends s t d) (howns : w.Owns (.task t) e) : e ∈ d.stage.pens := by
  obtain ⟨-, task, htask, hsending⟩ := hd
  obtain ⟨task', htask', he⟩ := howns
  cases htask.symm.trans htask'
  rw [Task.pens, hsending] at he
  split at he <;> exact he

/-- Whatever task `Advances`, a send through `s` remains one, of the same `frame`. -/
theorem Sends.advances {r : Nat} {task : Task} (hd : w.Sends s t d)
    (h : Advances r task.activity w u) (htask : w.tasks[r]? = some task) :
    ∃ d', u.Sends s t d' ∧ d'.frame = d.frame := by
  obtain ⟨hsession, sender, hsender, hsending⟩ := hd
  by_cases heq : t = r
  · subst heq
    cases htask.symm.trans hsender
    obtain ⟨b, hrole, hown⟩ | ⟨o, hown⟩ := h.own htask
    · rw [hsending] at hrole
      obtain ⟨d', rfl, hd', hmessage, hpayload⟩ := Activity.sending_of_role hrole.symm
      refine ⟨d', ⟨hd'.trans hsession, _, hown, rfl⟩, ?_⟩
      rw [Sending.frame, hmessage, hpayload, Sending.frame]
    · exact ⟨d, ⟨hsession, _, hown, hsending⟩, rfl⟩
  · have hold := h.old (Array.getElem?_eq_some_iff.1 hsender).1 heq
    exact ⟨d, ⟨hsession, sender, hold.trans hsender, hsending⟩, rfl⟩

/-- After every event a send through `s` remains one, of the same `frame`. -/
theorem Sends.event (hd : x.before.Sends s t d) (happens : x.Happens (Outside ours)) :
    ∃ d', x.after.Sends s t d' ∧ d'.frame = d.frame := by
  by_cases hcause : x.cause = .task t
  · obtain ⟨task, htask, -, hadvances, -⟩ := exists_advances (happens.step hcause)
    exact hd.advances hadvances htask
  · obtain ⟨hsession, task, htask, hsending⟩ := hd
    have hlt := (Array.getElem?_eq_some_iff.1 htask).1
    have htask' := Array.getElem?_eq_getElem (Nat.lt_of_lt_of_le hlt (tasks_size_le happens))
    obtain ⟨former, hformer, hactivity, -⟩ | ⟨hnew, -⟩ := exists_former happens hcause htask'
    · cases htask.symm.trans hformer
      exact ⟨d, ⟨hsession, _, htask', hactivity.trans hsending⟩, rfl⟩
    · exact absurd hnew (Nat.not_le.2 hlt)

theorem History.sends (h : w.History (Outside ours) events v) (hd : w.Sends s t d) :
    ∃ d', v.Sends s t d' ∧ d'.frame = d.frame := by
  induction h with
  | start => exact ⟨d, hd, rfl⟩
  | next _ happens ih =>
    obtain ⟨d', hd', hframe⟩ := ih
    obtain ⟨d'', hd'', hframe'⟩ := hd'.event happens
    exact ⟨d'', hd'', hframe'.trans hframe⟩

/-- The end `e` has been given to somebody, and if anybody owns it, that is session `s` or a send
through it. -/
structure Within (s : Nat) (w : World) (e : LinkEnd) : Prop where
  given : w.air.Given e
  owner : ∀ o, w.Owns o e → o = .session s ∨ ∃ t d, o = .task t ∧ w.Sends s t d

/-- A task that asks for session `s` and owns an end after its step is a send. -/
theorem exists_sends_of_pens {task : Task} (htask : w.tasks[t]? = some task)
    (hadvances : Advances t task.activity w u) (hasks : task.activity.session? = some s)
    (howns : u.Owns (.task t) e) : ∃ d, w.Sends s t d := by
  cases hactivity : task.activity with
  | sending d =>
    rw [hactivity] at hasks
    exact ⟨d, Option.some.inj hasks, task, htask, hactivity⟩
  | inspecting i =>
    obtain ⟨task', htask', he⟩ := howns
    have he := Task.mem_pens_of_mem he
    obtain ⟨b, hrole, hown⟩ | ⟨o, hown⟩ := hadvances.own htask
    · cases hown.symm.trans htask'
      rw [hactivity] at hrole
      cases b with
      | inspecting => cases he
      | _ => cases hrole
    · cases hown.symm.trans htask'
      rw [hactivity] at he
      cases he
  | _ =>
    rw [hactivity] at hasks
    cases hasks

/-- Since others do not use the ends of which `ours` holds, these stay `Within s`. -/
theorem Within.event (h : Within s x.before e) (hw : x.before.Divided)
    (happens : x.Happens (Outside ours)) (he : ours e) : Within s x.after e := by
  -- whoever had the end already is still what he was
  have hstays (o : Owner) (ho : x.before.Owns o e) :
      o = .session s ∨ ∃ t d, o = .task t ∧ x.after.Sends s t d := by
    obtain rfl | ⟨t, d, rfl, hd⟩ := h.owner o ho
    · exact .inl rfl
    · obtain ⟨d', hd', -⟩ := hd.event happens
      exact .inr ⟨t, d', rfl, hd'⟩
  obtain ⟨acts, hair⟩ := exists_acts happens
  refine ⟨hair ▸ h.given.foldl hw.orderly acts, fun o ho => ?_⟩
  by_cases hcause : ∃ t, x.cause = .task t
  · obtain ⟨t, hcause⟩ := hcause
    obtain ⟨task, htask, hlive, hadvances, -⟩ := exists_advances (happens.step hcause)
    have howns (he : e ∈ task.activity.pens) : x.before.Owns (.task t) e :=
      ⟨task, htask, by rwa [Task.pens, hlive]⟩
    cases hadvances.origin htask hw.orderly ho with
    | same hsame =>
      obtain ⟨rfl, hown⟩ | ⟨-, ho⟩ := hsame
      · exact hstays _ (howns hown)
      · exact hstays o ho
    | taken asks held =>
      obtain heq | ⟨_, _, heq, -⟩ := h.owner _ held
      · -- it was this session that it was taken out of, and whoever can write on it is a send
        cases heq
        obtain ⟨d, hd⟩ := exists_sends_of_pens htask hadvances asks ho
        obtain ⟨d', hd', -⟩ := hd.event happens
        exact .inr ⟨t, d', rfl, hd'⟩
      · cases heq
    | handed own asks =>
      obtain heq | ⟨_, d, heq, -, task', htask', hsending⟩ := h.owner _ (howns own)
      · cases heq
      · -- a send does not hand its connection on
        cases heq
        cases htask.symm.trans htask'
        rw [hsending] at asks
        cases asks
    | fresh given => exact absurd h.given given
  · obtain ho | ⟨-, -, hnot, -⟩ := exists_owner happens (fun t heq => hcause ⟨t, heq⟩) ho
    · exact hstays o ho
    · exact absurd he hnot

/-! ### What is accounted for -/

/-- No send through session `s` has begun: its `holder` is `none`, and all sends are `.ready`. -/
structure Unused (s : Nat) (w : World) : Prop where
  free : ∃ x, w.sessions[s]? = some x ∧ x.holder = none
  ready : ∀ (t : Nat) (task : Task) (d : Sending), w.tasks[t]? = some task →
    task.activity = .sending d → d.session = s → task.outcome = none ∧ d.stage = .ready

theorem Unused.slot (h : Unused s w) : ∃ x, Slot s w x := by
  obtain ⟨x, hx, hholder⟩ := h.free
  refine ⟨x, hx, fun t ht => ?_, fun hne => absurd hholder hne⟩
  obtain ⟨task, d, htask, -, hsending, hd, hengaged⟩ := ht
  rw [(h.ready t task d htask hsending hd).2] at hengaged
  cases hengaged

/-- The account of the send of task `t`: its `Journal`; its frame is out if its outcome is
`.sent true`; and once it has an outcome its session is `Bare`. -/
structure Account (s t : Nat) (events : List Event) (w : World) (d : Sending) : Prop where
  journal : Journal t events d
  sent : w.outcome? t = some (.sent true) → ∃ e, d.IsOut e
  spent : ∀ ok, w.outcome? t = some (.sent ok) → w.Bare s

/-- For a send without an outcome `.sent ok` the `Journal` is all of its account. -/
theorem Account.of_journal (h : Journal t events d) (ho : ∀ ok, w.outcome? t ≠ some (.sent ok)) :
    Account s t events w d where
  journal := h
  sent hsent := absurd hsent (ho true)
  spent ok hsent := absurd hsent (ho ok)

/-- What is known of session `s` after `events`: there is an `Account` of every send through it;
what it holds has carried nothing; and of the ends that are `ours` each has carried nothing, or what
a send through `s` has written. -/
structure Posted (s : Nat) (ours : LinkEnd → Prop) (events : List Event) (w : World) : Prop where
  divided : w.Divided
  slot : ∃ x, Slot s w x
  account : ∀ t d, w.Sends s t d → Account s t events w d
  held : ∀ e, w.Owns (.session s) e → carried events e = []
  beyond : ∀ e, w.air.links.size ≤ e.link → carried events e = []
  unborn : ∀ t, w.tasks.size ≤ t → ∀ e, written t events e = []
  within : ∀ e, ours e → Within s w e
  writer : ∀ e, ours e → carried events e = [] ∨ ∃ t d, w.Sends s t d ∧ written t events e ≠ []

/-- A send that is still `.ready` and has written nothing has an `Account`. -/
theorem Account.ready {task : Task} (hstage : d.stage = .ready)
    (hnothing : ∀ e, written t events e = []) (htask : w.tasks[t]? = some task)
    (hlive : task.outcome = none) : Account s t events w d := by
  refine .of_journal (.waiting (by rw [hstage]; rfl) hnothing fun e he => ?_) fun ok ho => ?_
  · rw [hstage] at he
    cases he
  · rw [outcome?, htask] at ho
    cases hlive.symm.trans ho

theorem Unused.posted (h : Unused s w) (hw : w.Divided) : Posted s (w.Owns (.session s)) [] w where
  divided := hw
  slot := h.slot
  account t d hd := by
    obtain ⟨hsession, task, htask, hsending⟩ := hd
    obtain ⟨hlive, hready⟩ := h.ready t task d htask hsending hsession
    exact .ready hready (fun _ => rfl) htask hlive
  held _ _ := rfl
  beyond _ _ := rfl
  unborn _ _ _ := rfl
  within e he := ⟨hw.owners.given _ e he, fun o ho => .inl (hw.owners.one o _ e ho he)⟩
  writer _ _ := .inl rfl

/-! ### The step of a send -/

/-- Where `rest.next` is `.shutdown` the step shuts the stream down. -/
theorem stepSending_shutdown {stream : LinkEnd} {rest rest' : Outflow} {deadline : Timer}
    (hstage : d.stage = .writing stream rest deadline) (hnext : rest.next = .shutdown rest')
    (hs : w.stepSending t d = some u) : u.air = w.air.shutdown stream := by
  obtain ⟨x, node, -, -, hstep⟩ := Sending.step_of_stepSending hs
  cases hstep with
  | writes stage write =>
    cases hstage.symm.trans stage
    cases write with
    | shuts => rfl
    | takes next | breaks next | done next => cases hnext.symm.trans next
    | goesOn next => obtain next | next := next <;> cases hnext.symm.trans next
    | tooSlow waits => obtain next | ⟨next, -⟩ := waits <;> cases hnext.symm.trans next
    | fails next => obtain next | ⟨_, next⟩ := next <;> cases hnext.symm.trans next
  | locks stage | queues stage | follows stage | dials stage | connected stage | failed stage =>
    cases hstage.symm.trans stage

/-- An event that writes once, `bytes` on `stream`, writes on it what `Pipe.Written.count` says, and
nothing elsewhere. -/
theorem writes_of_write {stream : LinkEnd} {bytes : Bytes}
    (h : x.after.air = (x.before.air.write stream bytes).2) (e : LinkEnd) :
    x.writes e
      = if e = stream then bytes.take (x.before.air.write stream bytes).1.count else [] := by
  rw [Event.writes, h, Air.outgoing_write, List.drop_left]

theorem writes_of_outgoing {e : LinkEnd} (h : x.after.air.outgoing e = x.before.air.outgoing e) :
    x.writes e = [] := by
  rw [Event.writes, h]
  exact List.drop_length

/-- Whatever the `pens` of a send are after a step, they have carried nothing, if that was so before
the step and it did not write. -/
theorem Posted.fresh {task task' : Task} {e : LinkEnd} (h : Posted s ours events w)
    (hidle : ∀ e ∈ d.stage.pens, carried events e = []) (hadvances : Advances t task.activity w u)
    (htask : w.tasks[t]? = some task) (hsending : task.activity = .sending d) (hd : d.session = s)
    (htask' : u.tasks[t]? = some task') (hlive' : task'.outcome = none)
    (he : e ∈ task'.activity.pens) : carried events e = [] := by
  have howns : u.Owns (.task t) e := ⟨task', htask', by rwa [Task.pens, hlive']⟩
  have horigin := hadvances.origin htask h.divided.orderly howns
  rw [hsending] at horigin
  cases horigin with
  | same h => exact hidle e (h.resolve_right fun h => h.1 rfl).2
  | taken asks held =>
    obtain rfl := Option.some.inj asks
    exact h.held e (hd ▸ held)
  | fresh _ link => exact h.beyond e (link rfl)

/-- A step of a send leads from one `Account` to the next. -/
theorem Posted.sending {task : Task} {d' : Sending} (h : Posted s ours events w)
    (htask : w.tasks[t]? = some task) (hlive : task.outcome = none)
    (hsending : task.activity = .sending d) (hd : d.session = s)
    (hadvances : Advances t task.activity w u) (hs : w.stepSending t d = some u)
    (hd' : u.Sends s t d') : Account s t (events ++ [⟨.task t, w, u⟩]) u d' := by
  obtain ⟨hjournal, -, -⟩ := h.account t d ⟨hd, task, htask, hsending⟩
  obtain ⟨x, hslot⟩ := h.slot
  obtain ⟨y, node, -, -, ⟨p, v⟩, hmove, hu⟩ := moves_of_stepSending hs
  have hair : u.air = v.air := by rw [hu, air_concludeSending]
  have hmute (hmute : ∀ e, v.air.outgoing e = w.air.outgoing e) (e : LinkEnd) :
      Event.writes e ⟨.task t, w, u⟩ = [] :=
    writes_of_outgoing ((congrArg (·.outgoing e) hair).trans (hmute e))
  -- a task that goes on has not ended
  have hgoes {d₁ : Sending} (htasks : v.tasks = w.tasks) (hp : p = .going d₁) :
      u.tasks[t]? = some { task with activity := .sending d₁ } := by
    rw [hu, hp]
    exact tasks_become (htasks ▸ htask)
  have hgoing {d₁ : Sending} (htask' : u.tasks[t]? = some { task with activity := .sending d₁ })
      (hj : Journal t (events ++ [⟨.task t, w, u⟩]) d₁) :
      Account s t (events ++ [⟨.task t, w, u⟩]) u d' := by
    obtain rfl := hd'.of_activity htask' rfl
    refine .of_journal hj fun ok hsent => ?_
    rw [outcome?, htask'] at hsent
    cases hlive.symm.trans hsent
  -- one that has ended is as far as it was, and has written nothing more
  have hends {ok : Bool} (htasks : v.tasks = w.tasks) (hp : p = .ended ok)
      (hout : ok = true → ∃ e, d.IsOut e) :
      Account s t (events ++ [⟨.task t, w, u⟩]) u d' := by
    have htask' : u.tasks[t]? = some { task with outcome := some (.sent ok) } := by
      rw [hu, hp]
      exact tasks_finish (htasks ▸ htask)
    have hover : u.outcome? t = some (.sent ok) := by
      rw [outcome?, htask']
      rfl
    obtain ⟨hbare, houtgoing⟩ := hslot.ended hd htask hlive hsending hs hover
    have hwrites (e : LinkEnd) : Event.writes e ⟨.task t, w, u⟩ = [] :=
      writes_of_outgoing (houtgoing e)
    obtain rfl := hd'.of_activity htask' hsending
    refine ⟨hjournal.quiet (fun e _ => hwrites e) fun _ => hwrites, fun hsent => ?_,
      fun _ _ => hbare⟩
    cases hover.symm.trans hsent
    exact hout rfl
  cases hmove with
  | waits was is mute =>
    have htask' := hgoes mute.tasks rfl
    refine hgoing htask' (hjournal.waits was is (hmute mute.outgoing) fun hidle e he => ?_)
    exact h.fresh hidle hadvances htask hsending hd htask' hlive he
  | begins was start mute =>
    have htask' := hgoes mute.tasks rfl
    refine hgoing htask' (hjournal.begins was start (hmute mute.outgoing) fun hidle => ?_)
    exact h.fresh hidle hadvances htask hsending hd htask' hlive List.mem_cons_self
  | writes stage => exact hgoing (hgoes rfl rfl) (hjournal.writes stage rfl (writes_of_write hair))
  | goesOn stage next mute =>
    exact hgoing (hgoes mute.tasks rfl) (hjournal.goesOn stage next rfl (hmute mute.outgoing)
      fun hnext => stepSending_shutdown stage hnext hs)
  | @done stream rest deadline _ stage next mute =>
    have hturn := rest.turn_next
    rw [next] at hturn
    cases hturn with
    | done remaining done =>
      exact hends mute.tasks rfl fun _ => ⟨stream, rest, deadline, stage, done, remaining⟩
  | fails _ tasks => exact hends tasks rfl fun hok => absurd hok Bool.false_ne_true

/-! ### Whatever happens -/

theorem Slot.owns_of_event {y : Session} (h : Slot s x.before y)
    (happens : x.Happens (Outside ours)) (ho : x.after.Owns (.session s) e) :
    x.before.Owns (.session s) e := by
  obtain ⟨z, hz, hheld⟩ := h.event happens
  obtain ⟨z', hz', he⟩ := ho
  cases hz.here.symm.trans hz'
  obtain heq | hnone := hheld
  · exact ⟨y, h.here, heq.symm.trans he⟩
  · cases hnone.symm.trans he

theorem bare_of_event {y : Session} (h : Slot s x.before y) (happens : x.Happens (Outside ours))
    (hbare : x.before.Bare s) : x.after.Bare s :=
  (History.start.next happens).bare h hbare

/-- If the task of a step is a send through `s` afterwards, it was one before. -/
theorem exists_sends_of_step (hs : w.step t = some u) (hd : u.Sends s t d) :
    ∃ d', w.Sends s t d' := by
  obtain ⟨hsession, task', htask', hsending⟩ := hd
  obtain ⟨task, htask, -, hadvances, -⟩ := exists_advances hs
  obtain ⟨b, hrole, hown⟩ | ⟨o, hown⟩ := hadvances.own htask
  · cases hown.symm.trans htask'
    obtain rfl : b = .sending d := hsending
    obtain ⟨d', hsending', hd', -⟩ := Activity.sending_of_role hrole
    exact ⟨d', hd'.trans hsession, task, htask, hsending'⟩
  · cases hown.symm.trans htask'
    exact ⟨d, hsession, task, htask, hsending⟩

/-- An event that is no step of task `t` keeps the `Account` of its send. -/
theorem Posted.others (h : Posted s ours events x.before) (happens : x.Happens (Outside ours))
    (hcause : x.cause ≠ .task t) (hd : x.after.Sends s t d) :
    Account s t (events ++ [x]) x.after d := by
  obtain ⟨hsession, task, htask, hsending⟩ := hd
  obtain ⟨former, hformer, hactivity, houtcome⟩ | ⟨hnew, hlive, hready⟩ :=
    exists_former happens hcause htask
  · have hbefore : x.before.Sends s t d :=
      ⟨hsession, former, hformer, hactivity.symm.trans hsending⟩
    obtain ⟨hjournal, hsent, hspent⟩ := h.account t d hbefore
    have hsame : x.after.outcome? t = x.before.outcome? t := by
      rw [outcome?, htask, outcome?, hformer]
      exact houtcome
    have hpens (e : LinkEnd) (he : e ∈ d.stage.pens) : x.writes e = [] :=
      h.divided.writes_eq_nil happens (hbefore.owns he) fun r heq => Owner.task.inj heq ▸ hcause
    -- nobody else writes on what is the send's, and nobody gives the session a connection again
    obtain ⟨y, hy⟩ := h.slot
    refine ⟨hjournal.quiet hpens fun heq => absurd heq hcause, fun ho => hsent (hsame ▸ ho),
      fun ok ho => bare_of_event hy happens (hspent ok (hsame ▸ ho))⟩
  · refine .ready (hready d hsending) (fun e => ?_) htask hlive
    rw [written_of_other hcause, h.unborn t hnew]

/-- Every event keeps the `Account` of every send through `s`. -/
theorem Posted.account_event (h : Posted s ours events x.before)
    (happens : x.Happens (Outside ours)) (hd : x.after.Sends s t d) :
    Account s t (events ++ [x]) x.after d := by
  by_cases hcause : x.cause = .task t
  · obtain ⟨cause, before, after⟩ := x
    obtain rfl : cause = .task t := hcause
    obtain ⟨d', hd', task, htask, hsending⟩ := exists_sends_of_step happens hd
    obtain ⟨task', htask', hlive, hadvances, hstep⟩ := exists_advances happens
    cases htask.symm.trans htask'
    rw [hsending] at hstep
    split at hstep
    · -- a task that is aborted only ends
      obtain rfl : after = before.finish t .aborted := hstep
      have hover := tasks_finish (o := .aborted) htask
      obtain rfl := hd.of_activity hover hsending
      obtain ⟨hjournal, -, -⟩ := h.account t d ⟨hd', task, htask, hsending⟩
      refine .of_journal (hjournal.quiet (fun _ _ => writes_of_outgoing rfl)
        fun _ _ => writes_of_outgoing rfl) fun ok ho => ?_
      rw [outcome?, hover] at ho
      cases ho
    · exact h.sending htask hlive hsending hd' hadvances hstep hd
  · exact h.others happens hcause hd

/-- After every event an end that is `ours` has carried nothing, or some send through `s` has
written on it. -/
theorem Posted.writer_event (h : Posted s ours events x.before) (happens : x.Happens (Outside ours))
    (he : ours e) : carried (events ++ [x]) e = [] ∨
      ∃ t d, x.after.Sends s t d ∧ written t (events ++ [x]) e ≠ [] := by
  by_cases hwrites : x.writes e = []
  · rw [carried_of_mute hwrites]
    refine (h.writer e he).imp_right fun ⟨t, d, hd, hne⟩ => ?_
    obtain ⟨d', hd', -⟩ := hd.event happens
    refine ⟨t, d', hd', ?_⟩
    rwa [written_of_mute hwrites]
  · obtain ⟨t, hcause, howns⟩ | ⟨-, hnot, -⟩ := exists_writer happens hwrites
    · obtain heq | ⟨r, d, heq, hd⟩ := (h.within e he).owner _ howns
      · cases heq
      · cases heq
        obtain ⟨d', hd', -⟩ := hd.event happens
        refine .inr ⟨t, d', hd', ?_⟩
        rw [written_concat, if_pos hcause]
        exact List.append_ne_nil_of_right_ne_nil _ hwrites
    · exact absurd he hnot

theorem Posted.event (h : Posted s ours events x.before) (happens : x.Happens (Outside ours)) :
    Posted s ours (events ++ [x]) x.after := by
  obtain ⟨y, hy⟩ := h.slot
  have hempty {e : LinkEnd} (hcarried : carried events e = []) (hwrites : x.writes e = []) :
      carried (events ++ [x]) e = [] := (carried_of_mute hwrites).trans hcarried
  exact {
    divided := h.divided.event happens
    slot := (hy.event happens).imp fun _ hz => hz.1
    account := fun t d hd => h.account_event happens hd
    held := fun e ho =>
      have hbefore := hy.owns_of_event happens ho
      hempty (h.held e hbefore) (h.divided.writes_eq_nil happens hbefore nofun)
    beyond := fun e he =>
      have hbefore := Nat.le_trans (links_size_le happens) he
      hempty (h.beyond e hbefore) (h.divided.writes_of_size happens hbefore)
    unborn := fun t ht e => by
      have hbefore := Nat.le_trans (tasks_size_le happens) ht
      have hcause : x.cause ≠ .task t := fun hcause =>
        Nat.not_lt.2 hbefore (lt_size_of_cause happens hcause)
      rw [written_of_other hcause, h.unborn t hbefore]
    within := fun e he => (h.within e he).event h.divided happens he
    writer := fun e he => h.writer_event happens he }

theorem History.posted (h : w.History (Outside ours) events v) (hw : Posted s ours [] w) :
    Posted s ours events v := by
  induction h with
  | start => exact hw
  | next _ happens ih => exact ih.event happens

/-- **One frame per connection, one send at a time.** Let session `s` be `Unused`, with a connection
or without, and let any number of tasks send through it, inspect whether it holds one, and `release`
it in the course of `events`. At any time at most one task is `Engaged`; the session is then `Bare`
and notes it as its holder, and nobody else connects or writes through it. Every end that the
session held at first, or that a send has got, has carried nothing, or `OneFrame` holds of it for
one send. A send with the outcome `.sent true` has written its whole frame and then shut the end
down. With either outcome the session is `Bare`, and once it is it stays so. While a task is
`Engaged` a call of `release` changes nothing at all. -/
theorem one_frame_per_connection (hw : w.Divided) (hs : Unused s w)
    (h : w.History (Outside (w.Owns (.session s))) events v) :
    (∀ t, v.Engaged s t → v.Locks s t ∧ v.Bare s ∧ ∀ r, v.Engaged s r → r = t) ∧
    (∀ x ∈ events, ∀ t d, x.cause = .task t → x.before.Sends s t d → ¬ x.before.Engaged s t →
      x.before.air.Idle x.after.air) ∧
    (∀ e, (w.Owns (.session s) e ∨
        ∃ t d, v.Sends s t d ∧ (v.Owns (.task t) e ∨ written t events e ≠ [])) →
      carried events e = [] ∨ ∃ t d, v.Sends s t d ∧ OneFrame t events d.frame e) ∧
    (∀ t d, v.Sends s t d → v.outcome? t = some (.sent true) →
      ∃ e, OneFrame t events d.frame e ∧ carried events e = d.frame ∧ Shut t events e d.frame) ∧
    (∀ t d ok, v.Sends s t d → v.outcome? t = some (.sent ok) → v.Bare s) ∧
    (v.Bare s → ∀ later u, v.History (Outside (w.Owns (.session s))) later u → u.Bare s) ∧
    (v.release s).Bare s ∧ ∀ t, v.Engaged s t → v.release s = v := by
  have hposted := h.posted (hs.posted hw)
  obtain ⟨x, hslot⟩ := hposted.slot
  refine ⟨?engaged, ?idle, ?carries, ?sent, ?spent, ?stays, hslot.release⟩
  case engaged =>
    intro t ht
    refine ⟨hslot.locks ht, hslot.bare ht, fun r hr => ?_⟩
    exact Option.some.inj ((hslot.engaged r hr).symm.trans (hslot.engaged t ht))
  case idle =>
    intro x hx t d hcause hd hfree
    exact idle_of_step hd hfree ((h.happens hx).step hcause)
  case carries =>
    rintro e (he | ⟨t, d, hd, hown⟩)
    · refine (hposted.writer e he).imp_right fun ⟨t, d, hd, hwritten⟩ => ?_
      exact ⟨t, d, hd, (hposted.account t d hd).journal.oneFrame_of_written hwritten⟩
    · have hjournal := (hposted.account t d hd).journal
      obtain howns | hwritten := hown
      · refine (hjournal.oneFrame_of_mem (hd.mem_of_owns howns)).imp_right fun hone => ?_
        exact ⟨t, d, hd, hone⟩
      · exact .inr ⟨t, d, hd, hjournal.oneFrame_of_written hwritten⟩
  case sent =>
    intro t d hd hsent
    obtain ⟨hjournal, hout, -⟩ := hposted.account t d hd
    obtain ⟨e, hout⟩ := hout hsent
    exact ⟨e, hjournal.whole_of_isOut hout⟩
  case spent =>
    intro t d ok hd hsent
    exact (hposted.account t d hd).spent ok hsent
  case stays =>
    intro hbare later u hlater
    exact hlater.bare hslot hbare

/-- A session that holds a connection, and two sends: the first takes it, the second connects. -/
theorem one_frame_per_connection_two :
    let a : Address := ⟨#v[2, 0, 0, 0, 0, 1]⟩
    let b : Address := ⟨#v[2, 0, 0, 0, 0, 2]⟩
    let service : Endpoint := .service ({} : LinkConfig).service.uuid
    let send (id : Int64) : Sending :=
      { session := 0, message := .ofKind id (.ofName "x"), payload := some (.bytes [1, 2, 3]) }
    let w : World :=
      { nodes := #[{ address := a, config := {},
                     app := { deviceId := "p", secret := Vector.replicate 32 0,
                              announcement := .ofKind 1 .identity } }]
        sessions := #[{ node := 0, peer := ⟨b, none⟩, held := some ⟨0, .caller⟩ }]
        air := [.switchOn a, .switchOn b, .listen b service, .connect a b service, .accept 1].foldl
          Air.perform {}
        tasks := #[{ activity := .sending (send 5) }, { activity := .sending (send 6) }] }
    ∃ events v e e', w.History (Outside (w.Owns (.session 0))) events v ∧ e ≠ e' ∧
      carried events e = (send 5).frame ∧ carried events e' = (send 6).frame ∧ v.Bare 0 := by
  intro a b service send w
  let first : List Cause := [.task 0, .task 1] ++ List.replicate 8 (.task 0) ++ [.task 1, .task 1]
  have hrun : (w.replay? first).bind (fun r =>
      (replay? { r.2 with air := r.2.air.perform (.accept 1) } (List.replicate 9 (.task 1))).map
        fun r => (decide (r.2.outcome? 0 = some (.sent true)),
          decide (r.2.outcome? 1 = some (.sent true)))) = some (true, true) := by
    decide +kernel
  obtain ⟨⟨before, u⟩, hfirst, hrun⟩ := Option.bind_eq_some_iff.1 hrun
  obtain ⟨⟨after, v⟩, hsecond, hrun⟩ := Option.map_eq_some_iff.1 hrun
  obtain ⟨hover₀, hover₁⟩ := Prod.mk.inj hrun
  -- only the session has an end of a link
  have howner (o : Owner) (e : LinkEnd) (ho : w.Owns o e) : o = .session 0 ∧ e = ⟨0, .caller⟩ := by
    cases o with
    | session s =>
      obtain ⟨x, hx, he⟩ := ho
      rcases s with _ | s
      · cases hx
        cases he
        exact ⟨rfl, rfl⟩
      · cases hx
    | task t =>
      obtain ⟨task, htask, he⟩ := ho
      rcases t with _ | _ | t <;> cases htask <;> cases he
  have hw : w.Divided := by
    refine ⟨Air.orderly_empty.foldl _, fun o o' e ho ho' => ?_, fun o e ho => ?_⟩
    · rw [(howner o e ho).1, (howner o' e ho').1]
    · rw [(howner o e ho).2]
      exact ⟨.accepted, by decide +kernel, nofun⟩
  have hs : Unused 0 w := by
    refine ⟨⟨_, rfl, rfl⟩, fun t task d htask hsending _ => ?_⟩
    rcases t with _ | _ | t <;> cases htask <;> cases hsending <;> exact ⟨rfl, rfl⟩
  have hall : w.History (Outside (w.Owns (.session 0))) _ v :=
    ((History.start.append_replay hfirst).thenOther (.act nofun)).append_replay hsecond
  obtain ⟨d, hd, hframe⟩ := hall.sends (s := 0) (t := 0) (d := send 5) ⟨rfl, _, rfl, rfl⟩
  obtain ⟨d', hd', hframe'⟩ := hall.sends (s := 0) (t := 1) (d := send 6) ⟨rfl, _, rfl, rfl⟩
  obtain ⟨-, -, -, hwhole, hspent, -⟩ := one_frame_per_connection hw hs hall
  obtain ⟨e, hone, hcarried, -⟩ := hwhole 0 d hd (of_decide_eq_true hover₀)
  obtain ⟨e', hone', hcarried', -⟩ := hwhole 1 d' hd' (of_decide_eq_true hover₁)
  refine ⟨_, v, e, e', hall, ?_, hframe ▸ hcarried, hframe' ▸ hcarried',
    hspent 0 d true hd (of_decide_eq_true hover₀)⟩
  -- on one and the same connection neither of them would have left the other anything to write
  rintro rfl
  have hnothing : (send 5).frame = [] := by
    rw [← hframe, ← hcarried, hone.own]
    exact hone'.others 0 (by decide)
  exact absurd hnothing (by decide +kernel)

end World
end RadioLink

import RadioLink.Proofs.World.Hidden
import RadioLink.Proofs.World.OneFrame

/-!
# Handing a connection over

A task that announces gives the connection it has made to a session of its own, and starts a send
through that (`World.Lends`). Nobody else knows of the session, so the send finds the connection
there and never connects. From its first byte on

    carried events e ++ rest.remaining = m.frame

until the connection is shut down after the whole `m.frame`, or given up before. `Handing` says how
far such a send has come; what others have to leave alone for that is `World.KeepsOwned`.
-/

namespace RadioLink

/-- An event whose acts do not `Handles` the end `e` writes nothing on it. -/
theorem Event.writes_of_acts {x : Event} {acts : List Air.Act} {e : LinkEnd}
    (h : x.after.air = acts.foldl Air.perform x.before.air) (hacts : ∀ y ∈ acts, ¬ y.Handles e) :
    x.writes e = [] := by
  rw [writes, h]
  refine List.drop_eq_nil_of_le (Air.length_outgoing_foldl fun y hy bytes heq => ?_)
  exact hacts y hy (heq ▸ rfl)

/-! ### What others do -/

namespace World

variable {t r s : Nat} {w w' : World} {x : Event} {events : List Event} {e : LinkEnd} {o : Owner}

/-- Task `t` announces, and task `r` sends for it. -/
def Lends (w : World) (t r : Nat) : Prop :=
  ∃ task a, w.tasks[t]? = some task ∧ task.activity = .announcing a ∧ a.stage = .sending r

/-- What somebody else may do while task `t` is at work: leave alone the task, as in `KeepsTask`,
and the task that it `Lends` to with the session that only that one knows; perform no act that
`Handles` an end that is owned; and keep the world `Divided` and `Founded`. -/
structure KeepsOwned (t : Nat) (w w' : World) : Prop extends KeepsTask t w w' where
  size : w.tasks.size ≤ w'.tasks.size
  acts : ∃ acts : List Air.Act, w'.air = acts.foldl Air.perform w.air ∧
    ∀ o e, w.Owns o e → ∀ y ∈ acts, ¬ y.Handles e
  fetches : ∀ q link, w'.Fetches q link → w.Fetches q link ∨ w.air.links.size ≤ link
  divided : w.Divided → w'.Divided
  founded : w.Founded → w'.Founded
  lent : ∀ r, w.Lends t r → w'.tasks[r]? = w.tasks[r]? ∧
    ∀ s, w.Hidden s r → w'.Hidden s r ∧ w'.sessions[s]? = w.sessions[s]?

/-- Time that passes satisfies `KeepsOwned`, with any acts that handle no end that is owned, such as
`.bond`, `.unbond` and `.failNext`. -/
theorem keepsOwned_of_acts (acts : List Air.Act)
    (h : ∀ o e, w.Owns o e → ∀ y ∈ acts, ¬ y.Handles e) (moment : Nat) :
    KeepsOwned t w { w with air := acts.foldl Air.perform w.air, now := moment } where
  task := rfl
  sessions _ _ hx := hx
  settings _ := rfl
  size := Nat.le_refl _
  acts := ⟨acts, rfl, h⟩
  fetches _ _ hq := .inl hq
  divided hw := by
    obtain ⟨horderly, howners⟩ := hw
    clear h
    suffices hall : ∀ air : Air, air.Orderly → air.Divided w.Owns →
        (acts.foldl Air.perform air).Orderly ∧ (acts.foldl Air.perform air).Divided w.Owns from
      ⟨(hall _ horderly howners).1, (hall _ horderly howners).2⟩
    induction acts with
    | nil => exact fun air horderly howners => ⟨horderly, howners⟩
    | cons y acts ih =>
      exact fun air horderly howners => ih _ (horderly.perform y) (howners.perform horderly y)
  founded hf :=
    { listed := hf.listed
      asked := hf.asked
      fetched := fun q link hq =>
        Nat.lt_of_lt_of_le (hf.fetched q link hq) (w.air.size_le_foldl acts) }
  lent _ _ := ⟨rfl, fun _ hs => ⟨⟨hs.here, hs.unlisted, hs.alone⟩, rfl⟩⟩

/-- A step or a removal is an event of `Outside` as well. -/
theorem outside_of_keepsOwned (h : x.Happens (KeepsOwned t)) (hcause : x.cause ≠ .other) :
    x.Happens (Outside fun _ => False) := by
  obtain ⟨cause, before, after⟩ := x
  cases cause with
  | task q => exact h
  | removal n a => exact h
  | other => exact absurd rfl hcause

theorem KeepsOwned.of_other (h : x.Happens (KeepsOwned t)) (hcause : x.cause = .other) :
    KeepsOwned t x.before x.after := by
  rw [Event.Happens, hcause] at h
  exact h

theorem keepsTask_of_keepsOwned {task : Task} (h : x.Happens (KeepsOwned t))
    (hcause : x.cause ≠ .task t) (htask : x.before.tasks[t]? = some task) :
    KeepsTask t x.before x.after := by
  refine keepsTask_of_happens ?_ hcause htask
  obtain ⟨cause, before, after⟩ := x
  cases cause with
  | task q => exact h
  | removal n a => exact h
  | other => exact KeepsOwned.toKeepsTask h

theorem Divided.next (hw : x.before.Divided) (h : x.Happens (KeepsOwned t)) :
    x.after.Divided := by
  by_cases hcause : x.cause = .other
  · exact (KeepsOwned.of_other h hcause).divided hw
  · exact hw.event (outside_of_keepsOwned h hcause)

theorem Founded.next (hw : x.before.Founded) (h : x.Happens (KeepsOwned t)) :
    x.after.Founded := by
  obtain ⟨cause, before, after⟩ := x
  cases cause with
  | task q => exact hw.step h
  | removal n a =>
    obtain rfl : after = before.removeBonded n a := h
    exact hw.removed n a
  | other => exact KeepsOwned.founded h hw

theorem links_size_le_of_keepsOwned (h : x.Happens (KeepsOwned t)) :
    x.before.air.links.size ≤ x.after.air.links.size := by
  by_cases hcause : x.cause = .other
  · obtain ⟨acts, hair, -⟩ := (KeepsOwned.of_other h hcause).acts
    exact hair ▸ x.before.air.size_le_foldl acts
  · exact links_size_le (outside_of_keepsOwned h hcause)

theorem tasks_size_le_of_keepsOwned (h : x.Happens (KeepsOwned t)) :
    x.before.tasks.size ≤ x.after.tasks.size := by
  by_cases hcause : x.cause = .other
  · exact (KeepsOwned.of_other h hcause).size
  · exact tasks_size_le (outside_of_keepsOwned h hcause)

/-- Nobody `Fetches` from a link that he did not fetch from before, unless the link is new. -/
theorem fetches_of_keepsOwned {q link : Nat} (h : x.Happens (KeepsOwned t))
    (hq : x.after.Fetches q link) :
    x.before.Fetches q link ∨ x.before.air.links.size ≤ link := by
  obtain ⟨cause, before, after⟩ := x
  cases cause with
  | task r =>
    obtain ⟨task, htask, hlive, hadvances, -⟩ := exists_advances h
    exact (hadvances.fetches htask hlive hq).imp_right fun h => h.2.1
  | removal n a =>
    obtain rfl : after = before.removeBonded n a := h
    exact .inl ((fetches_of_tasks (by rw [tasks_removeBonded])).1 hq)
  | other => exact KeepsOwned.fetches h q link hq

/-- In a `Divided` world an event that is not a step of its owner writes nothing on an end. -/
theorem Divided.mute (hw : x.before.Divided) (h : x.Happens (KeepsOwned t)) (ho : x.before.Owns o e)
    (hcause : ∀ q, o = .task q → x.cause ≠ .task q) : x.writes e = [] := by
  by_cases hother : x.cause = .other
  · obtain ⟨acts, hair, hacts⟩ := (KeepsOwned.of_other h hother).acts
    exact Event.writes_of_acts hair (hacts o e ho)
  · exact hw.writes_eq_nil (outside_of_keepsOwned h hother) ho hcause

/-- In a `Divided` world an event that is not a step of its owner performs no act that `Handles` an
end which nobody reads. -/
theorem Divided.exists_acts (hw : x.before.Divided) (h : x.Happens (KeepsOwned t))
    (ho : x.before.Owns o e) (hcause : ∀ q, o = .task q → x.cause ≠ .task q)
    (hside : e.side = .caller) (hunread : ∀ q, ¬ x.before.Fetches q e.link) :
    ∃ acts : List Air.Act, x.after.air = acts.foldl Air.perform x.before.air ∧
      ∀ y ∈ acts, ¬ y.Handles e := by
  obtain ⟨link, side⟩ := e
  obtain rfl : side = .caller := hside
  obtain ⟨cause, before, after⟩ := x
  cases cause with
  | task q =>
    obtain ⟨task, htask, hlive, hadvances, -⟩ := exists_advances h
    obtain ⟨acts, hair, hmay⟩ := hadvances.exists_acts
    -- whoever writes there, or shuts it down, is the owner
    have howns (he : ⟨link, .caller⟩ ∈ task.activity.pens) : False := by
      refine hcause q (hw.owners.one o (.task q) _ ho ⟨task, htask, ?_⟩) rfl
      rwa [Task.pens, hlive, Option.isNone_none, if_pos rfl]
    refine ⟨acts, hair, fun y hy hhandles => ?_⟩
    have hy := hmay y hy
    cases y with
    | write stream bytes =>
      obtain rfl : stream = _ := hhandles
      exact howns hy
    | shutdown stream =>
      obtain rfl : stream = _ := hhandles
      exact howns hy
    | read stream size =>
      obtain rfl : stream = _ := hhandles
      exact hunread q ⟨task, htask, hlive, hy⟩
    | _ => exact hhandles
  | removal n a =>
    obtain rfl : after = before.removeBonded n a := h
    obtain ⟨acts, hair, hmay⟩ := (before.course_removeBonded n a).exists_acts
    refine ⟨acts, hair, fun y hy hhandles => ?_⟩
    have hy := hmay y hy
    cases y with
    | write stream bytes | shutdown stream | read stream size => cases hy
    | _ => exact hhandles
  | other =>
    obtain ⟨acts, hair, hacts⟩ := KeepsOwned.acts h
    exact ⟨acts, hair, hacts o _ ho⟩

/-- An event that is no step of task `r` leaves it and its `Hidden` sessions alone, if some task
`Lends` to it. -/
theorem lent_of_keepsOwned {task : Task} (h : x.Happens (KeepsOwned t)) (hcause : x.cause ≠ .task r)
    (hw : x.before.Founded) (hlends : x.before.Lends t r) (htask : x.before.tasks[r]? = some task) :
    x.after.tasks[r]? = some task ∧ ∀ s, x.before.Hidden s r →
      x.after.Hidden s r ∧ x.after.sessions[s]? = x.before.sessions[s]? := by
  obtain ⟨cause, before, after⟩ := x
  cases cause with
  | task q =>
    have hne : q ≠ r := fun heq => hcause (heq ▸ rfl)
    exact ⟨(step_apart h).tasks r task (Ne.symm hne) htask, fun s hs => hs.step hw h hne⟩
  | removal n a =>
    obtain rfl : after = before.removeBonded n a := h
    refine ⟨?_, fun s hs => hs.removed hw n a⟩
    rw [tasks_removeBonded]
    exact htask
  | other =>
    obtain ⟨hsame, hhidden⟩ := KeepsOwned.lent h r hlends
    exact ⟨hsame.trans htask, hhidden⟩

/-! ### Connections that are not used yet -/

/-- The end `e` is usable, nobody reads on its link, and it has carried nothing. -/
structure Pristine (events : List Event) (w : World) (e : LinkEnd) : Prop where
  usable : w.air.isUsable e = true
  unread : ∀ q, ¬ w.Fetches q e.link
  blank : carried events e = []

theorem Pristine.concat (h : Pristine events x.before e) (hx : x.Happens (KeepsOwned t))
    (hacts : ∃ acts : List Air.Act, x.after.air = acts.foldl Air.perform x.before.air ∧
      ∀ y ∈ acts, ¬ y.Handles e) : Pristine (events ++ [x]) x.after e := by
  obtain ⟨acts, hair, hacts⟩ := hacts
  refine ⟨hair ▸ Air.isUsable_foldl h.usable hacts, fun q hq => ?_, ?_⟩
  · obtain hq | hle := fetches_of_keepsOwned hx hq
    · exact h.unread q hq
    · obtain ⟨l, hl, -⟩ := Air.isUsable_iff.1 h.usable
      exact Nat.not_lt.2 hle (Array.getElem?_eq_some_iff.1 hl).1
  · rw [carried_of_mute (Event.writes_of_acts hair hacts), h.blank]

/-- An event that is not a step of its owner leaves an end `Pristine`. -/
theorem Pristine.keep (h : Pristine events x.before e) (hx : x.Happens (KeepsOwned t))
    (hw : x.before.Divided) (ho : x.before.Owns o e)
    (hcause : ∀ q, o = .task q → x.cause ≠ .task q) (hside : e.side = .caller) :
    Pristine (events ++ [x]) x.after e :=
  h.concat hx (hw.exists_acts hx ho hcause hside h.unread)

end World

/-! ### Messages that are at hand -/

namespace Outflow

variable {o : Outflow} {left : Bytes}

/-- Where all of a frame is at hand and nothing is pending, `Outflow.next` neither waits nor fails.
-/
theorem next_of_remaining? (h : o.remaining? = some left) (hpending : o.pending = []) :
    (∃ o', o.next = .load o' ∨ o.next = .flush o' ∨ o.next = .shutdown o') ∨ o.next = .done := by
  obtain ⟨message, pending, stage, written⟩ := o
  obtain rfl : pending = [] := hpending
  cases stage with
  | source source => cases h
  | delimiter | message | flush | shutdown => exact .inl (by simp [next])
  | done => exact .inr (by simp [next])

end Outflow

/-- What one step of a send in `.writing` can be if all of its frame is at hand: what it returns,
the acts that it performs, and what it counts. -/
inductive Sending.Stroke (d : Sending) (e : LinkEnd) (rest : Outflow) (deadline : Timer)
    (w : World) : Progress → List Air.Act → List Counted → Prop
  | writes : Stroke d e rest deadline w
      (.going { d with
        stage := .writing e (rest.take (w.air.write e rest.pending).1.count) deadline })
      [.write e rest.pending] []
  | goesOn {rest' : Outflow} (next : rest.next = .load rest' ∨ rest.next = .flush rest') :
      Stroke d e rest deadline w (.going { d with stage := .writing e rest' deadline }) [] []
  | shuts {rest' : Outflow} (next : rest.next = .shutdown rest') :
      Stroke d e rest deadline w (.going { d with stage := .writing e rest' deadline })
        [.shutdown e] []
  | done (next : rest.next = .done) :
      Stroke d e rest deadline w (.ended true) [.drop e] [.frameSent (UInt64.ofNat rest.written)]
  /-- It fails with something pending, and writes none of that. -/
  | fails {acts : List Air.Act} (pending : rest.pending ≠ [])
      (mute : acts = [.drop e] ∨ acts = [.write e rest.pending, .drop e] ∧
        (w.air.write e rest.pending).1.count = 0) :
      Stroke d e rest deadline w (.ended false) acts [.sendFailure]

namespace World

variable {r n : Nat} {w u v : World} {d : Sending} {x : Session} {e : LinkEnd}

/-- The world `u` is what the step of task `r` has made of `w`: it returned `p`, performed `acts`,
and counted `cs` for node `n`. -/
structure Strikes (r n : Nat) (w : World) (p : Sending.Progress) (acts : List Air.Act)
    (cs : List Counted) (u : World) : Prop where
  tasks : u.tasks = (w.concludeSending r p).tasks
  air : u.air = acts.foldl Air.perform w.air
  nodes : u.nodes = (cs.foldl (count · n) w).nodes

theorem step_sending (htask : w.tasks[r]? = some { activity := .sending d }) :
    w.step r = w.stepSending r d := by
  simp only [step, htask, Option.isSome_none, Bool.false_eq_true, if_false, Activity.step]

/-- A send that finds a usable connection in its session begins to write on it, or fails at once
where `Outflow.start` refuses the payload. -/
theorem begins_of_step (hx : w.sessions[d.session]? = some x) (hfree : x.holder = none)
    (hheld : x.held = some e) (husable : w.air.isUsable e = true) (hstage : d.stage = .ready)
    (hs : w.stepSending r d = some u) : ∃ address,
      (∃ rest deadline, Outflow.start d.message d.payload = .ok rest ∧ w.Strikes r x.node
        (.going { d with stage := .writing e rest deadline }) [.cancelDiscovery address] [] u) ∨
      w.Strikes r x.node (.ended false) [.cancelDiscovery address, .drop e] [.sendFailure] u := by
  simp only [stepSending, hx, hstage, hfree] at hs
  split at hs
  · cases hs
  · next node _ =>
    have hfilter : x.held.filter ((w.updateSession d.session fun x =>
        { x with holder := some r }).updateSession d.session fun x =>
          { x with held := none }).air.isUsable = some e := by
      rw [hheld]
      exact Option.filter_some_pos husable
    refine ⟨node.address, ?_⟩
    simp only [takeConnection, hfilter, beginWriting] at hs
    split at hs <;> rw [← Option.some.inj hs]
    · exact .inr ⟨rfl, rfl, rfl⟩
    · next rest hstart => exact .inl ⟨rest, _, hstart, rfl, rfl, rfl⟩

/-- Every step of a send in `.writing` is a `Stroke`, if all of its frame is at hand. -/
theorem strikes_of_step {rest : Outflow} {deadline : Timer} {left : Bytes}
    (hx : w.sessions[d.session]? = some x) (hstage : d.stage = .writing e rest deadline)
    (hleft : rest.remaining? = some left) (hs : w.stepSending r d = some u) :
    ∃ p acts cs, d.Stroke e rest deadline w p acts cs ∧ w.Strikes r x.node p acts cs u := by
  simp only [stepSending, hx, hstage] at hs
  split at hs
  · cases hs
  · by_cases hpending : rest.pending = []
    · obtain ⟨rest', hnext | hnext | hnext⟩ | hnext := Outflow.next_of_remaining? hleft hpending
      all_goals
        simp only [stepWriting, hnext, Option.some.injEq] at hs
        rw [← hs]
      · exact ⟨_, _, _, .goesOn (.inl hnext), rfl, rfl, rfl⟩
      · exact ⟨_, _, _, .goesOn (.inr hnext), rfl, rfl, rfl⟩
      · exact ⟨_, _, _, .shuts hnext, rfl, rfl, rfl⟩
      · exact ⟨_, _, _, .done hnext, rfl, rfl, rfl⟩
    · have hnext : rest.next = .write := if_pos hpending
      simp only [stepWriting, hnext] at hs
      split at hs
      · next count air heq =>
        obtain rfl := Option.some.inj hs
        have hwrites := @Sending.Stroke.writes d e rest deadline w
        rw [heq] at hwrites
        refine ⟨_, _, _, hwrites, rfl, ?_, rfl⟩
        exact (congrArg Prod.snd heq).symm
      · split at hs
        · obtain rfl := Option.some.inj hs
          exact ⟨_, _, _, .fails hpending (.inl rfl), rfl, rfl, rfl⟩
        · cases hs
      · next air heq =>
        obtain rfl := Option.some.inj hs
        refine ⟨_, _, _, .fails hpending (.inr ⟨rfl, by rw [heq]; rfl⟩), rfl, ?_, rfl⟩
        exact congrArg (·.drop e) (congrArg Prod.snd heq).symm

/-- None of the `Stroke`s counts `.announcementSent`. -/
theorem counts_of_stroke {rest : Outflow} {deadline : Timer} {p : Sending.Progress}
    {acts : List Air.Act} {cs : List Counted} (h : d.Stroke e rest deadline w p acts cs) :
    (Gain.counted cs).metrics.announcementsSent = 0 := by
  cases h <;> rfl

/-- No node gains `announcementsSent` by a step that does not count any. -/
theorem Strikes.announcements {p : Sending.Progress} {acts : List Air.Act} {cs : List Counted}
    (h : w.Strikes r n p acts cs u) (hcounted : (Gain.counted cs).metrics.announcementsSent = 0)
    (k : Nat) : (Event.gain k ⟨.task r, w, u⟩).metrics.announcementsSent = 0 := by
  by_cases hk : n = k
  · subst hk
    cases hnode : w.nodes[n]? with
    | none => simp [Event.gain, hnode]
    | some node =>
      have hup : w.CountsUp n cs (cs.foldl (count · n) w) := Aside.refl
      rw [hup.gain (x := ⟨.task r, w, u⟩) hnode rfl h.nodes]
      exact hcounted
  · have hsame : u.nodes[k]? = w.nodes[k]? := by
      rw [h.nodes]
      clear h hcounted
      induction cs generalizing w with
      | nil => rfl
      | cons c cs ih =>
        rw [List.foldl_cons, ih, nodes_count, if_neg hk]
    rw [Event.gain_of_nodes_eq hsame]

end World

/-- With something pending, `e` has carried less than the whole frame. -/
theorem Journal.length_carried_lt {r : Nat} {events : List Event} {d : Sending} {e : LinkEnd}
    {rest : Outflow} {deadline : Timer} (h : Journal r events d)
    (hstage : d.stage = .writing e rest deadline) (hpending : rest.pending ≠ []) :
    (carried events e).length < d.frame.length := by
  obtain ⟨-, -, hframe, -⟩ := h.of_writing hstage
  have hlength := congrArg List.length hframe
  rw [List.length_append, Outflow.remaining, List.length_append] at hlength
  have := List.length_pos_of_ne_nil hpending
  omega

/-- An end that has carried less than `frame` is not `Shut` after it. -/
theorem not_shut_of_length_lt {r : Nat} {events : List Event} {e : LinkEnd} {frame : Bytes}
    (h : (carried events e).length < frame.length) : ¬ Shut r events e frame := by
  rintro ⟨past, x, later, rfl, -, -, hcarried⟩
  rw [carried_append, List.length_append, hcarried] at h
  exact Nat.not_lt.2 (Nat.le_add_right ..) h

/-! ### How far a send has come -/

open World (KeepsOwned Pristine)

/-- How far `Sending.ofMessage s m` has come, the send of a message and of the payload it carries,
over the connection `e` that it finds in a session nobody else knows of. -/
inductive Handing (s r : Nat) (e : LinkEnd) (m : Message) (events : List Event) (w : World) :
    Task → Prop
  /-- It is still `.ready`, the connection is `held` by the session, and `Pristine`. -/
  | ready {x : Session} (session : w.sessions[s]? = some x) (free : x.holder = none)
      (held : x.held = some e) (hidden : w.Hidden s r) (pristine : Pristine events w e)
      (nothing : ∀ e, written r events e = []) :
      Handing s r e m events w
        { activity := .sending ⟨s, m.withoutPayload, m.payload.map .bytes, .ready⟩ }
  | writing {rest : Outflow} {deadline : Timer} {left : Bytes}
      (journal : Journal r events
        ⟨s, m.withoutPayload, m.payload.map .bytes, .writing e rest deadline⟩)
      (left : rest.remaining? = some left) :
      Handing s r e m events w
        { activity := .sending
            ⟨s, m.withoutPayload, m.payload.map .bytes, .writing e rest deadline⟩ }
  | sent {task : Task} (owns : e ∈ task.pens) (out : carried events e = m.frame)
      (shut : Shut r events e m.frame) (outcome : task.outcome = some (.sent true)) :
      Handing s r e m events w task
  | failed {task : Task} (unshut : ¬ Shut r events e m.frame)
      (outcome : task.outcome = some (.sent false)) : Handing s r e m events w task

theorem Sending.frame_ofMessage (s : Nat) (m : Message) (stage : Sending.Stage) :
    Sending.frame ⟨s, m.withoutPayload, m.payload.map .bytes, stage⟩ = m.frame :=
  Outflow.frame_withoutPayload m

namespace Handing

open World (tasks_become tasks_finish lent_of_keepsOwned begins_of_step strikes_of_step
  writes_of_outgoing writes_of_write step_sending moves_of_stepSending)

variable {s r t : Nat} {e : LinkEnd} {m : Message} {events : List Event} {x : Event} {task : Task}
  {w : World}

/-- An event that is no step of task `r` keeps its `Handing`. -/
theorem keep (h : Handing s r e m events x.before task) (htask : x.before.tasks[r]? = some task)
    (hx : x.Happens (KeepsOwned t)) (hcause : x.cause ≠ .task r) (hw : x.before.Divided)
    (hf : x.before.Founded) (hlends : x.before.Lends t r) (hside : e.side = .caller) :
    x.after.tasks[r]? = some task ∧ Handing s r e m (events ++ [x]) x.after task := by
  obtain ⟨htask', hhidden⟩ := lent_of_keepsOwned hx hcause hf hlends htask
  have hmute (he : e ∈ task.pens) : x.writes e = [] :=
    hw.mute (o := .task r) hx ⟨task, htask, he⟩ fun q heq => Owner.task.inj heq ▸ hcause
  refine ⟨htask', ?_⟩
  cases h with
  | @ready y session free held hidden pristine nothing =>
    obtain ⟨hidden', hsame⟩ := hhidden s hidden
    refine .ready (hsame.trans session) free held hidden' ?_ fun e => ?_
    · exact pristine.keep (o := .session s) hx hw ⟨y, session, held⟩ nofun hside
    · rw [written_of_other hcause, nothing]
  | writing journal left =>
    refine .writing (journal.quiet (fun e' he' => ?_) fun heq => absurd heq hcause) left
    obtain rfl := List.mem_singleton.1 he'
    exact hmute List.mem_cons_self
  | sent owns out shut outcome =>
    refine .sent owns ?_ (shut.concat x) outcome
    rw [carried_of_mute (hmute owns), out]
  | failed unshut outcome =>
    exact .failed (fun hshut => unshut (hshut.of_concat hcause)) outcome

/-- A step of task `r` leads from one `Handing` to the next; it records no attempt to connect and
counts no `announcementsSent`. -/
structure Goes (s r : Nat) (e : LinkEnd) (m : Message) (events : List Event) (x : Event)
    (next : Task) : Prop where
  task : x.after.tasks[r]? = some next
  handing : Handing s r e m (events ++ [x]) x.after next
  attempts : ∀ a, x.attempts a = []
  announcements : ∀ k, (x.gain k).metrics.announcementsSent = 0

/-- From `ready` a step leads to `writing`; or to `failed`, where `Outflow.start` refuses the
payload and `e` has carried nothing. -/
theorem step_ready {y : Session} (session : x.before.sessions[s]? = some y) (free : y.holder = none)
    (held : y.held = some e) (pristine : Pristine events x.before e)
    (nothing : ∀ e, written r events e = [])
    (htask : x.before.tasks[r]? = some
      { activity := .sending ⟨s, m.withoutPayload, m.payload.map .bytes, .ready⟩ })
    (hcause : x.cause = .task r) (hs : x.before.step r = some x.after) :
    ∃ next, Goes s r e m events x next := by
  obtain ⟨cause, before, after⟩ := x
  obtain rfl : cause = .task r := hcause
  rw [step_sending htask] at hs
  obtain ⟨address, hbegins⟩ := begins_of_step session free held pristine.usable rfl hs
  have hattempts {p : Sending.Progress} {acts : List Air.Act} {cs : List Counted}
      (hstrikes : before.Strikes r y.node p acts cs after)
      (hnone : ∀ a, acts.flatMap (·.attempts a) = []) (a : Address) :
      Event.attempts a ⟨.task r, before, after⟩ = [] :=
    (Event.attempts_of_acts hstrikes.air a).trans (hnone a)
  obtain ⟨rest, deadline, hstart, hstrikes⟩ | hstrikes := hbegins
  · obtain ⟨-, frame, -, hleft⟩ := Outflow.remaining?_start hstart
    have hmute (e' : LinkEnd) : Event.writes e' ⟨.task r, before, after⟩ = [] := by
      refine writes_of_outgoing ?_
      rw [hstrikes.air]
      exact Air.outgoing_cancelDiscovery address
    have hwaiting : Journal r events
        ⟨s, m.withoutPayload, m.payload.map .bytes, .ready⟩ := .waiting rfl nothing nofun
    exact ⟨_, hstrikes.tasks ▸ tasks_become htask,
      .writing (hwaiting.begins rfl hstart hmute fun _ => pristine.blank) hleft,
      hattempts hstrikes fun _ => rfl, hstrikes.announcements rfl⟩
  · have hmute : Event.writes e ⟨.task r, before, after⟩ = [] := by
      refine writes_of_outgoing ?_
      rw [hstrikes.air]
      exact (Air.outgoing_drop e).trans (Air.outgoing_cancelDiscovery address)
    have hpart : (carried (events ++ [⟨.task r, before, after⟩]) e).length < m.frame.length := by
      rw [carried_of_mute hmute, pristine.blank]
      exact List.length_pos_of_ne_nil (List.append_ne_nil_of_right_ne_nil _ m.wire_ne_nil)
    exact ⟨_, hstrikes.tasks ▸ tasks_finish htask, .failed (not_shut_of_length_lt hpart) rfl,
      hattempts hstrikes fun _ => rfl, hstrikes.announcements rfl⟩

/-- From `writing` every `Stroke` leads to `writing`, `sent` or `failed`. -/
theorem step_writing {rest : Outflow} {deadline : Timer} {left : Bytes}
    (journal : Journal r events
      ⟨s, m.withoutPayload, m.payload.map .bytes, .writing e rest deadline⟩)
    (hleft : rest.remaining? = some left)
    (htask : x.before.tasks[r]? = some
      { activity := .sending
          ⟨s, m.withoutPayload, m.payload.map .bytes, .writing e rest deadline⟩ })
    (hcause : x.cause = .task r) (hs : x.before.step r = some x.after) :
    ∃ next, Goes s r e m events x next := by
  obtain ⟨cause, before, after⟩ := x
  obtain rfl : cause = .task r := hcause
  rw [step_sending htask] at hs
  obtain ⟨y, node, hy, -, -⟩ := moves_of_stepSending hs
  obtain ⟨p, acts, cs, hstroke, hstrikes⟩ := strikes_of_step hy rfl hleft hs
  have hgain := hstrikes.announcements (World.counts_of_stroke hstroke)
  have hair := hstrikes.air
  have hattempts (hnone : ∀ a, acts.flatMap (·.attempts a) = []) (a : Address) :
      Event.attempts a ⟨.task r, before, after⟩ = [] :=
    (Event.attempts_of_acts hair a).trans (hnone a)
  have hgoes {d' : Sending} (hp : p = .going d') :
      after.tasks[r]? = some { activity := .sending d' } := by
    rw [hstrikes.tasks, hp]
    exact tasks_become htask
  have hends {ok : Bool} (hp : p = .ended ok) : after.tasks[r]? = some
      { activity := .sending
          ⟨s, m.withoutPayload, m.payload.map .bytes, .writing e rest deadline⟩
        outcome := some (.sent ok) } := by
    rw [hstrikes.tasks, hp]
    exact tasks_finish htask
  cases hstroke with
  | writes =>
    have hcount := before.air.count_write_le e rest.pending
    exact ⟨_, hgoes rfl, .writing (journal.writes rfl rfl (writes_of_write hair))
      (Outflow.remaining?_take hcount hleft), hattempts fun _ => rfl, hgain⟩
  | @goesOn rest' next =>
    have next' :
        rest.next = .load rest' ∨ rest.next = .flush rest' ∨ rest.next = .shutdown rest' :=
      next.imp_right .inl
    refine ⟨_, hgoes rfl, .writing (journal.goesOn rfl next' rfl ?_ fun hnext => ?_)
      (Outflow.remaining?_next next' hleft).1, hattempts fun _ => rfl, hgain⟩
    · exact fun e' => writes_of_outgoing (by rw [hair]; rfl)
    · obtain hnext' | hnext' := next <;> cases hnext.symm.trans hnext'
  | @shuts rest' next =>
    have next' :
        rest.next = .load rest' ∨ rest.next = .flush rest' ∨ rest.next = .shutdown rest' :=
      .inr (.inr next)
    refine ⟨_, hgoes rfl, .writing (journal.goesOn rfl next' rfl ?_ fun _ => hair)
      (Outflow.remaining?_next next' hleft).1, hattempts fun _ => rfl, hgain⟩
    refine fun e' => writes_of_outgoing ?_
    rw [hair]
    exact Air.outgoing_shutdown e
  | done next =>
    have hturn := rest.turn_next
    rw [next] at hturn
    cases hturn with
    | done remaining done =>
      -- the frame is out and the pipe shut down by an earlier step: this one only lets go of the
      -- end
      have hmute : Event.writes e ⟨.task r, before, after⟩ = [] := by
        refine writes_of_outgoing ?_
        rw [hair]
        exact Air.outgoing_drop e
      obtain ⟨-, hout, hshut⟩ := journal.whole_of_isOut ⟨rest, deadline, rfl, done, remaining⟩
      rw [Sending.frame_ofMessage] at hout hshut
      refine ⟨_, hends rfl, .sent List.mem_cons_self ?_ (hshut.concat _) rfl,
        hattempts fun _ => rfl, hgain⟩
      rw [carried_of_mute hmute]
      exact hout
  | fails pending mute =>
    -- what it gives up with, it has not written
    have hmute : Event.writes e ⟨.task r, before, after⟩ = [] := by
      refine writes_of_outgoing ?_
      obtain rfl | ⟨rfl, hcount⟩ := mute
      · rw [hair]
        exact Air.outgoing_drop e
      · rw [hair]
        refine (Air.outgoing_drop e).trans ?_
        rw [Air.perform, Air.outgoing_write, hcount, if_pos rfl, List.take_zero, List.append_nil]
    have hnone (a : Address) : acts.flatMap (·.attempts a) = [] := by
      obtain rfl | ⟨rfl, -⟩ := mute <;> rfl
    have hpart := journal.length_carried_lt rfl pending
    rw [Sending.frame_ofMessage, ← carried_of_mute hmute] at hpart
    exact ⟨_, hends rfl, .failed (not_shut_of_length_lt hpart) rfl, hattempts hnone, hgain⟩

/-- Every step of task `r` satisfies `Goes`. -/
theorem step (h : Handing s r e m events x.before task) (htask : x.before.tasks[r]? = some task)
    (hcause : x.cause = .task r) (hs : x.before.step r = some x.after) :
    ∃ next, Goes s r e m events x next := by
  cases h with
  | ready session free held _ pristine nothing =>
    exact step_ready session free held pristine nothing htask hcause hs
  | writing journal left => exact step_writing journal left htask hcause hs
  | sent _ _ _ outcome | failed _ outcome => simp [World.step, htask, outcome] at hs

/-- A send is no `Accepting`. -/
theorem underWay? (h : Handing s r e m events w task) (htask : w.tasks[r]? = some task) :
    w.underWay? r = none := by
  rw [World.underWay?, htask]
  cases h with
  | ready | writing => rfl
  | sent _ _ _ outcome | failed _ outcome => simp [outcome]

/-- With an outcome `.sent ok`, `ok` is true if and only if `e` has carried all of `m.frame` and was
`Shut` after it. -/
theorem outcome_iff {ok : Bool} (h : Handing s r e m events w task)
    (ho : task.outcome = some (.sent ok)) : ok = true ↔
      carried events e = m.frame ∧ Shut r events e m.frame := by
  cases h with
  | ready | writing => cases ho
  | sent owns out shut outcome =>
    cases outcome.symm.trans ho
    exact ⟨fun _ => ⟨out, shut⟩, fun _ => rfl⟩
  | failed unshut outcome =>
    cases outcome.symm.trans ho
    exact ⟨nofun, fun h => absurd h.2 unshut⟩

/-- The outcome of the task is `.sent ok` for some `ok`. -/
theorem exists_sent {o : Outcome} (h : Handing s r e m events w task)
    (ho : task.outcome = some o) : ∃ ok, o = .sent ok := by
  cases h with
  | ready | writing => cases ho
  | sent _ _ _ outcome | failed _ outcome =>
    cases outcome.symm.trans ho
    exact ⟨_, rfl⟩

/-- Where `step` returns `none`, some of `m.frame` is still to be carried, and the deadline of the
write is yet to come. -/
theorem step_eq_none (h : Handing s r e m events w task) (htask : w.tasks[r]? = some task)
    (hlive : task.outcome = none) {y : Session} {node : Node} (hy : w.sessions[s]? = some y)
    (hnode : w.nodes[y.node]? = some node) (hnone : w.step r = none) :
    (carried events e).length < m.frame.length ∧
      ∃ timer, w.timer? r = some timer ∧ w.now < timer.due := by
  cases h with
  | ready session free =>
    rw [step_sending htask] at hnone
    cases session.symm.trans hy
    simp [World.stepSending, session, hnode, free] at hnone
  | @writing rest deadline left journal hleft =>
    rw [step_sending htask] at hnone
    simp only [World.stepSending, hy, hnode] at hnone
    by_cases hpending : rest.pending = []
    · obtain ⟨rest', hnext | hnext | hnext⟩ | hnext := Outflow.next_of_remaining? hleft hpending <;>
        simp [World.stepWriting, hnext] at hnone
    · have hpart := journal.length_carried_lt rfl hpending
      rw [Sending.frame_ofMessage] at hpart
      refine ⟨hpart, deadline, ?_, ?_⟩
      · rw [World.timer?, htask]
        rfl
      · have hnext : rest.next = .write := if_pos hpending
        simp only [World.stepWriting, hnext] at hnone
        split at hnone
        · cases hnone
        · split at hnone
          · cases hnone
          · next hdue => simpa [World.isDue] using hdue
        · cases hnone
  | sent _ _ _ outcome | failed _ outcome => cases hlive.symm.trans outcome

end Handing
end RadioLink

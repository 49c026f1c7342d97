import RadioLink.Proofs.World.Announcing

/-!
# Announcing from the beginning to the end

Whatever becomes of the bond and of each attempt, a task that announces its node makes no more than
`announce.attempts` attempts, the send over the connection included, and none but in a step in which
`Air.isBonded` is true. Its outcome is `.sent true` if and only if the whole `announcement.frame`
has been carried on the connection, which was shut down after it, and `announcementsSent` is counted
just then. `Announcing.Record` is all that every event keeps, and `Announcing.Report` what that
comes to.
-/

namespace RadioLink

open World (KeepsOwned History step_apart)

/-- A step of task `t` has started task `r`. -/
def Starts (t : Nat) (events : List Event) (r : Nat) : Prop :=
  ∃ x ∈ events, x.cause = .task t ∧ x.before.tasks.size ≤ r ∧ r < x.after.tasks.size

theorem starts_concat {t : Nat} {events : List Event} {x : Event} {r : Nat} :
    Starts t (events ++ [x]) r ↔
      Starts t events r ∨ x.cause = .task t ∧ x.before.tasks.size ≤ r ∧ r < x.after.tasks.size := by
  simp [Starts, or_and_right, exists_or]

/-- A property of all `events` and of `x` is one of all of `events ++ [x]`. -/
theorem forall_concat {P : Event → Prop} {events : List Event} {x : Event}
    (h : ∀ y ∈ events, P y) (hx : P x) : ∀ y ∈ events ++ [x], P y := by
  intro y hy
  rcases List.mem_append.1 hy with hy | hy
  · exact h y hy
  · rwa [List.mem_singleton.1 hy]

/-- The `registry` of node `n`. -/
def World.registry? (w : World) (n : Nat) : Option (Table Address Nat) :=
  w.nodes[n]?.map (·.registry)

theorem World.registry?_of_linkage {w w' : World} {n : Nat} (h : w'.linkage? n = w.linkage? n) :
    w'.registry? n = w.registry? n := by
  have := congrArg (Option.map (·.registry)) h
  rwa [linkage?, linkage?, Option.map_map, Option.map_map] at this

namespace Announcing

variable {k node : Node} {n t : Nat} {target : Address} {events : List Event} {x : Event}
  {task : Task} {w v : World} {tries : List Try} {hand : Option (Nat × LinkEnd)} {left : Nat}

/-! ### What every event keeps -/

/-- What the world keeps to for node `n`: it is `Divided` and `Founded`, and nothing was carried on
a link, nor any step taken by a task, before there was one. -/
structure Ground (k : Node) (n : Nat) (events : List Event) (w : World) : Prop where
  settings : w.settings? n = some k
  divided : w.Divided
  founded : w.Founded
  beyond : ∀ e, w.air.links.size ≤ e.link → carried events e = []
  unborn : ∀ r, w.tasks.size ≤ r → ∀ y ∈ events, y.cause ≠ .task r

theorem Ground.concat (h : Ground k n events x.before) (hx : x.Happens (KeepsOwned t))
    (hsettings : x.after.settings? n = x.before.settings? n) :
    Ground k n (events ++ [x]) x.after where
  settings := hsettings.trans h.settings
  divided := h.divided.next hx
  founded := h.founded.next hx
  beyond e he := by
    rw [carried_of_mute (Event.writes_of_size he)]
    exact h.beyond e (Nat.le_trans (World.links_size_le_of_keepsOwned hx) he)
  unborn r hr := by
    have hle := Nat.le_trans (World.tasks_size_le_of_keepsOwned hx) hr
    refine forall_concat (h.unborn r hle) fun hcause => ?_
    obtain ⟨task, htask, -⟩ := World.exists_advances (hx.step hcause)
    exact Nat.not_lt.2 hle (Array.getElem?_eq_some_iff.1 htask).1

/-- All that is known of a task that announces node `n` to `target`, after some events. -/
structure Record (k : Node) (n t : Nat) (target : Address) (events : List Event) (w : World)
    (task : Task) (tries : List Try) (hand : Option (Nat × LinkEnd)) (left : Nat) : Prop where
  ground : Ground k n events w
  own : w.tasks[t]? = some task
  standing : Standing k n t target events w task tries hand left
  attempts : ∀ a, attempted t a events = (dial k target).attempts a tries
  share : share n t events = .counted (tries.flatMap Try.counts ++ announced task)
  gated : ∀ y ∈ events, y.cause = .task t → (∀ a, y.attempts a = []) ∨
    y.before.air.isBonded k.address target = true ∧
      ∀ a, y.attempts a
        = if k.address = a then [(target, .service k.config.service.uuid)] else []
  stops : ∀ y ∈ events, y.cause = .task t → y.before.Checks t →
    y.before.air.isBonded k.address target = false →
      y.after.outcome? t = some (.sent false) ∧ task.outcome = some (.sent false)
  linkage : ∀ y ∈ events, y.cause = .task t → ∀ m, y.after.linkage? m = y.before.linkage? m
  starts : ∀ r, Starts t events r ↔ ∃ e, hand = some (r, e)
  steps : events.countP (·.cause = .task t) + left ≤ 3 * k.config.announce.attempts + 1

/-- With the task at its beginning and no events there is a `Record`. -/
theorem Record.start (hnode : w.nodes[n]? = some node)
    (htask : w.tasks[t]? = some { activity := .announcing { node := n, target } })
    (hw : w.Divided) (hf : w.Founded) : Record node.settings n t target [] w
      { activity := .announcing { node := n, target } } [] none
      (3 * node.config.announce.attempts + 1) where
  ground :=
    { settings := by rw [World.settings?, hnode, Option.map_some]
      divided := hw
      founded := hf
      beyond := fun _ _ => rfl
      unborn := fun _ _ => nofun }
  own := htask
  standing := .ready (List.forall_mem_nil _) (.inl rfl)
  attempts a := by simp [attempted, Dial.attempts]
  share := rfl
  gated := nofun
  stops := nofun
  linkage := nofun
  starts r := by simp [Starts]
  steps := by
    rw [List.countP_nil, Nat.zero_add]
    exact Nat.le_refl _

/-- A step of task `t` leads from one `Record` to the next. -/
theorem Record.step (h : Record k n t target events x.before task tries hand left)
    (hx : x.Happens (KeepsOwned t)) (hcause : x.cause = .task t) :
    ∃ task' tries' hand' left',
      Record k n t target (events ++ [x]) x.after task' tries' hand' left' := by
  have hs := hx.step hcause
  have hapart := step_apart hs
  obtain ⟨next, tries', hand', left', hgoes⟩ := h.standing.step h.own h.ground.settings hcause hx
    h.ground.divided h.ground.founded h.ground.beyond (h.ground.unborn _ (Nat.le_refl _))
  have hlive : task.outcome = none := by
    obtain ⟨task', htask', hlive, -⟩ := World.exists_advances hs
    cases h.own.symm.trans htask'
    exact hlive
  refine ⟨next, tries', hand', left', h.ground.concat hx (hapart.settings n), hgoes.task,
    hgoes.standing, fun a => ?_, ?_, ?_, ?_, ?_, fun r => ?_, ?_⟩
  · rw [attempted_concat, if_pos hcause, h.attempts, hgoes.yields.attempts]
  · obtain ⟨cs, hcs, hgain⟩ := hgoes.yields.gain
    have hnothing : announced task = [] := by rw [announced, hlive]
    rw [share_concat, if_pos hcause, h.share, hnothing, List.append_nil, hgain, Gain.counted_add,
      hcs]
  · exact forall_concat h.gated fun _ => hgoes.gated
  · -- a task that has stopped takes no more steps
    refine forall_concat (fun y hy hcause' hchecks hunbonded => ?_) fun _ hchecks hunbonded => ?_
    · cases hlive.symm.trans (h.stops y hy hcause' hchecks hunbonded).2
    · have hover := hgoes.stops hchecks hunbonded
      rw [World.outcome?, hgoes.task]
      exact ⟨hover, hover⟩
  · refine forall_concat h.linkage fun _ m => hapart.linkage m ?_
    simp [h.standing.underWay? h.own]
  · rw [starts_concat, h.starts]
    obtain ⟨hsize, rfl⟩ | ⟨rfl, hsize, e, rfl⟩ := hgoes.starts
    · rw [hsize]
      exact or_iff_left fun h => absurd h.2.2 (Nat.not_lt.2 h.2.1)
    · -- the only new task has the first number that was free
      rw [hsize]
      constructor
      · rintro (⟨e, he⟩ | ⟨-, hle, hlt⟩)
        · cases he
        · exact ⟨e, by rw [Nat.le_antisymm (Nat.le_of_lt_succ hlt) hle]⟩
      · rintro ⟨e', he⟩
        cases he
        exact .inr ⟨hcause, Nat.le_refl _, Nat.lt_succ_self _⟩
  · have hless := hgoes.less
    have hsteps := h.steps
    rw [List.countP_append, List.countP_singleton, if_pos (by simpa using hcause)]
    omega

/-- An event that is no step of task `t` keeps its `Record`. -/
theorem Record.keep (h : Record k n t target events x.before task tries hand left)
    (hx : x.Happens (KeepsOwned t)) (hcause : x.cause ≠ .task t) :
    Record k n t target (events ++ [x]) x.after task tries hand left where
  ground := h.ground.concat hx ((World.keepsTask_of_keepsOwned hx hcause h.own).settings n)
  own := (World.keepsTask_of_keepsOwned hx hcause h.own).task.trans h.own
  standing := h.standing.keep h.own hx hcause h.ground.divided h.ground.founded
  attempts a := by rw [attempted_of_other events hcause, h.attempts]
  share := by rw [share_concat, if_neg hcause, h.share]
  gated := forall_concat h.gated fun heq => absurd heq hcause
  stops := forall_concat h.stops fun heq => absurd heq hcause
  linkage := forall_concat h.linkage fun heq => absurd heq hcause
  starts r := by
    rw [starts_concat, h.starts]
    exact or_iff_left fun h => hcause h.1
  steps := by
    rw [List.countP_append, List.countP_singleton, if_neg (by simpa using hcause)]
    exact h.steps

/-! ### What it comes to -/

/-- What has become in the course of `events` of a task that announces node `n` to `target`, with
its attempts `tries`, and with the task and the end in `hand` that the announcement is sent by and
on, if it has come to that. -/
structure Report (node : Node) (n t : Nat) (target : Address) (events : List Event) (v : World)
    (tries : List Try) (hand : Option (Nat × LinkEnd)) : Prop where
  most : tries.length ≤ node.config.announce.attempts
  /-- Every attempt that has a next one has failed. -/
  failed : ∀ i y, tries[i]? = some y → i + 1 < tries.length → y.failed = true
  /-- The radio of `node` records one attempt for each of the `tries`, all for the service, and no
  other. -/
  recorded : ∀ a, attempted t a events = if node.address = a then
    .replicate tries.length (target, .service node.config.service.uuid) else []
  /-- A step that records an attempt has found `isBonded` true. -/
  gated : ∀ y ∈ events, y.cause = .task t → ∀ a, y.attempts a ≠ [] →
    y.before.air.isBonded node.address target = true ∧ a = node.address ∧
      y.attempts a = [(target, .service node.config.service.uuid)]
  /-- A step that looks at the bond and finds `isBonded` false records no attempt, and `.sent false`
  is the outcome from then on. -/
  stops : ∀ y ∈ events, y.cause = .task t → y.before.Checks t →
    y.before.air.isBonded node.address target = false → (∀ a, y.attempts a = []) ∧
      y.after.outcome? t = some (.sent false) ∧ v.outcome? t = some (.sent false)
  /-- The only task that is started is the one in `hand`, for the end that the peer was reached on.
  -/
  starts : ∀ r, Starts t events r ↔ ∃ e, hand = some (r, e)
  reaches : ∀ r e, hand = some (r, e) → Reaches node target t events e
  /-- The task in `hand` records no attempt and counts no announcement. -/
  confined : ∀ r e, hand = some (r, e) → Confined r events
  /-- The outcome `.sent ok` is true if and only if the end in `hand` has carried the whole
  `announcement.frame` and was `Shut` after it. -/
  sent : ∀ ok, v.outcome? t = some (.sent ok) → (ok = true ↔ ∃ r e, hand = some (r, e) ∧
    carried events e = node.app.announcement.frame ∧
    Shut r events e node.app.announcement.frame)
  /-- Any outcome is `.sent ok`, or `.aborted` where the application fails to make an announcement.
  -/
  ends : ∀ o, v.outcome? t = some o →
    (∃ ok, o = .sent ok) ∨ o = .aborted ∧ node.app.faulty = some .announce
  /-- What `share` says is `connectAttempts`, `connectFailures`, and one of `announcementsSent` if
  the outcome is `.sent true`. -/
  counted : share n t events = { metrics := {
    connectAttempts := .ofNat tries.length, connectFailures := .ofNat (tries.countP (·.failed))
    announcementsSent := if v.outcome? t = some (.sent true) then 1 else 0 } }
  /-- No step of the task or of the one in `hand` changes the registry of any node. -/
  registries : ∀ y ∈ events, y.cause = .task t ∨ (∃ r e, hand = some (r, e) ∧ y.cause = .task r) →
    ∀ m, y.after.registry? m = y.before.registry? m
  /-- Where `step t` is `none`, its timer is yet to come; or the task in `hand` can go on, or has
  carried less than the frame and its timer is yet to come. -/
  waits : v.outcome? t = none → v.step t = none →
    (∃ timer, v.timer? t = some timer ∧ v.now < timer.due) ∨
    ∃ r e, hand = some (r, e) ∧ (v.step r ≠ none ∨
      (carried events e).length < node.app.announcement.frame.length ∧
        ∃ timer, v.timer? r = some timer ∧ v.now < timer.due)
  /-- The task takes no more than `3 * announce.attempts + 1` steps. -/
  steps : events.countP (·.cause = .task t) ≤ 3 * node.config.announce.attempts + 1

/-- All of `tries` look up the service, and every one that has a next one has failed. -/
theorem Standing.most (h : Standing k n t target events w task tries hand left) :
    tries.length ≤ k.config.announce.attempts ∧
    (∀ y ∈ tries, y.endpoint = .service k.config.service.uuid) ∧
    ∀ i y, tries[i]? = some y → i + 1 < tries.length → y.failed = true := by
  have hall {tries : List Try} (failed : Failed k tries)
      (most : tries.length ≤ k.config.announce.attempts) :
      tries.length ≤ k.config.announce.attempts ∧
      (∀ y ∈ tries, y.endpoint = .service k.config.service.uuid) ∧
      ∀ i y, tries[i]? = some y → i + 1 < tries.length → y.failed = true :=
    ⟨most, fun y hy => (failed y hy).2, fun i y hy _ => (failed y (List.mem_of_getElem? hy)).1⟩
  have hlast {past : List Try} {y : Try} (failed : Failed k past)
      (most : past.length < k.config.announce.attempts)
      (hy : y.endpoint = .service k.config.service.uuid) :
      (past ++ [y]).length ≤ k.config.announce.attempts ∧
      (∀ z ∈ past ++ [y], z.endpoint = .service k.config.service.uuid) ∧
      ∀ i z, (past ++ [y])[i]? = some z → i + 1 < (past ++ [y]).length → z.failed = true := by
    refine ⟨?_, fun z hz => ?_, fun i z hz hlt => ?_⟩
    · rw [List.length_append]
      exact most
    · rcases List.mem_append.1 hz with hz | hz
      · exact (failed z hz).2
      · rwa [List.mem_singleton.1 hz]
    · rw [List.length_append, List.length_singleton] at hlt
      rw [List.getElem?_append_left (Nat.lt_of_succ_lt_succ hlt)] at hz
      exact (failed z (List.mem_of_getElem? hz)).1
  cases h with
  | ready failed most =>
    refine hall failed ?_
    obtain rfl | hlt := most
    · exact Nat.zero_le _
    · exact Nat.le_of_lt hlt
  | pausing failed most => exact hall failed (Nat.le_of_lt most)
  | unsent failed most => exact hall failed most
  | calling failed most | sending failed most | settled failed most | aborted failed most =>
    exact hlast failed most rfl

theorem Standing.delegated {r : Nat} {e : LinkEnd}
    (h : Standing k n t target events w task tries (some (r, e)) left) :
    ∃ s sender, Delegated k target n t s r e events w sender := by
  cases h with
  | sending _ _ delegated | settled _ _ delegated => exact ⟨_, _, delegated⟩

/-- For a task with the outcome `.sent ok`, `ok` is true if and only if the end in `hand` has
carried the whole frame and was `Shut` after it. -/
theorem Standing.sent {ok : Bool} (h : Standing k n t target events w task tries hand left)
    (ho : task.outcome = some (.sent ok)) : ok = true ↔ ∃ r e, hand = some (r, e) ∧
      carried events e = k.app.announcement.frame ∧ Shut r events e k.app.announcement.frame := by
  cases h with
  | settled _ _ delegated outcome =>
    cases ho
    rw [delegated.handing.outcome_iff outcome]
    constructor
    · exact fun h => ⟨_, _, rfl, h⟩
    · rintro ⟨_, _, heq, h⟩
      cases heq
      exact h
  | unsent _ _ outcome =>
    cases outcome.symm.trans ho
    exact ⟨nofun, fun ⟨_, _, heq, _⟩ => nomatch heq⟩
  | aborted _ _ _ outcome => cases outcome.symm.trans ho
  | ready | calling | pausing | sending => cases ho

theorem Standing.ends {o : Outcome} (h : Standing k n t target events w task tries hand left)
    (ho : task.outcome = some o) :
    (∃ ok, o = .sent ok) ∨ o = .aborted ∧ k.app.faulty = some .announce := by
  cases h with
  | settled _ _ _ outcome | unsent _ _ outcome =>
    cases ho.symm.trans (by first | exact outcome | rfl)
    exact .inl ⟨_, rfl⟩
  | aborted _ _ faulty outcome =>
    cases outcome.symm.trans ho
    exact .inr ⟨rfl, faulty⟩
  | ready | calling | pausing | sending => cases ho

/-- A task that cannot go on waits for its timer, or for the task in `hand`. -/
theorem Standing.waits (h : Standing k n t target events w task tries hand left)
    (htask : w.tasks[t]? = some task) (hnode : w.settings? n = some k)
    (hlive : task.outcome = none) (hstep : w.step t = none) :
    (∃ timer, w.timer? t = some timer ∧ w.now < timer.due) ∨
    ∃ r e, hand = some (r, e) ∧ (w.step r ≠ none ∨
      (carried events e).length < k.app.announcement.frame.length ∧
        ∃ timer, w.timer? r = some timer ∧ w.now < timer.due) := by
  obtain ⟨node, hthere, rfl⟩ := Option.map_eq_some_iff.1 hnode
  have hnone {attempt : Nat} {stage : Stage}
      (htask : w.tasks[t]? = some { activity := .announcing ⟨n, target, attempt, stage⟩ }) :
      (∃ call, stage = .calling call ∧ w.now < call.deadline.due) ∨
      (∃ timer, stage = .pausing timer ∧ w.now < timer.due) ∨
      ∃ r, stage = .sending r ∧ w.outcome? r = none := by
    rw [World.step_announcing htask] at hstep
    exact step_eq_none hthere (World.stepAnnouncing_eq_none hstep)
  have htimer : w.timer? t = task.activity.timer? := by
    rw [World.timer?, htask, Option.bind_some, hlive]
    rfl
  cases h with
  | ready =>
    obtain ⟨_, hstage, -⟩ | ⟨_, hstage, -⟩ | ⟨_, hstage, -⟩ := hnone htask <;> cases hstage
  | calling =>
    obtain ⟨_, hstage, hlt⟩ | ⟨_, hstage, -⟩ | ⟨_, hstage, -⟩ := hnone htask <;> cases hstage
    exact .inl ⟨_, htimer, hlt⟩
  | pausing =>
    obtain ⟨_, hstage, -⟩ | ⟨_, hstage, hlt⟩ | ⟨_, hstage, -⟩ := hnone htask <;> cases hstage
    exact .inl ⟨_, htimer, hlt⟩
  | @sending _ _ _ s r e sender _ _ delegated =>
    refine .inr ⟨r, e, rfl, ?_⟩
    obtain ⟨_, hstage, -⟩ | ⟨_, hstage, -⟩ | ⟨r', hstage, houtcome⟩ := hnone htask <;> cases hstage
    have hsender : sender.outcome = none := by
      rw [World.outcome?, delegated.task] at houtcome
      exact houtcome
    by_cases hsend : w.step r = none
    · obtain ⟨y, hy, hn⟩ := delegated.site
      obtain ⟨z, hz, rfl⟩ := Option.map_eq_some_iff.1 hy
      have hnode : w.nodes[z.node]? = some node := by
        rw [← hthere, ← hn]
        rfl
      exact .inr (delegated.handing.step_eq_none delegated.task hsender hz hnode hsend)
    · exact .inl hsend
  | settled => cases hlive
  | unsent _ _ outcome | aborted _ _ _ outcome => cases hlive.symm.trans outcome

/-- A `Record` gives a `Report`. -/
theorem Record.report (h : Record node.settings n t target events v task tries hand left) :
    Report node n t target events v tries hand := by
  obtain ⟨hmost, hservice, hfailed⟩ := h.standing.most
  have houtcome : v.outcome? t = task.outcome := by rw [World.outcome?, h.own, Option.bind_some]
  refine ⟨hmost, hfailed, fun a => ?_, fun y hy hcause a hne => ?_,
    fun y hy hcause hchecks hno => ?_, h.starts, ?_, ?_,
    fun ok ho => h.standing.sent (houtcome ▸ ho),
    fun o ho => h.standing.ends (houtcome ▸ ho), ?_, fun y hy hcause m => ?_,
    fun hlive hstep => ?_, Nat.le_of_add_right_le h.steps⟩
  · rw [h.attempts, Dial.attempts]
    refine if_congr Iff.rfl ?_ rfl
    refine List.eq_replicate_iff.2 ⟨List.length_map .., fun z hz => ?_⟩
    obtain ⟨y, hy, rfl⟩ := List.mem_map.1 hz
    exact Prod.ext rfl (hservice y hy)
  · obtain hnone | ⟨hbonded, hattempts⟩ := h.gated y hy hcause
    · exact absurd (hnone a) hne
    · have hattempts := hattempts a
      split at hattempts
      · next heq => exact ⟨hbonded, heq.symm, hattempts⟩
      · exact absurd hattempts hne
  · obtain ⟨hafter, hover⟩ := h.stops y hy hcause hchecks hno
    refine ⟨?_, hafter, houtcome.trans hover⟩
    obtain hnone | ⟨hbonded, -⟩ := h.gated y hy hcause
    · exact hnone
    · cases hbonded.symm.trans hno
  · rintro r e rfl
    obtain ⟨s, sender, hdelegated⟩ := h.standing.delegated
    obtain ⟨hside, hcalled, hanswered⟩ := hdelegated.reaches
    exact ⟨hside, hcalled, hanswered⟩
  · rintro r e rfl
    obtain ⟨s, sender, hdelegated⟩ := h.standing.delegated
    exact hdelegated.confined
  · rw [h.share, houtcome, Gain.counted, Metrics.total_append, Try.total_counts]
    -- the one counter that no attempt accounts for is `announcementsSent`
    have hannounced : Metrics.total (announced task)
        = { announcementsSent := if task.outcome = some (.sent true) then 1 else 0 } := by
      unfold announced
      split
      · next ho => rw [if_pos ho]; rfl
      · next hne => rw [if_neg hne]; rfl
    rw [hannounced]
    refine Gain.ext ?_ rfl rfl
    show Metrics.zip _ _ _ = _
    simp only [Metrics.zip, UInt64.add_zero, UInt64.zero_add]
  · refine World.registry?_of_linkage ?_
    obtain hcause | ⟨r, e, rfl, hcause⟩ := hcause
    · exact h.linkage y hy hcause m
    · obtain ⟨s, sender, hdelegated⟩ := h.standing.delegated
      exact hdelegated.confined.linkage y hy hcause m
  · exact h.standing.waits h.own h.ground.settings (houtcome ▸ hlive) hstep

end Announcing

namespace World

open Announcing (Record)

variable {n t : Nat} {w v : World} {target : Address} {node : Node} {events : List Event}

theorem History.record (hnode : w.nodes[n]? = some node)
    (htask : w.tasks[t]? = some { activity := .announcing { node := n, target } })
    (hw : w.Divided) (hf : w.Founded) (h : History (KeepsOwned t) w events v) :
    ∃ task tries hand left, Record node.settings n t target events v task tries hand left := by
  induction h with
  | start => exact ⟨_, _, _, _, .start hnode htask hw hf⟩
  | @next events x _ happens ih =>
    obtain ⟨task, tries, hand, left, h⟩ := ih
    by_cases hcause : x.cause = .task t
    · exact h.step happens hcause
    · exact ⟨task, tries, hand, left, h.keep happens hcause⟩

/-- **Announcing is bounded, and only bonded peers are called.** For every configuration, and
whatever becomes of the bond and of each attempt in the course of `h`, a task that announces node
`n` to `target` has a `Report`: at most `announce.attempts` attempts, each in a step that has found
`isBonded` true; the outcome `.sent false` at the first that has found it false; `.sent true` if and
only if the whole `announcement.frame` was carried and the connection shut down after it; one of
`announcementsSent` just then; and the registries as they were. -/
theorem announces_bonded (hnode : w.nodes[n]? = some node)
    (htask : w.tasks[t]? = some { activity := .announcing { node := n, target } })
    (hw : w.Divided) (hf : w.Founded) (h : History (KeepsOwned t) w events v) :
    ∃ tries hand, Announcing.Report node n t target events v tries hand := by
  obtain ⟨task, tries, hand, left, hrecord⟩ := h.record hnode htask hw hf
  exact ⟨tries, hand, hrecord.report⟩

/-- The first attempt fails, and the second one, after the pause, reaches the peer; by then the bond
is gone, which stops nothing any more. -/
theorem announces_bonded_second :
    let a : Address := ⟨#v[2, 0, 0, 0, 0, 1]⟩
    let b : Address := ⟨#v[2, 0, 0, 0, 0, 2]⟩
    let node : Node :=
      { address := a, config := {},
        app := { deviceId := "p", secret := Vector.replicate 32 0,
                 announcement := .identity 5 "p" "Phone" "phone" } }
    let w : World :=
      { nodes := #[node]
        air := [.switchOn a, .switchOn b, .bond a b, .failNext a 1,
          .listen b (.service node.config.service.uuid)].foldl Air.perform {}
        tasks := #[{ activity := .announcing { node := 0, target := b } },
          { activity := .serving { listener := 1, content := [], hold := true } }] }
    ∃ events v tries hand, w.History (KeepsOwned 0) events v ∧
      Announcing.Report node 0 0 b events v tries hand ∧
      v.outcome? 0 = some (.sent true) ∧ v.now = 500 ∧ v.air.isBonded a b = false := by
  intro a b node w
  let second : List Cause := [.task 0, .task 0]
  let third : List Cause := [.task 1, .task 0] ++ .replicate 6 (.task 2) ++ [.task 0]
  have hrun : (w.replay? [.task 0]).bind (fun r =>
      (replay? { r.2 with now := 500 } second).bind fun r' =>
        (replay? { r'.2 with air := [.unbond a b].foldl Air.perform r'.2.air } third).map fun r'' =>
          decide (r''.2.outcome? 0 = some (.sent true) ∧ r''.2.now = 500 ∧
            r''.2.air.isBonded a b = false))
      = some true := by
    decide +kernel
  obtain ⟨⟨_, u⟩, hfirst, hrun⟩ := Option.bind_eq_some_iff.1 hrun
  obtain ⟨⟨_, u'⟩, hsecond, hrun⟩ := Option.bind_eq_some_iff.1 hrun
  obtain ⟨⟨_, v⟩, hthird, hrun⟩ := Option.map_eq_some_iff.1 hrun
  have htime : KeepsOwned 0 u { u with now := 500 } :=
    keepsOwned_of_acts [] (fun _ _ _ => nofun) 500
  have hunbond : KeepsOwned 0 u' { u' with air := [.unbond a b].foldl Air.perform u'.air } := by
    refine keepsOwned_of_acts [.unbond a b] (fun _ _ _ y hy => ?_) u'.now
    rw [List.mem_singleton.1 hy]
    exact id
  have hall : w.History (KeepsOwned 0) _ v := ((((History.start.append_replay hfirst).thenOther
    htime).append_replay hsecond).thenOther hunbond).append_replay hthird
  have htasks (r : Nat) (task : Task) (htask : w.tasks[r]? = some task) :
      task.activity.session? = none ∧ task.pens = [] ∧ task.activity.draws = [] := by
    rcases r with _ | _ | r <;> cases htask <;> exact ⟨rfl, rfl, rfl⟩
  have hw : w.Divided := by
    have hnobody (o : Owner) (e : LinkEnd) : ¬ w.Owns o e := by
      cases o with
      | session s => exact fun ⟨x, hx, _⟩ => nomatch hx
      | task r =>
        rintro ⟨task, htask, he⟩
        rw [(htasks r task htask).2.1] at he
        cases he
    exact ⟨Air.orderly_empty.foldl _, fun o _ e ho => absurd ho (hnobody o e),
      fun o e ho => absurd ho (hnobody o e)⟩
  have hf : w.Founded := by
    refine ⟨fun n c s hs => ?_, fun r task s htask hs => ?_, fun r link hr => ?_⟩
    · rcases n with _ | n <;> cases hs
    · cases (htasks r task htask).1.symm.trans hs
    · obtain ⟨task, htask, -, hmem⟩ := hr
      rw [(htasks r task htask).2.2] at hmem
      cases hmem
  have hnode : w.nodes[0]? = some node := rfl
  have htask : w.tasks[0]? = some { activity := .announcing { node := 0, target := b } } := rfl
  obtain ⟨tries, hand, hreport⟩ := announces_bonded hnode htask hw hf hall
  exact ⟨_, v, tries, hand, hall, hreport, of_decide_eq_true hrun⟩

end World
end RadioLink

import RadioLink.Proofs.World.Handing

/-!
# Announcing, attempt after attempt

A task that announces its node makes one attempt after the other, each only if `Air.isBonded` is
true in the step that makes it, up to the first that succeeds or to `announce.attempts`. Over the
connection another task sends the announcement (`Announcing.Delegated`); that task connects with
nobody (`Confined`), and its outcome becomes the outcome of the first one. `Announcing.Standing`
says how far the task has come, with the attempts so far and the send over the connection, and every
step leads from one `Standing` to the next.
-/

namespace RadioLink

open World (Aside KeepsOwned Pristine step_apart)

/-! ### What a task has left alone -/

theorem share_of_unborn {k r : Nat} {events : List Event} (h : ∀ x ∈ events, x.cause ≠ .task r) :
    share k r events = {} := by
  induction events using List.reverseRecOn with
  | nil => rfl
  | append_singleton events x ih =>
    rw [share_concat, if_neg (h x (by simp))]
    exact ih fun y hy => h y (List.mem_append_left _ hy)

/-- No step of task `r` among the `events` recorded an attempt, counted an announcement, or changed
the `linkage` of a node. -/
structure Confined (r : Nat) (events : List Event) : Prop where
  attempts : ∀ a, attempted r a events = []
  announcements : ∀ k, (share k r events).metrics.announcementsSent = 0
  linkage : ∀ x ∈ events, x.cause = .task r → ∀ k, x.after.linkage? k = x.before.linkage? k

namespace Confined

variable {r : Nat} {events : List Event} {x : Event}

theorem of_unborn (h : ∀ x ∈ events, x.cause ≠ .task r) : Confined r events where
  attempts a := by
    rw [attempted, List.filter_eq_nil_iff.2 (by simpa using h), List.flatMap_nil]
  announcements k := by
    rw [share_of_unborn h]
  linkage x hx hcause := absurd hcause (h x hx)

theorem concat (h : Confined r events)
    (hx : x.cause = .task r → (∀ a, x.attempts a = []) ∧
      (∀ k, (x.gain k).metrics.announcementsSent = 0) ∧
      ∀ k, x.after.linkage? k = x.before.linkage? k) : Confined r (events ++ [x]) where
  attempts a := by
    rw [attempted_concat, h.attempts, List.nil_append]
    split
    · next hcause => exact (hx hcause).1 a
    · rfl
  announcements k := by
    rw [share_concat]
    split
    · next hcause =>
      show (share k r events).metrics.announcementsSent + (x.gain k).metrics.announcementsSent = 0
      rw [h.announcements, (hx hcause).2.1]
      rfl
    · exact h.announcements k
  linkage y hy hcause := by
    rcases List.mem_append.1 hy with hy | hy
    · exact h.linkage y hy hcause
    · obtain rfl := List.mem_singleton.1 hy
      exact (hx hcause).2.2

end Confined

/-! ### The send over the connection -/

namespace Announcing

variable {k node : Node} {n t s r : Nat} {target : Address} {events : List Event} {e : LinkEnd}
  {x : Event} {task : Task} {w v u : World}

/-- Task `t` has called `target` for the service, and the air has answered with the end `e`. -/
structure Reaches (node : Node) (target : Address) (t : Nat) (events : List Event) (e : LinkEnd) :
    Prop where
  side : e.side = .caller
  called : Noted t events fun _ w =>
    (w.air.connect node.address target (.service node.config.service.uuid)).1 = .ok e.link
  answered : Noted t events fun _ w => w.air.answer? e.link = some (.ok e)

theorem Reaches.concat (h : Reaches k target t events e) (x : Event) :
    Reaches k target t (events ++ [x]) e := ⟨h.side, h.called.concat x, h.answered.concat x⟩

/-- Task `r` sends the announcement of `k`, through session `s` of node `n`, over the end `e` that
task `t` `Reaches` the peer on. -/
structure Delegated (k : Node) (target : Address) (n t s r : Nat) (e : LinkEnd)
    (events : List Event) (w : World) (sender : Task) : Prop where
  reaches : Reaches k target t events e
  task : w.tasks[r]? = some sender
  handing : Handing s r e k.app.announcement events w sender
  site : ∃ y, w.lasting? s = some y ∧ y.node = n
  confined : Confined r events

variable {sender : Task} {past tries tries' : List Try} {hand : Option (Nat × LinkEnd)} {left : Nat}
  {a : Announcing}

/-- Every event keeps the send `Delegated`, and leaves it as it is once it has an outcome. -/
theorem Delegated.next (h : Delegated k target n t s r e events x.before sender)
    (hx : x.Happens (KeepsOwned t)) (hw : x.before.Divided) (hf : x.before.Founded)
    (hlends : x.before.Lends t r) (hsessions : ∀ s y, x.before.lasting? s = some y →
      x.after.lasting? s = some y) :
    ∃ sender', Delegated k target n t s r e (events ++ [x]) x.after sender' ∧
      (sender.outcome.isSome = true → sender' = sender) := by
  obtain ⟨y, hy, hn⟩ := h.site
  have hsite := hsessions s y hy
  by_cases hcause : x.cause = .task r
  · have hs := hx.step hcause
    obtain ⟨sender', htask', hhanding, hattempts, hannouncements⟩ := h.handing.step h.task hcause hs
    have hlinkage (m : Nat) : x.after.linkage? m = x.before.linkage? m := by
      refine (step_apart hs).linkage m ?_
      rw [h.handing.underWay? h.task]
      exact nofun
    refine ⟨sender', ⟨h.reaches.concat x, htask', hhanding, ⟨y, hsite, hn⟩, h.confined.concat
      fun _ => ⟨hattempts, hannouncements, hlinkage⟩⟩, fun hover => ?_⟩
    simp [World.step, h.task, hover] at hs
  · obtain ⟨htask, hhanding⟩ := h.handing.keep h.task hx hcause hw hf hlends h.reaches.side
    exact ⟨sender, ⟨h.reaches.concat x, htask, hhanding, ⟨y, hsite, hn⟩,
      h.confined.concat fun heq => absurd heq hcause⟩, fun _ => rfl⟩

/-! ### How far announcing has come -/

/-- All of `tries` looked up the service and have failed. -/
def Failed (k : Node) (tries : List Try) : Prop :=
  ∀ y ∈ tries, y.failed = true ∧ y.endpoint = .service k.config.service.uuid

theorem Failed.concat {y : Try} (h : Failed k past) (hfailed : y.failed = true)
    (hservice : y.endpoint = .service k.config.service.uuid) : Failed k (past ++ [y]) := by
  intro z hz
  rcases List.mem_append.1 hz with hz | hz
  · exact h z hz
  · rw [List.mem_singleton.1 hz]
    exact ⟨hfailed, hservice⟩

/-- How far announcing has come: the task, the attempts so far, the task and the end that the
announcement is sent by and on, if it has come to that, and a bound on the steps that are left. -/
inductive Standing (k : Node) (n t : Nat) (target : Address) (events : List Event) (w : World) :
    Task → List Try → Option (Nat × LinkEnd) → Nat → Prop
  | ready {past : List Try} (failed : Failed k past)
      (most : past = [] ∨ past.length < k.config.announce.attempts) :
      Standing k n t target events w
        { activity := .announcing ⟨n, target, past.length + 1, .ready⟩ } past none
        (3 * (k.config.announce.attempts - past.length) + 1)
  | calling {past : List Try} {call : Call} {begun : Nat} (failed : Failed k past)
      (most : past.length < k.config.announce.attempts)
      (called : Noted t events fun _ w =>
        (w.air.connect k.address target (.service k.config.service.uuid)).1 = .ok call.link)
      (pristine : Pristine events w ⟨call.link, .caller⟩) :
      Standing k n t target events w
        { activity := .announcing ⟨n, target, past.length + 1, .calling call⟩ }
        (past ++ [⟨.service k.config.service.uuid, begun, none⟩]) none
        (3 * (k.config.announce.attempts - past.length))
  | pausing {past : List Try} {timer : Timer} (failed : Failed k past)
      (most : past.length < k.config.announce.attempts) :
      Standing k n t target events w
        { activity := .announcing ⟨n, target, past.length + 1, .pausing timer⟩ } past none
        (3 * (k.config.announce.attempts - past.length) + 2)
  | sending {past : List Try} {begun ended s r : Nat} {e : LinkEnd} {sender : Task}
      (failed : Failed k past) (most : past.length < k.config.announce.attempts)
      (delegated : Delegated k target n t s r e events w sender) :
      Standing k n t target events w
        { activity := .announcing ⟨n, target, past.length + 1, .sending r⟩ }
        (past ++ [⟨.service k.config.service.uuid, begun, some (ended, .ok e)⟩]) (some (r, e)) 1
  /-- The outcome of the task is that of the send. -/
  | settled {past : List Try} {begun ended s r : Nat} {e : LinkEnd} {sender : Task} {ok : Bool}
      (failed : Failed k past) (most : past.length < k.config.announce.attempts)
      (delegated : Delegated k target n t s r e events w sender)
      (outcome : sender.outcome = some (.sent ok)) :
      Standing k n t target events w
        { activity := .announcing ⟨n, target, past.length + 1, .sending r⟩
          outcome := some (.sent ok) }
        (past ++ [⟨.service k.config.service.uuid, begun, some (ended, .ok e)⟩]) (some (r, e)) 0
  /-- The task has ended before there was a connection. -/
  | unsent {task : Task} {tries : List Try} (failed : Failed k tries)
      (most : tries.length ≤ k.config.announce.attempts)
      (outcome : task.outcome = some (.sent false)) :
      Standing k n t target events w task tries none 0
  /-- The task was aborted with the connection made, as its application has failed to make an
  announcement. -/
  | aborted {task : Task} {past : List Try} {begun ended : Nat} {e : LinkEnd}
      (failed : Failed k past) (most : past.length < k.config.announce.attempts)
      (faulty : k.app.faulty = some .announce)
      (outcome : task.outcome = some .aborted) :
      Standing k n t target events w task
        (past ++ [⟨.service k.config.service.uuid, begun, some (ended, .ok e)⟩]) none 0

/-- An event that is no step of task `t` keeps its `Standing`. -/
theorem Standing.keep (h : Standing k n t target events x.before task tries hand left)
    (htask : x.before.tasks[t]? = some task) (hx : x.Happens (KeepsOwned t))
    (hcause : x.cause ≠ .task t) (hw : x.before.Divided) (hf : x.before.Founded) :
    Standing k n t target (events ++ [x]) x.after task tries hand left := by
  have hsessions := (World.keepsTask_of_keepsOwned hx hcause htask).sessions
  cases h with
  | ready failed most => exact .ready failed most
  | calling failed most called pristine =>
    refine .calling failed most (called.concat x) ?_
    -- the task that calls owns its end of the link
    refine pristine.keep (o := .task t) hx hw ⟨_, htask, List.mem_cons_self⟩ (fun q heq => ?_) rfl
    exact Owner.task.inj heq ▸ hcause
  | pausing failed most => exact .pausing failed most
  | sending failed most delegated =>
    obtain ⟨sender', delegated', -⟩ := delegated.next hx hw hf ⟨_, _, htask, rfl, rfl⟩ hsessions
    exact .sending failed most delegated'
  | settled failed most delegated outcome =>
    obtain ⟨sender', delegated', hsame⟩ := delegated.next hx hw hf ⟨_, _, htask, rfl, rfl⟩ hsessions
    obtain rfl := hsame (by rw [outcome]; rfl)
    exact .settled failed most delegated' outcome
  | unsent failed most outcome => exact .unsent failed most outcome
  | aborted failed most faulty outcome => exact .aborted failed most faulty outcome

/-! ### What a step adds -/

/-- Who connects to whom, and how long he waits for an answer. -/
def dial (k : Node) (target : Address) : Dial :=
  ⟨k.address, target, k.config.session.connectTimeout⟩

/-- What a task counts besides its `tries`: an announcement, if its outcome is `.sent true`. -/
def announced (task : Task) : List Counted :=
  match task.outcome with
  | some (.sent true) => [.announcementSent]
  | _ => []

/-- What an event adds to the `tries` is what it adds to the attempts that radios record and, with
`more`, to the counters of node `n`. -/
structure Yields (d : Dial) (n : Nat) (x : Event) (tries tries' : List Try) (more : List Counted) :
    Prop where
  attempts : ∀ a, d.attempts a tries' = d.attempts a tries ++ x.attempts a
  gain : ∃ cs, tries'.flatMap Try.counts ++ more = tries.flatMap Try.counts ++ cs ∧
    x.gain n = .counted cs

namespace Yields

variable {d : Dial} {more : List Counted} {y : Try}

theorem of_books (h : d.Books n x.before v tries tries') (hnode : x.before.nodes[n]? = some node)
    (hair : x.after.air = v.air) (hnodes : x.after.nodes = v.nodes) :
    Yields d n x tries tries' [] where
  attempts a := by
    obtain ⟨acts, hacts, hattempts⟩ := h.attempts
    rw [Event.attempts_of_acts (hair.trans hacts), hattempts]
  gain := by
    obtain ⟨cs, hcs, hcounts⟩ := h.counts
    exact ⟨cs, by rw [List.append_nil, hcs], hcounts.gain hnode rfl hnodes⟩

theorem attempts_congr (hsame : tries'.map (·.endpoint) = tries.map (·.endpoint)) (a : Address) :
    d.attempts a tries' = d.attempts a tries := by
  have := congrArg (List.map fun e => (d.target, e)) hsame
  rw [List.map_map, List.map_map] at this
  unfold Dial.attempts
  split
  · exact this
  · rfl

/-- An event that adds no endpoint to `tries` records no attempt. -/
theorem attempts_eq_nil (h : Yields d n x tries tries' more)
    (hsame : tries'.map (·.endpoint) = tries.map (·.endpoint)) (a : Address) :
    x.attempts a = [] := by
  have hattempts := h.attempts a
  rw [attempts_congr hsame] at hattempts
  exact List.self_eq_append_right.1 hattempts

theorem of_quiet {acts : List Air.Act} (hair : x.after.air = acts.foldl Air.perform x.before.air)
    (hacts : ∀ a, acts.flatMap (·.attempts a) = []) (hgain : x.gain n = .counted more)
    (hsame : tries'.map (·.endpoint) = tries.map (·.endpoint))
    (hcounts : tries'.flatMap Try.counts = tries.flatMap Try.counts) :
    Yields d n x tries tries' more where
  attempts a := by
    rw [attempts_congr hsame, Event.attempts_of_acts hair, hacts, List.append_nil]
  gain := ⟨more, by rw [hcounts], hgain⟩

theorem attempts_concat (h : Yields d n x tries (tries ++ [y]) more) (a : Address) :
    x.attempts a = if d.caller = a then [(d.target, y.endpoint)] else [] := by
  have hattempts := h.attempts a
  unfold Dial.attempts at hattempts
  split at hattempts
  · next hcaller =>
    rw [if_pos hcaller]
    rw [List.map_append] at hattempts
    exact (List.append_cancel_left hattempts).symm
  · next hcaller =>
    rw [if_neg hcaller]
    exact hattempts.symm

end Yields

end Announcing

/-- The `Announcing` of task `t` is `.ready`: its next step looks at the bond. -/
def World.Checks (w : World) (t : Nat) : Prop :=
  ∃ task a, w.tasks[t]? = some task ∧ task.activity = .announcing a ∧ a.stage = .ready

namespace Announcing

variable {k node : Node} {n t s r : Nat} {target : Address} {events : List Event} {e : LinkEnd}
  {x : Event} {task : Task} {w v u : World} {sender : Task} {past tries tries' : List Try}
  {hand hand' : Option (Nat × LinkEnd)} {left left' : Nat} {a : Announcing}

/-- What a step of announcing brings about. -/
structure Goes (k : Node) (n t : Nat) (target : Address) (events : List Event) (x : Event)
    (tries : List Try) (hand : Option (Nat × LinkEnd)) (left : Nat) (next : Task)
    (tries' : List Try) (hand' : Option (Nat × LinkEnd)) (left' : Nat) : Prop where
  task : x.after.tasks[t]? = some next
  standing : Standing k n t target (events ++ [x]) x.after next tries' hand' left'
  less : left' < left
  yields : Yields (dial k target) n x tries tries' (announced next)
  /-- An attempt is recorded only if `isBonded` is true. -/
  gated : (∀ a, x.attempts a = []) ∨ x.before.air.isBonded k.address target = true ∧
    ∀ a, x.attempts a
      = if k.address = a then [(target, .service k.config.service.uuid)] else []
  /-- If `isBonded` is false, `.sent false` is the outcome. -/
  stops : x.before.Checks t → x.before.air.isBonded k.address target = false →
    next.outcome = some (.sent false)
  /-- The only task that is started is the one that sends. -/
  starts : x.after.tasks.size = x.before.tasks.size ∧ hand' = hand ∨
    hand = none ∧ x.after.tasks.size = x.before.tasks.size + 1 ∧
      ∃ e, hand' = some (x.before.tasks.size, e)

theorem not_checks (htask : w.tasks[t]? = some { activity := .announcing a })
    (hstage : a.stage ≠ .ready) : ¬ w.Checks t := by
  rintro ⟨task, b, htask', hactivity, hready⟩
  cases htask.symm.trans htask'
  cases hactivity
  exact hstage hready

/-- What a step `Yields` that starts no task is what its `Dial.Books` say. -/
theorem yields_of_books {p : Progress}
    (htask : x.before.tasks[t]? = some { activity := .announcing a })
    (hnode : x.before.nodes[n]? = some node)
    (hbooks : (dial k target).Books n x.before v tries tries')
    (hafter : x.after = v.concludeAnnouncing t p) :
    x.after.tasks[t]? = some (p.task a) ∧ x.after.tasks.size = x.before.tasks.size ∧
      Yields (dial k target) n x tries tries' [] := by
  obtain ⟨cs, -, hcounts⟩ := hbooks.counts
  obtain ⟨htasks, -, -⟩ := hcounts.keeps
  refine ⟨?_, ?_, .of_books hbooks hnode ?_ ?_⟩
  · rw [hafter]
    exact World.tasks_concludeAnnouncing (htasks ▸ htask) p
  · rw [hafter, World.size_concludeAnnouncing, htasks]
  · rw [hafter, World.air_concludeAnnouncing]
  · rw [hafter, World.nodes_concludeAnnouncing]

/-- After a failed attempt `afterFailure` leads to `pausing`, or to `unsent`. -/
theorem goes_afterFailure {y : Try} {stage : Stage}
    (htask : x.before.tasks[t]? = some
      { activity := .announcing ⟨n, target, past.length + 1, stage⟩ })
    (hnode : x.before.nodes[n]? = some node)
    (hafter : x.after = ((⟨n, target, past.length + 1, stage⟩ : Announcing).afterFailure
      k.config.announce v).2.concludeAnnouncing t
      ((⟨n, target, past.length + 1, stage⟩ : Announcing).afterFailure k.config.announce v).1)
    (hfailed : Failed k (past ++ [y])) (hmost : past.length < k.config.announce.attempts)
    (hbooks : ∀ u, v.CountsUp n [.connectFailure] u → u.air = v.air →
      (dial k target).Books n x.before u tries (past ++ [y]))
    (hleft : 3 * (k.config.announce.attempts - past.length) ≤ left)
    (hgated : Yields (dial k target) n x tries (past ++ [y]) [] →
      (∀ a, x.attempts a = []) ∨ x.before.air.isBonded k.address target = true ∧
        ∀ a, x.attempts a
          = if k.address = a then [(target, .service k.config.service.uuid)] else [])
    (hbonded : x.before.Checks t → x.before.air.isBonded k.address target = true) :
    ∃ next left', Goes k n t target events x tries none left next (past ++ [y]) none left' := by
  let a : Announcing := ⟨n, target, past.length + 1, stage⟩
  have hlength : (past ++ [y]).length = past.length + 1 := by simp
  obtain ⟨p, u, heq, hcounts, hair, hcase⟩ := a.afterFailure_cases k.config.announce v
  rw [show Announcing.afterFailure ⟨n, target, past.length + 1, stage⟩ k.config.announce v = (p, u)
    from heq] at hafter
  obtain ⟨htask', hsize, hyields⟩ := yields_of_books htask hnode (hbooks u hcounts hair) hafter
  have hstops (hchecks : x.before.Checks t)
      (hunbonded : x.before.air.isBonded k.address target = false) : False := by
    rw [hbonded hchecks] at hunbonded
    cases hunbonded
  obtain ⟨timer, rfl, hlt⟩ | ⟨rfl, hle⟩ := hcase
  · have hlt : (past ++ [y]).length < k.config.announce.attempts := by
      rw [hlength]
      exact hlt
    have hpausing : Standing k n t target (events ++ [x]) x.after
        { activity := .announcing ⟨n, target, (past ++ [y]).length + 1, .pausing timer⟩ }
        (past ++ [y]) none _ := .pausing hfailed hlt
    rw [hlength] at hpausing
    exact ⟨_, _, htask', hpausing, by omega, hyields, hgated hyields,
      fun hc hu => (hstops hc hu).elim, .inl ⟨hsize, rfl⟩⟩
  · refine ⟨_, _, htask', .unsent hfailed ?_ rfl, by omega, hyields, hgated hyields,
      fun hc hu => (hstops hc hu).elim, .inl ⟨hsize, rfl⟩⟩
    rw [hlength]
    exact hmost

/-- With `sendOver` the announcement is `Delegated` to the task and the session that are added. -/
theorem delegated_of_reached (hf : x.before.Founded) (hx : x.Happens (KeepsOwned t))
    (hcause : x.cause = .task t) (ht : t < x.before.tasks.size)
    (hborn : ∀ y ∈ events, y.cause ≠ .task x.before.tasks.size) {link : Nat}
    (hreaches : Reaches k target t (events ++ [x]) ⟨link, .caller⟩)
    (hpristine : Pristine events x.before ⟨link, .caller⟩) {b : Announcing}
    (hafter : x.after = ((x.before.addSession { Session.ofPeer n ⟨target, none⟩ with
        held := some ⟨link, .caller⟩ }).spawn (.sending
          (.ofMessage x.before.sessions.size k.app.announcement))).become t (.announcing b)) :
    Delegated k target n t x.before.sessions.size x.before.tasks.size ⟨link, .caller⟩
      (events ++ [x]) x.after
      { activity := .sending (.ofMessage x.before.sessions.size k.app.announcement) } := by
  have hunborn : ∀ y ∈ events ++ [x], y.cause ≠ .task x.before.tasks.size := by
    intro y hy
    rcases List.mem_append.1 hy with hy | hy
    · exact hborn y hy
    · obtain rfl := List.mem_singleton.1 hy
      rw [hcause]
      exact fun heq => Nat.ne_of_lt ht (Cause.task.inj heq)
  let y : Session := { Session.ofPeer n ⟨target, none⟩ with held := some ⟨link, .caller⟩ }
  have hsession : x.after.sessions[x.before.sessions.size]? = some y := by
    rw [hafter]
    exact Array.getElem?_push_size
  refine ⟨hreaches, ?_, ?_, ⟨y.lasting, ?_, rfl⟩, .of_unborn hunborn⟩
  · rw [hafter, World.become, World.updateTask, Array.getElem?_modify, if_neg (Nat.ne_of_lt ht)]
    exact Array.getElem?_push_size
  · refine .ready hsession rfl rfl ?_ (hpristine.concat hx ⟨[], ?_, by simp⟩) fun e => ?_
    · rw [hafter]
      exact (hf.hidden y _).become rfl
    · rw [hafter]
      rfl
    · rw [written, List.filter_eq_nil_iff.2 (by simpa using hunborn), List.flatMap_nil]
  · rw [World.lasting?, hsession]
    rfl

/-- The link that `Air.connect` makes is `Pristine` at the caller's end. -/
theorem pristine_of_connect {link : Nat} (hx : x.Happens (KeepsOwned t)) (hf : x.before.Founded)
    (hcause : x.cause = .task t)
    (hbeyond : ∀ e, x.before.air.links.size ≤ e.link → carried events e = [])
    {caller callee : Address} {endpoint : Endpoint}
    (hconnect : (x.before.air.connect caller callee endpoint).1 = .ok link)
    (hair : x.after.air = x.before.air.perform (.connect caller callee endpoint))
    (hdraws : ∀ task, x.after.tasks[t]? = some task → task.activity.draws = []) :
    Pristine (events ++ [x]) x.after ⟨link, .caller⟩ := by
  obtain rfl := Air.eq_size_of_connect hconnect
  refine ⟨hair ▸ Air.isUsable_connect hconnect .caller, fun q hq => ?_, ?_⟩
  · obtain ⟨former, hformer, hlive, hadvances, -⟩ := World.exists_advances (hx.step hcause)
    obtain hold | ⟨rfl, -⟩ := hadvances.fetches hformer hlive hq
    · exact Nat.lt_irrefl _ (hf.fetched q _ hold)
    · obtain ⟨task, htask, -, hmem⟩ := hq
      rw [hdraws task htask] at hmem
      cases hmem
  · have hmute : x.writes ⟨x.before.air.links.size, .caller⟩ = [] := by
      refine World.writes_of_outgoing ?_
      rw [hair]
      exact Air.outgoing_connect ..
    rw [carried_of_mute hmute]
    exact hbeyond _ (Nat.le_refl _)

theorem Standing.step_ready (failed : Failed node.settings past)
    (most : past = [] ∨ past.length < node.config.announce.attempts)
    (htask : x.before.tasks[t]? = some
      { activity := .announcing ⟨n, target, past.length + 1, .ready⟩ })
    (hnode : x.before.nodes[n]? = some node) (hcause : x.cause = .task t)
    (hx : x.Happens (KeepsOwned t)) (hf : x.before.Founded)
    (hbeyond : ∀ e, x.before.air.links.size ≤ e.link → carried events e = [])
    {q : Progress × World}
    (hturn : (⟨n, target, past.length + 1, .ready⟩ : Announcing).Turn node x.before q)
    (hafter : x.after = q.2.concludeAnnouncing t q.1) :
    ∃ next tries' hand' left', Goes node.settings n t target events x past none
      (3 * (node.config.announce.attempts - past.length) + 1) next tries' hand' left' := by
  -- the task is over without another attempt, so there is nothing new to record
  have hends (hmost : past.length ≤ node.config.announce.attempts)
      (hafter : x.after = x.before.concludeAnnouncing t (.ended false)) :
      ∃ next tries' hand' left', Goes node.settings n t target events x past none
        (3 * (node.config.announce.attempts - past.length) + 1) next tries' hand' left' := by
    have hbooks : (dial node.settings target).Books n x.before x.before past past := .refl
    obtain ⟨htask', hsize, hyields⟩ := yields_of_books htask hnode hbooks hafter
    exact ⟨_, _, _, _, htask', .unsent failed hmost rfl, Nat.succ_pos _, hyields,
      .inl (hyields.attempts_eq_nil rfl), fun _ _ => rfl, .inl ⟨hsize, rfl⟩⟩
  cases hturn with
  | spent stage spent =>
    refine hends ?_ hafter
    obtain rfl | hlt := most
    · exact Nat.zero_le _
    · exact Nat.le_of_lt hlt
  | unbonded stage most' unbonded => exact hends (Nat.le_of_succ_le most') hafter
  | @calls call v stage most' bonded connect counts air =>
    let y : Try := ⟨.service node.config.service.uuid, x.before.now, none⟩
    have hbooks : (dial node.settings target).Books n x.before v past (past ++ [y]) :=
      .of_call counts air
    obtain ⟨htask', hsize, hyields⟩ := yields_of_books htask hnode hbooks hafter
    have hair : x.after.air = x.before.air.perform
        (.connect node.address target (.service node.config.service.uuid)) := by
      rw [hafter, World.air_concludeAnnouncing, air]
    -- the link is new, and nobody but this task can name its end
    have hpristine : Pristine (events ++ [x]) x.after ⟨call.link, .caller⟩ := by
      refine pristine_of_connect hx hf hcause hbeyond connect hair fun task htask => ?_
      cases htask'.symm.trans htask
      rfl
    refine ⟨_, _, _, _, htask', .calling failed most' (.last hcause connect) hpristine,
      Nat.lt_succ_self _, hyields, .inr ⟨bonded, hyields.attempts_concat⟩, fun _ hunbonded => ?_,
      .inl ⟨hsize, rfl⟩⟩
    cases hunbonded.symm.trans bonded
  | @refused fault v stage most' bonded connect counts air =>
    let y : Try :=
      ⟨.service node.config.service.uuid, x.before.now, some (x.before.now, .error fault)⟩
    have hgoes : ∃ next left', Goes node.settings n t target events x past none _ next (past ++ [y])
        none left' :=
      goes_afterFailure htask hnode hafter (failed.concat rfl rfl) most'
        (fun u hu hair => .of_call (counts.trans hu) (hair.trans air)) (Nat.le_succ _)
        (fun hyields => .inr ⟨bonded, hyields.attempts_concat⟩) fun _ => bonded
    obtain ⟨next, left', hgoes⟩ := hgoes
    exact ⟨_, _, _, _, hgoes⟩
  | reached stage | failed stage | sent stage | unsent stage | resumes stage => cases stage

theorem Standing.step_calling {call : Call} {begun : Nat} (failed : Failed node.settings past)
    (most : past.length < node.config.announce.attempts)
    (called : Noted t events fun _ w =>
      (w.air.connect node.address target (.service node.config.service.uuid)).1 = .ok call.link)
    (pristine : Pristine events x.before ⟨call.link, .caller⟩)
    (htask : x.before.tasks[t]? = some
      { activity := .announcing ⟨n, target, past.length + 1, .calling call⟩ })
    (hnode : x.before.nodes[n]? = some node) (hcause : x.cause = .task t)
    (hx : x.Happens (KeepsOwned t)) (hf : x.before.Founded)
    (hborn : ∀ y ∈ events, y.cause ≠ .task x.before.tasks.size) {q : Progress × World}
    (hturn : (⟨n, target, past.length + 1, .calling call⟩ : Announcing).Turn node x.before q)
    (hafter : x.after = q.2.concludeAnnouncing t q.1) :
    ∃ next tries' hand' left', Goes node.settings n t target events x
      (past ++ [⟨.service node.config.service.uuid, begun, none⟩]) none
      (3 * (node.config.announce.attempts - past.length)) next tries' hand' left' := by
  have ht : t < x.before.tasks.size := (Array.getElem?_eq_some_iff.1 htask).1
  have hchecks := not_checks htask nofun
  cases hturn with
  | reached stage answer =>
    cases stage
    have hyields (acts : List Air.Act) (hair : x.after.air = acts.foldl Air.perform x.before.air)
        (hacts : ∀ a, acts.flatMap (·.attempts a) = [])
        (hnodes : x.after.nodes = x.before.nodes) : Yields (dial node.settings target) n x
          (past ++ [⟨.service node.config.service.uuid, begun, none⟩])
          (past ++ [⟨.service node.config.service.uuid, begun,
            some (x.before.now, .ok ⟨call.link, .caller⟩)⟩]) [] :=
      .of_quiet hair hacts (Event.gain_of_nodes_eq (by rw [hnodes])) (by simp)
        (by simp [Try.counts, Try.failed])
    -- without an announcement the connection is let go of, and the task is over
    by_cases hfaulty : node.app.faulty = some .announce
    · have hafter : x.after = (x.before.drop ⟨call.link, .caller⟩).finish t .aborted := by
        rw [hafter, sendOver, if_pos hfaulty]
        rfl
      have hyields := hyields [.drop ⟨call.link, .caller⟩] (by rw [hafter]; rfl)
        (fun _ => rfl) (by rw [hafter]; rfl)
      have htask' : x.after.tasks[t]? = some
          { activity := .announcing ⟨n, target, past.length + 1, .calling call⟩
            outcome := some .aborted } := by
        rw [hafter]
        exact World.tasks_finish htask
      refine ⟨_, _, _, _, htask', .aborted failed most hfaulty rfl, by omega, hyields,
        .inl (hyields.attempts_eq_nil (by simp)), fun h => absurd h hchecks, .inl ⟨?_, rfl⟩⟩
      rw [hafter]
      exact Array.size_modify
    · -- else it goes into a session that is new, for a task that is new
      let v := (x.before.addSession { Session.ofPeer n ⟨target, none⟩ with
        held := some ⟨call.link, .caller⟩ }).spawn (.sending
          (.ofMessage x.before.sessions.size node.app.announcement))
      have hafter : x.after = v.become t
          (.announcing ⟨n, target, past.length + 1, .sending x.before.tasks.size⟩) := by
        rw [hafter, sendOver, if_neg hfaulty]
        rfl
      have hyields := hyields [] (by rw [hafter]; rfl) (fun _ => rfl) (by rw [hafter]; rfl)
      have hreaches : Reaches node.settings target t (events ++ [x]) ⟨call.link, .caller⟩ :=
        ⟨rfl, called.concat x, .last hcause answer⟩
      have hdelegated := delegated_of_reached (k := node.settings) hf hx hcause ht hborn hreaches
        pristine hafter
      have hkept : v.tasks[t]? = some
          { activity := .announcing ⟨n, target, past.length + 1, .calling call⟩ } :=
        (Array.getElem?_push ..).trans ((if_neg (Nat.ne_of_lt ht)).trans htask)
      refine ⟨_, _, _, _, hafter ▸ World.tasks_become hkept, .sending failed most hdelegated,
        by omega, hyields, .inl (hyields.attempts_eq_nil (by simp)), fun h => absurd h hchecks,
        .inr ⟨rfl, ?_, _, rfl⟩⟩
      rw [hafter]
      exact Array.size_modify.trans (Array.size_push _)
  -- A failed attempt is the same whether it was refused at once or is answered now.
  | @failed call' fault v stage answer =>
    cases stage
    let y : Try := ⟨.service node.config.service.uuid, begun, some (x.before.now, .error fault)⟩
    have hgoes : ∃ next left', Goes node.settings n t target events x
        (past ++ [⟨.service node.config.service.uuid, begun, none⟩]) none _ next (past ++ [y]) none
        left' :=
      goes_afterFailure htask hnode hafter (failed.concat rfl rfl) most
        (fun u hu hair => .of_answer answer hu hair rfl) (Nat.le_refl _)
        (fun hyields => .inl (hyields.attempts_eq_nil (by simp [y]))) fun h => absurd h hchecks
    obtain ⟨next, left', hgoes⟩ := hgoes
    exact ⟨_, _, _, _, hgoes⟩
  | spent stage | unbonded stage | calls stage | refused stage | sent stage | unsent stage
  | resumes stage => cases stage

theorem Standing.step_sending {begun ended : Nat} (failed : Failed node.settings past)
    (most : past.length < node.config.announce.attempts)
    (delegated : Delegated node.settings target n t s r e events x.before sender)
    (htask : x.before.tasks[t]? = some
      { activity := .announcing ⟨n, target, past.length + 1, .sending r⟩ })
    (hnode : x.before.nodes[n]? = some node) (hcause : x.cause = .task t)
    (hx : x.Happens (KeepsOwned t)) (hw : x.before.Divided) (hf : x.before.Founded)
    {q : Progress × World}
    (hturn : (⟨n, target, past.length + 1, .sending r⟩ : Announcing).Turn node x.before q)
    (hafter : x.after = q.2.concludeAnnouncing t q.1) :
    ∃ next tries' hand' left', Goes node.settings n t target events x
      (past ++ [⟨.service node.config.service.uuid, begun, some (ended, .ok e)⟩]) (some (r, e)) 1
      next tries' hand' left' := by
  let next (ok : Bool) : Task :=
    (Progress.ended ok).task ⟨n, target, past.length + 1, .sending r⟩
  -- it ends as the send has ended
  have hends {ok : Bool} {v : World} (hafter : x.after = v.concludeAnnouncing t (.ended ok))
      (hsender : sender.outcome = some (.sent ok)) (htasks : v.tasks = x.before.tasks)
      (hair : v.air = x.before.air)
      (hgain : x.gain n = .counted (announced (next ok))) :
      ∃ next tries' hand' left', Goes node.settings n t target events x
        (past ++ [⟨.service node.config.service.uuid, begun, some (ended, .ok e)⟩]) (some (r, e)) 1
        next tries' hand' left' := by
    obtain ⟨sender', delegated', hsame⟩ := delegated.next hx hw hf ⟨_, _, htask, rfl, rfl⟩
      (step_apart (hx.step hcause)).sessions
    obtain rfl := hsame (by rw [hsender]; rfl)
    have htask' : x.after.tasks[t]? = some (next ok) := by
      rw [hafter]
      exact World.tasks_concludeAnnouncing (htasks ▸ htask) _
    have hair' : x.after.air = ([] : List Air.Act).foldl Air.perform x.before.air := by
      rw [hafter, World.air_concludeAnnouncing, hair]
      rfl
    have hyields : Yields (dial node.settings target) n x
        (past ++ [⟨.service node.config.service.uuid, begun, some (ended, .ok e)⟩])
        (past ++ [⟨.service node.config.service.uuid, begun, some (ended, .ok e)⟩]) _ :=
      .of_quiet hair' (fun _ => rfl) hgain rfl rfl
    refine ⟨_, _, _, _, htask', .settled failed most delegated' hsender, Nat.zero_lt_one, hyields,
      .inl (hyields.attempts_eq_nil rfl), fun h => absurd h (not_checks htask nofun),
      .inl ⟨?_, rfl⟩⟩
    rw [hafter, World.size_concludeAnnouncing, htasks]
  have houtcome (r' : Nat) (hr : r' = r) : x.before.outcome? r' = sender.outcome := by
    rw [hr, World.outcome?, delegated.task]
    rfl
  cases hturn with
  | @sent r' stage outcome =>
    cases stage
    have hcounts : x.before.CountsUp n [.announcementSent] (x.before.count n .announcementSent) :=
      Aside.refl
    refine hends hafter ((houtcome _ rfl).symm.trans outcome) rfl rfl ?_
    exact hcounts.gain hnode rfl (by rw [hafter, World.nodes_concludeAnnouncing])
  | @unsent r' o stage outcome ne =>
    cases stage
    have hsender := (houtcome _ rfl).symm.trans outcome
    obtain ⟨ok, rfl⟩ := delegated.handing.exists_sent hsender
    cases ok with
    | true => exact absurd rfl ne
    | false =>
      refine hends hafter hsender rfl rfl (Event.gain_of_nodes_eq ?_)
      rw [hafter, World.nodes_concludeAnnouncing]
  | spent stage | unbonded stage | calls stage | refused stage | reached stage | failed stage
  | resumes stage => cases stage

/-- Every step of task `t` satisfies `Goes`. -/
theorem Standing.step (h : Standing k n t target events x.before task tries hand left)
    (htask : x.before.tasks[t]? = some task) (hnode : x.before.settings? n = some k)
    (hcause : x.cause = .task t) (hx : x.Happens (KeepsOwned t)) (hw : x.before.Divided)
    (hf : x.before.Founded)
    (hbeyond : ∀ e, x.before.air.links.size ≤ e.link → carried events e = [])
    (hborn : ∀ y ∈ events, y.cause ≠ .task x.before.tasks.size) :
    ∃ next tries' hand' left',
      Goes k n t target events x tries hand left next tries' hand' left' := by
  obtain ⟨node, hthere, rfl⟩ := Option.map_eq_some_iff.1 hnode
  have hs := hx.step hcause
  have ht : t < x.before.tasks.size := (Array.getElem?_eq_some_iff.1 htask).1
  have hturn {stage : Stage} {attempt : Nat}
      (htask : x.before.tasks[t]? = some { activity := .announcing ⟨n, target, attempt, stage⟩ }) :
      ∃ q, (⟨n, target, attempt, stage⟩ : Announcing).Turn node x.before q ∧
        x.after = q.2.concludeAnnouncing t q.1 := by
    rw [World.step_announcing htask] at hs
    obtain ⟨node', q, hnode', hturn, hafter⟩ := World.exists_turn_of_step hs
    cases hthere.symm.trans hnode'
    exact ⟨q, hturn, hafter⟩
  cases h with
  | ready failed most =>
    obtain ⟨q, hturn, hafter⟩ := hturn htask
    exact step_ready failed most htask hthere hcause hx hf hbeyond hturn hafter
  | calling failed most called pristine =>
    obtain ⟨q, hturn, hafter⟩ := hturn htask
    exact step_calling failed most called pristine htask hthere hcause hx hf hborn hturn hafter
  | pausing failed most =>
    obtain ⟨q, hturn, hafter⟩ := hturn htask
    cases hturn with
    | resumes stage =>
      have hbooks {past : List Try} :
          (dial node.settings target).Books n x.before x.before past past := .refl
      obtain ⟨htask', hsize, hyields⟩ := yields_of_books htask hthere hbooks hafter
      exact ⟨_, _, _, _, htask', .ready failed (.inr most), Nat.lt_succ_self _, hyields,
        .inl (hyields.attempts_eq_nil rfl), fun h => absurd h (not_checks htask nofun),
        .inl ⟨hsize, rfl⟩⟩
    | spent stage | unbonded stage | calls stage | refused stage | reached stage | failed stage
    | sent stage | unsent stage => cases stage
  | @sending _ _ _ _ r _ sender failed most delegated =>
    obtain ⟨q, hturn, hafter⟩ := hturn htask
    exact step_sending failed most delegated htask hthere hcause hx hw hf hturn hafter
  | settled => simp [World.step, htask] at hs
  | unsent _ _ outcome | aborted _ _ _ outcome => simp [World.step, htask, outcome] at hs

/-- An `Announcing` is no `Accepting`. -/
theorem Standing.underWay? (h : Standing k n t target events w task tries hand left)
    (htask : w.tasks[t]? = some task) : w.underWay? t = none := by
  rw [World.underWay?, htask]
  cases h with
  | ready | calling | pausing | sending | settled => rfl
  | unsent _ _ outcome | aborted _ _ _ outcome => simp [outcome]

end Announcing
end RadioLink

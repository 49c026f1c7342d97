import RadioLink.Proofs.World.Balance
import RadioLink.Proofs.World.Fates
import RadioLink.Proofs.World.History

/-!
# Every connection is accounted for

The `share` of a connection is what its node gains in the steps of its own task, whatever other
tasks do in between. In every `History (KeepsConnections n)` each connection that has ended with
`.accepted r` has had exactly one `Fate`, with `r` for its `result` and `share` for its `gain`; and
the counters balance:

    connectionsAccepted = framesReceived + framingErrors + number of connections that timed out
-/

namespace RadioLink

open World (Apart)

/-! ### Sessions stay at home -/

namespace Node

variable {node : Node} {a peer : Address} {m : Message} {r s : Nat}

theorem Finds.of_enroll (h : (node.enroll a peer m s).Finds r) : r = s ∨ node.Finds r := by
  rcases h with h | h
  · exact (Table.mem_values_insert h).imp_right .inl
  · exact (Table.mem_values_insert h).imp_right .inr

theorem Finds.of_part (h : (node.part peer s).Finds r) : node.Finds r :=
  h.imp_right Table.mem_values_of_discard

theorem Finds.of_withdraw (h : (node.withdraw a).Finds r) : node.Finds r :=
  h.imp_left Table.mem_values_of_erase

theorem Finds.of_note {device : Option String} (h : (node.note device a).Finds r) :
    node.Finds r := by
  cases device with
  | none => exact h
  | some id =>
    unfold Finds Node.note Application.bind at h
    simp only [Option.elim_some] at h
    split at h <;> exact h

end Node

namespace World

variable {n t : Nat} {w w' : World}

theorem Homely.keep (h : w.Homely n)
    (hsessions : ∀ s x, w.lasting? s = some x → w'.lasting? s = some x)
    (hnode : w'.standing? n = w.standing? n) : w'.Homely n := by
  intro node' hnode' s hs
  have hstanding : w'.standing? n = some node'.standing := by rw [standing?, hnode']; rfl
  obtain ⟨node, hn, heq⟩ := Option.map_eq_some_iff.1 (hnode.symm.trans hstanding)
  have hfinds : node.Finds s := by
    have hregistry := congrArg Node.registry heq
    have hcurrent := congrArg (·.app.current) heq
    rcases hs with hs | hs
    · exact .inl (hregistry.symm ▸ hs)
    · exact .inr (hcurrent.symm ▸ hs)
  obtain ⟨x, hx, hxn⟩ := h node hn s hfinds
  exact ⟨x, hsessions s x hx, hxn⟩

/-- A session that `welcome` makes for node `n` leaves it `Homely`. -/
theorem Homely.welcome {node : Node} (h : w.Homely n) (hn : w.nodes[n]? = some node) (m : Message)
    (a : Address) (device : Option String) : (w.welcome n m a device).Homely n := by
  have hmade (b : Address) (r : Nat) (hr : w.registered? n b = some r) : r < w.sessions.size := by
    rw [registered?, hn] at hr
    exact h.made hn hr
  obtain ⟨-, hfresh⟩ := registered?_welcome a m device hn hmade
  obtain ⟨former, hwelcome⟩ := nodes_welcome hn m (fun _ => h.made hn) device
  intro node' hnode' s hs
  cases hwelcome.symm.trans hnode'
  have hfinds : s = w.sessions.size ∨ node.Finds s := by
    cases former with
    | none => exact hs.of_enroll.imp_right Node.Finds.of_note
    | some old => exact hs.of_part.of_enroll.imp_right Node.Finds.of_note
  rcases hfinds with rfl | hfinds
  · exact ⟨_, hfresh, rfl, rfl⟩
  · obtain ⟨x, hx, hxn⟩ := h node hn s hfinds
    exact ⟨x, (Apart.refl (t := 0).welcome m a device).sessions s x hx, hxn⟩

theorem Homely.unregister (h : w.Homely n) (a : Address) : (w.unregister n a).2.Homely n := by
  cases hold : w.registered? n a with
  | none => rwa [unregister_of_none hold]
  | some old =>
    obtain ⟨node, hn, hreg⟩ := Option.bind_eq_some_iff.1 hold
    obtain ⟨former, hformer⟩ := Option.isSome_iff_exists.1
      (peerAddress?_isSome_iff.2 (h.made hn hreg))
    intro node' hnode' s hs
    cases (nodes_unregister hn hreg hformer).symm.trans hnode'
    obtain ⟨x, hx, hxn⟩ := h node hn s hs.of_part.of_withdraw
    exact ⟨x, (Apart.refl (t := 0).unregister a).sessions s x hx, hxn⟩

theorem Homely.removed (h : w.Homely n) (m : Nat) (a : Address) :
    (w.removeBonded m a).Homely n := by
  by_cases hm : m = n
  · subst hm
    unfold removeBonded
    refine Homely.unregister ?_ a
    refine h.keep (fun _ _ hx => hx) ?_
    exact standing_updateNode fun _ => rfl
  · have hapart : Apart 0 (some m) w (w.removeBonded m a) := Apart.refl.removeBonded a
    exact h.keep hapart.sessions (standing_of_dealings
      (dealings_of_linkage (hapart.linkage n (by simpa using hm))))

/-- Every step leaves node `n` `Homely`. -/
theorem Homely.step (h : w.Homely n) (hstep : w.step t = some w') : w'.Homely n := by
  have hsessions := (step_apart hstep).sessions
  rcases dealings_step (n := n) hstep with
    ⟨a, id, m, device, v, p, node, -, -, hnode, hvs, hdealings, rfl⟩ | ⟨-, hdealings⟩
  · have hv : v.Homely n :=
      h.keep (fun r x hx => by rwa [lasting?, hvs]) (standing_of_dealings hdealings)
    have hwelcome := hv.welcome hnode m a device
    exact hwelcome.keep (fun r x hx => by cases p <;> exact hx) (standing_conclude p)
  · exact h.keep hsessions (standing_of_dealings hdealings)

end World

/-! ### Runs -/

theorem Status.taking {n : Nat} {sender : Address} {s : Script} {settings : Node} {w : World}
    {task : Task} {gain : Gain} (h : Status n sender s settings w task gain) :
    task.activity.call?.isSome = true := by
  cases h with
  | ready | reading | handling => rfl
  | ended _ _ taking => exact taking
  | aborted taking => exact taking

namespace World

/-- What somebody else may do: keep all sessions, all tasks that take connections in, the `settings`
of node `n` and what it has `outstanding`; start tasks that take connections in, which are
`IsFresh`; and leave node `n` `Homely`. -/
structure KeepsConnections (n : Nat) (w w' : World) : Prop where
  sessions : ∀ s x, w.lasting? s = some x → w'.lasting? s = some x
  calls : ∀ t, (w.call? t).isSome = true → w'.tasks[t]? = w.tasks[t]?
  fresh : ∀ t task, w.call? t = none → w'.tasks[t]? = some task →
    task.activity.call?.isSome = true → task.IsFresh
  settings : w'.settings? n = w.settings? n
  outstanding : w'.outstanding n = w.outstanding n
  homely : w.Homely n → w'.Homely n

variable {n t : Nat} {w w' : World}

/-- Every event leaves node `n` `Homely`, with the same `settings`. -/
theorem Homely.next {e : Event} (h : e.before.Homely n) (he : e.Happens (KeepsConnections n)) :
    e.after.Homely n ∧ e.after.settings? n = e.before.settings? n := by
  obtain ⟨cause, before, after⟩ := e
  cases cause with
  | task u => exact ⟨h.step he, (step_apart he).settings n⟩
  | removal m a =>
    obtain rfl : after = before.removeBonded m a := he
    exact ⟨h.removed m a, (Apart.refl (t := 0).removeBonded a).settings n⟩
  | other => exact ⟨he.homely h, he.settings⟩

variable {sender : Address} {s : Script} {settings : Node}

/-- An event that is no step of task `t` keeps its `Status`, and a step of it leads from one
`Status` to the next. -/
theorem status_next {e : Event} {task : Task} {gain : Gain} (hhome : e.before.Homely n)
    (hsettings : e.before.settings? n = some settings) (htask : e.before.tasks[t]? = some task)
    (h : Status n sender s settings e.before task gain) (he : e.Happens (KeepsConnections n)) :
    ∃ task', e.after.tasks[t]? = some task' ∧ Status n sender s settings e.after task'
      (if e.cause = .task t then gain + e.gain n else gain) := by
  obtain ⟨cause, before, after⟩ := e
  cases cause with
  | task u =>
    by_cases hu : u = t
    · subst hu
      rw [if_pos rfl]
      exact h.step htask hsettings hhome he
    · have hapart := step_apart he
      rw [if_neg (by simpa using hu)]
      exact ⟨task, hapart.tasks t task (Ne.symm hu) htask, h.keep hapart.sessions⟩
  | removal m a =>
    obtain rfl : after = before.removeBonded m a := he
    have hapart : Apart (t + 1) (some m) before (before.removeBonded m a) :=
      Apart.refl.removeBonded a
    rw [if_neg Cause.noConfusion]
    exact ⟨task, hapart.tasks t task (Nat.ne_of_lt (Nat.lt_succ_self t)) htask,
      h.keep hapart.sessions⟩
  | other =>
    have hcall : (before.call? t).isSome = true := by
      rw [call?, htask]
      exact h.taking
    rw [if_neg Cause.noConfusion]
    exact ⟨task, (he.calls t hcall).trans htask, h.keep he.sessions⟩

theorem History.status {events : List Event} (hsettings : w.settings? n = some settings)
    (hhome : w.Homely n) (h : History (KeepsConnections n) w events w')
    (htask : w.tasks[t]? = some { activity := .accepting ⟨n, sender, .ready (.script s)⟩ }) :
    ∃ task, w'.tasks[t]? = some task ∧
      Status n sender s settings w' task (share n t events) := by
  suffices hall : w'.Homely n ∧ w'.settings? n = some settings ∧ ∃ task, w'.tasks[t]? = some task ∧
      Status n sender s settings w' task (share n t events) from hall.2.2
  induction h with
  | start => exact ⟨hhome, hsettings, _, htask, .ready⟩
  | next _ happens ih =>
    obtain ⟨hhome, hsettings, task, htask, hstatus⟩ := ih
    obtain ⟨hhome', hsame⟩ := hhome.next happens
    rw [share_concat]
    exact ⟨hhome', hsame.trans hsettings, status_next hhome hsettings htask hstatus happens⟩

/-! ### The counters balance -/

theorem KeepsConnections.imbalance (h : KeepsConnections n w w') :
    w'.imbalance n = w.imbalance n := by
  refine imbalance_of_same (fun t => ?_) h.outstanding
  cases hold : w.call? t with
  | some a =>
    have hsame : w'.tasks[t]? = w.tasks[t]? := h.calls t (by rw [hold]; rfl)
    rw [mem_pending_iff, mem_pending_iff, hsame]
  | none =>
    refine iff_of_false (fun ht => ?_) (notMem_pending hold)
    obtain ⟨task, htask, hout⟩ := mem_pending_iff.1 ht
    obtain ⟨a, hcall, -⟩ := Task.takesIn_of_isOutstanding hout
    have hfresh := h.fresh t task hold htask (by rw [hcall]; rfl)
    rw [hfresh.isOutstanding] at hout
    cases hout

theorem imbalance_next {e : Event} (he : e.Happens (KeepsConnections n)) :
    e.after.imbalance n = e.before.imbalance n := by
  obtain ⟨cause, before, after⟩ := e
  cases cause with
  | task t => exact imbalance_step he
  | removal m a =>
    obtain rfl : after = before.removeBonded m a := he
    exact imbalance_removeBonded a
  | other => exact he.imbalance

theorem History.imbalance {events : List Event} (h : History (KeepsConnections n) w events w') :
    w'.imbalance n = w.imbalance n := by
  induction h with
  | start => rfl
  | next _ happens ih => exact (imbalance_next happens).trans ih

/-- A task that takes a connection in stays as it is once it has an outcome. -/
theorem History.kept {events : List Event} {task : Task}
    (h : History (KeepsConnections n) w events w') (htask : w.tasks[t]? = some task)
    (hcall : task.activity.call?.isSome = true) (hover : task.outcome.isSome = true) :
    w'.tasks[t]? = some task := by
  induction h with
  | start => exact htask
  | @next events e past happens ih =>
    obtain ⟨cause, before, after⟩ := e
    cases cause with
    | task u =>
      have hne : t ≠ u := by
        rintro rfl
        have hstep : before.step t = some after := happens
        simp [step, ih, hover] at hstep
      exact (step_apart happens).tasks t task hne ih
    | removal m a =>
      obtain rfl : after = before.removeBonded m a := happens
      rw [tasks_removeBonded]
      exact ih
    | other =>
      have hcalled : (before.call? t).isSome = true := by rwa [call?, ih]
      exact (happens.calls t hcalled).trans ih

/-- The tasks of node `n` with the outcome `.accepted (.error .timeout)`. -/
def timedOut (w : World) (n : Nat) : Set Nat :=
  {t | ∃ task, w.tasks[t]? = some task ∧ task.TakesIn n ∧
    task.outcome = some (.accepted (.error .timeout))}

/-- Every task that takes a connection in for node `n` is `IsFresh`, or has an outcome. -/
def Quiet (w : World) (n : Nat) : Prop :=
  ∀ (t : Nat) (task : Task), w.tasks[t]? = some task → task.TakesIn n →
    task.IsFresh ∨ task.outcome.isSome = true

/-- Every task that takes a connection in for node `n` has the outcome `.accepted r` in `w'`, or is
as it was in `w`. -/
def Completed (w : World) (n : Nat) (w' : World) : Prop :=
  ∀ (t : Nat) (task : Task), w'.tasks[t]? = some task → task.TakesIn n →
    (∃ r, task.outcome = some (.accepted r)) ∨ w.tasks[t]? = some task

theorem timedOut_subset_pending : w.timedOut n ⊆ w.pending n := by
  rintro t ⟨task, htask, hn, houtcome⟩
  exact mem_pending_iff.2 ⟨task, htask, (Task.isOutstanding_iff_of_accepted houtcome).2 ⟨hn, rfl⟩⟩

/-- The connections that are `pending` after a history and were not before are those that have
`timedOut`. -/
theorem History.pending_sdiff {events : List Event} (h : History (KeepsConnections n) w events w')
    (hquiet : w.Quiet n) (hdone : w.Completed n w') :
    w.pending n ⊆ w'.pending n ∧ w'.pending n \ w.pending n = w'.timedOut n \ w.timedOut n := by
  -- What was outstanding at the beginning was over by then, so it is as it was.
  have hover {t : Nat} (ht : t ∈ w.pending n) : ∃ task, w.tasks[t]? = some task ∧
      w'.tasks[t]? = some task ∧ task.isOutstanding n = true := by
    obtain ⟨task, htask, hout⟩ := mem_pending_iff.1 ht
    rcases hquiet t task htask (Task.takesIn_of_isOutstanding hout) with hfresh | hover
    · rw [hfresh.isOutstanding] at hout
      cases hout
    · obtain ⟨a, hcall, -⟩ := Task.takesIn_of_isOutstanding hout
      exact ⟨task, htask, h.kept htask (by rw [hcall]; rfl) hover, hout⟩
  refine ⟨fun t ht => ?_, Set.ext fun t => ⟨?_, ?_⟩⟩
  · obtain ⟨task, -, htask', hout⟩ := hover ht
    exact mem_pending_iff.2 ⟨task, htask', hout⟩
  · rintro ⟨ht', ht⟩
    obtain ⟨task, htask', hout⟩ := mem_pending_iff.1 ht'
    rcases hdone t task htask' (Task.takesIn_of_isOutstanding hout) with ⟨r, hr⟩ | hsame
    · obtain ⟨hn, rfl⟩ := (Task.isOutstanding_iff_of_accepted hr).1 hout
      exact ⟨⟨task, htask', hn, hr⟩, fun hold => ht (timedOut_subset_pending hold)⟩
    · exact absurd (mem_pending_iff.2 ⟨task, hsame, hout⟩) ht
  · rintro ⟨ht', ht⟩
    refine ⟨timedOut_subset_pending ht', fun hold => ht ?_⟩
    obtain ⟨task, htask', hn, htimeout⟩ := ht'
    obtain ⟨task', htask, hkept, -⟩ := hover hold
    cases htask'.symm.trans hkept
    exact ⟨task, htask, hn, htimeout⟩

/-! ### Every connection is accounted for -/

variable {events : List Event} {r : Except LinkError Unit}

theorem History.fate (hhome : w.Homely n) (h : History (KeepsConnections n) w events w')
    (hsettings : w.settings? n = some settings)
    (htask : w.tasks[t]? = some { activity := .accepting ⟨n, sender, .ready (.script s)⟩ })
    (houtcome : w'.outcome? t = some (.accepted r)) :
    ∃ fate : Fate, fate.Fits settings s ∧ r = fate.result sender ∧
      share n t events = fate.gain sender := by
  obtain ⟨task, htask', hstatus⟩ := h.status hsettings hhome htask
  have hout : task.outcome = some (.accepted r) := by
    rw [outcome?, htask'] at houtcome
    exact houtcome
  generalize share n t events = gain at hstatus
  cases hstatus with
  | ready | reading | handling => cases hout
  | ended fate fits _ outcome gained =>
    cases hout.symm.trans outcome
    exact ⟨fate, fits, rfl, gained⟩
  | aborted _ outcome => cases hout.symm.trans outcome

/-- **Every connection is accounted for.** A task that takes in a script `s` and has ended with
`.accepted r` has had exactly one `Fate` that `Fits` what `Frame.read` makes of `s`; `r` is its
`result` and the `share` of the task its `gain`. An error `r` is one in framing, a `.timeout`, or a
`.routing`. Where every connection is `Completed`, the counters of accepted connections, of frames
and of framing errors balance with those that have timed out. -/
theorem connections_accounted (hhome : w.Homely n) (h : History (KeepsConnections n) w events w') :
    (∀ (t : Nat) (sender : Address) (s : Script) (settings : Node) (r : Except LinkError Unit),
      w.settings? n = some settings →
      w.tasks[t]? = some { activity := .accepting ⟨n, sender, .ready (.script s)⟩ } →
      w'.outcome? t = some (.accepted r) →
      (∃! fate : Fate, fate.Fits settings s ∧ r = fate.result sender ∧
        share n t events = fate.gain sender) ∧
      ∀ e, r = .error e → e.isFraming = true ∨ e = .timeout ∨ ∃ x, e = .routing x) ∧
    ∀ before after : Node, w.nodes[n]? = some before → w'.nodes[n]? = some after →
      w.Quiet n → w.Completed n w' →
      after.metrics.connectionsAccepted - before.metrics.connectionsAccepted
        = (after.metrics.framesReceived - before.metrics.framesReceived)
          + (after.metrics.framingErrors - before.metrics.framingErrors)
          + UInt64.ofNat (w'.timedOut n \ w.timedOut n).ncard := by
  refine ⟨fun t sender s settings r hsettings htask houtcome => ?_,
    fun before after hbefore hafter hquiet hdone => ?_⟩
  · obtain ⟨fate, fits, rfl, gained⟩ := h.fate hhome hsettings htask houtcome
    refine ⟨⟨fate, ⟨fits, rfl, gained⟩, ?_⟩, fun e => Fate.error_of_fits fits⟩
    rintro other ⟨hfits, hresult, hgain⟩
    exact Fate.eq_of_gain hfits fits hresult.symm (hgain.symm.trans gained)
  · obtain ⟨hsubset, hnew⟩ := h.pending_sdiff hquiet hdone
    -- All that the counters tell is modulo 2 ^ 64, and so is the number of those that timed out.
    have hcard := Set.ncard_sdiff_add_ncard_of_subset hsubset (w'.pending_finite n)
    have hbalance := h.imbalance
    rw [imbalance, imbalance, ← hcard, hnew, UInt64.ofNat_add] at hbalance
    simp only [outstanding, hbefore, hafter, Option.map_some, Option.getD_some,
      Metrics.outstanding] at hbalance
    grind

/-- A connection that is cut off, one with a message for nobody, and one that falls silent. -/
theorem connections_accounted_mixed :
    let a : Address := ⟨#v[2, 0, 0, 0, 0, 1]⟩
    let b : Address := ⟨#v[2, 0, 0, 0, 0, 2]⟩
    let app : Application :=
      { deviceId := "desk", secret := Vector.replicate 32 0, announcement := .ofKind 1 .identity }
    let node : Node := { address := b, config := { listener := { readTimeout := 0 } }, app }
    let script (text : String) (ending : Script.Ending) : Script := ⟨[Bytes.ofText text], ending⟩
    let bring (s : Script) : Task := { activity := .accepting ⟨0, a, .ready (.script s)⟩ }
    let w : World :=
      { nodes := #[node]
        tasks := #[bring (script "[1," (.fault .brokenPipe)),
          bring (script "[1,\"note\",\x7b\x7d]" .ended), bring (script "[1," .silent)] }
    ∃ events w', w.replay? [.task 0, .task 1, .task 2, .task 2, .task 1, .task 0, .task 0, .task 1,
        .task 2] = some (events, w') ∧
      (∃! fate : Fate, fate.Fits node.settings (script "[1,\"note\",\x7b\x7d]" .ended) ∧
        .error (.routing (.noSession "note" a)) = fate.result a ∧ share 0 1 events = fate.gain a) ∧
      UInt64.ofNat (w'.timedOut 0 \ w.timedOut 0).ncard = 1 := by
  intro a b app node script bring w
  let causes : List Cause := [.task 0, .task 1, .task 2, .task 2, .task 1, .task 0, .task 0,
    .task 1, .task 2]
  have hrun : (w.replay? causes).map (fun r =>
      (r.2.tasks.map (·.outcome), r.2.nodes[0]?.map (·.metrics))) = some
      (#[some (.accepted (.error (.serialization (.ended .value)))),
        some (.accepted (.error (.routing (.noSession "note" a)))),
        some (.accepted (.error .timeout))], some
      { connectionsAccepted := 3, framesReceived := 1, bytesReceived := 13, framingErrors := 1,
        routingFailures := 1 }) := by decide +kernel
  obtain ⟨⟨events, w'⟩, hreplay, hend⟩ := Option.map_eq_some_iff.1 hrun
  obtain ⟨houtcomes, hmetrics⟩ := Prod.mk.inj hend
  have hover (t : Nat) : w'.outcome? t = (w'.tasks.map (·.outcome))[t]?.join := by
    rw [Array.getElem?_map, outcome?]
    cases w'.tasks[t]? <;> rfl
  have hhome : w.Homely 0 := by
    intro node' hnode' s hs
    cases hnode'
    rcases hs with hs | hs <;> cases hs
  have hquiet : w.Quiet 0 := by
    rintro (_ | _ | _ | t) task htask -
    · cases htask
      exact .inl ⟨rfl, rfl, fun _ h => ⟨_, by cases h; rfl⟩⟩
    · cases htask
      exact .inl ⟨rfl, rfl, fun _ h => ⟨_, by cases h; rfl⟩⟩
    · cases htask
      exact .inl ⟨rfl, rfl, fun _ h => ⟨_, by cases h; rfl⟩⟩
    · cases htask
  have hdone : w.Completed 0 w' := by
    intro t task htask _
    left
    have houtcome : (w'.tasks.map (·.outcome))[t]? = some task.outcome := by
      rw [Array.getElem?_map, htask, Option.map_some]
    rw [houtcomes] at houtcome
    rcases t with _ | _ | _ | t
    · exact ⟨_, (Option.some.inj houtcome).symm⟩
    · exact ⟨_, (Option.some.inj houtcome).symm⟩
    · exact ⟨_, (Option.some.inj houtcome).symm⟩
    · cases houtcome
  obtain ⟨hfates, hbalance⟩ := connections_accounted hhome (History.start.append_replay hreplay)
  obtain ⟨after, hafter, hafter_metrics⟩ := Option.map_eq_some_iff.1 hmetrics
  refine ⟨events, w', hreplay, (hfates 1 a _ node.settings _ rfl rfl ?_).1, ?_⟩
  · rw [hover, houtcomes]
    rfl
  · have hsum := hbalance node after rfl hafter hquiet hdone
    rw [hafter_metrics, show node.metrics = {} from rfl] at hsum
    grind

end World
end RadioLink

import RadioLink.Proofs.World.Tries

/-!
# Connecting with retries

A task that connects with retries makes one attempt after the other, up to the first that succeeds
or the last that it may make:

    begun i+1 = over i + min ((i + 1) * retryBackoff) maxRetryBackoff

to the moment, however long others take in between. `Retry.Turn` has one constructor for each way in
which connecting goes on; `Retry.Standing` says how far it has come and which attempts there have
been so far, and every step brings it on.
-/

namespace RadioLink

open World (Aside KeepsTimer History)

/-! ### The policy -/

/-- The product `retryBackoff * i` may be cut off at any `longest` that is no shorter than
`maxRetryBackoff`: `backoffFor` stays the same. -/
theorem SessionConfig.backoffFor_eq (c : SessionConfig) {longest : Nat}
    (h : c.maxRetryBackoff ≤ longest) (i : Nat) :
    c.backoffFor i = min (min (c.retryBackoff * i) longest) c.maxRetryBackoff := by
  rw [Nat.min_assoc, Nat.min_eq_right h]
  rfl

/-- What the `i`-th attempt looks up: `.service` up to `serviceLookupAttempts`, then a channel from
2 to 29. -/
def LinkConfig.Dials (c : LinkConfig) (i : Nat) (e : Endpoint) : Prop :=
  if i ≤ c.session.serviceLookupAttempts then e = .service c.service.uuid
  else ∃ n, e = .channel n ∧ 2 ≤ n ∧ n ≤ 29

/-- When attempt `i` may begin, counted from zero: `tries[0]` at once, `tries[i + 1]` once
`tries[i]` is over and `backoffFor (i + 1)` has passed. -/
def SessionConfig.begins? (c : SessionConfig) (since : Nat) (tries : List Try) : Nat → Option Nat
  | 0 => some since
  | i + 1 => (tries[i]?.bind (·.over?)).map fun x => x.1 + c.backoffFor (i + 1)

theorem SessionConfig.begins?_append (c : SessionConfig) (since : Nat) {past : List Try} {i : Nat}
    (hi : i ≤ past.length) (x : Try) :
    c.begins? since (past ++ [x]) i = c.begins? since past i := by
  cases i with
  | zero => rfl
  | succ i => rw [begins?, List.getElem?_append_left hi, begins?]

theorem SessionConfig.begins?_length (c : SessionConfig) (since : Nat) (past : List Try)
    (x : Try) : c.begins? since (past ++ [x]) (past ++ [x]).length
      = x.over?.map fun y => y.1 + c.backoffFor (past ++ [x]).length := by
  rw [List.length_append, List.length_singleton, begins?, List.getElem?_concat_length,
    Option.bind_some]

/-! ### Turns -/

namespace Retry

theorem dials_endpoint (r : Retry) (c : LinkConfig) (w : World) :
    c.Dials r.attempt (r.endpoint c w).1 := by
  unfold LinkConfig.Dials endpoint
  split
  · rfl
  · have hlt := Nat.mod_lt w.drawNumber.1 (show 0 < 28 by decide)
    refine ⟨World.fallbackChannel w.drawNumber.1, rfl, ?_, ?_⟩ <;>
      simp only [World.fallbackChannel, fallbackChannels] <;> omega

/-- What one step of `r` can be for `node`, with one constructor for each way through `Retry.step`.
-/
inductive Turn (r : Retry) (node : Node) (w : World) : Progress × World → Prop where
  | spent (stage : r.stage = .ready)
      (most : node.config.session.connectAttempts < r.attempt) :
      Turn r node w (.failed (.attemptsExhausted node.config.session.connectAttempts), w)
  | calls {e : Endpoint} {call : Call} {v : World} (stage : r.stage = .ready)
      (most : r.attempt ≤ node.config.session.connectAttempts)
      (dials : node.config.Dials r.attempt e)
      (connect : (w.air.connect node.address r.target e).1 = .ok call.link)
      (due : call.deadline.due = w.now + node.config.session.connectTimeout)
      (counts : w.CountsUp r.node [.connectAttempt] v)
      (air : v.air = w.air.perform (.connect node.address r.target e)) :
      Turn r node w (.going { r with stage := .calling call }, v)
  | refused {e : Endpoint} {fault : LinkError} {v : World} (stage : r.stage = .ready)
      (most : r.attempt ≤ node.config.session.connectAttempts)
      (dials : node.config.Dials r.attempt e)
      (connect : (w.air.connect node.address r.target e).1 = .error fault)
      (counts : w.CountsUp r.node [.connectAttempt] v)
      (air : v.air = w.air.perform (.connect node.address r.target e)) :
      Turn r node w (r.afterFailure node.config v)
  | connected {call : Call} {stream : LinkEnd} {v : World} (stage : r.stage = .calling call)
      (answer : w.answer? call = some (.ok stream, v)) : Turn r node w (.connected stream, v)
  | failed {call : Call} {e : LinkError} {v : World} (stage : r.stage = .calling call)
      (answer : w.answer? call = some (.error e, v)) : Turn r node w (r.afterFailure node.config v)
  | resumes {timer : Timer} (stage : r.stage = .pausing timer) (due : timer.due ≤ w.now) :
      Turn r node w (.going { r with stage := .ready }, w)

variable {r : Retry} {node : Node} {w v : World} {q : Progress × World}

/-- Whatever `Retry.step` returns is one of the `Turn`s. -/
theorem turn_of_step (hnode : w.nodes[r.node]? = some node) (h : r.step w = some q) :
    r.Turn node w q := by
  obtain ⟨node', hnode', hstep⟩ := step_of_step h
  cases hnode.symm.trans hnode'
  -- to look for the endpoint and to count the attempt leaves the air as it was
  obtain ⟨haside, hair⟩ : (w.count r.node .connectAttempt).Aside
      ((r.endpoint node.config w).2.count r.node .connectAttempt) ∧
      ((r.endpoint node.config w).2.count r.node .connectAttempt).air = w.air := by
    refine ⟨(Aside.refl.endpoint r node.config).count _ _, ?_⟩
    unfold endpoint
    split <;> rfl
  have hnow := haside.now
  have hplaced := World.call_cases ((r.endpoint node.config w).2.count r.node .connectAttempt)
    node.address r.target (r.endpoint node.config w).1 node.config.session.connectTimeout
  rw [hair] at hplaced
  cases hstep with
  | spent stage most => exact .spent stage most
  | calls stage most placed =>
    obtain ⟨fault, v, heq, -⟩ | ⟨link, v, heq, hlink, hv, hair'⟩ := hplaced <;>
      cases placed.symm.trans heq
    refine .calls stage most (r.dials_endpoint node.config w) hlink ?_ (haside.trans hv) hair'
    exact congrArg (· + _) hnow
  | refused stage most placed =>
    obtain ⟨fault, v, heq, hfault, hv, hair'⟩ | ⟨link, v, heq, -⟩ := hplaced <;>
      cases placed.symm.trans heq
    exact .refused stage most (r.dials_endpoint node.config w) hfault (haside.trans hv) hair'
  | connected stage answer => exact .connected stage answer
  | failed stage answer => exact .failed stage answer
  | resumes stage due => exact .resumes stage (of_decide_eq_true due)

/-- Where `Retry.step` returns `none` the task waits for the deadline of its `Call` or for the end
of its pause. -/
theorem step_eq_none (hnode : w.nodes[r.node]? = some node) (h : r.step w = none) :
    (∃ call, r.stage = .calling call ∧ w.now < call.deadline.due) ∨
    ∃ timer, r.stage = .pausing timer ∧ w.now < timer.due := by
  simp only [step, hnode] at h
  split at h
  · split at h
    · split at h <;> cases h
    · cases h
  · next call hstage =>
    unfold World.answer? at h
    cases hanswer : w.air.answer? call.link with
    | some r => cases r <;> simp [hanswer] at h
    | none =>
      by_cases hdue : w.isDue call.deadline = true
      · simp [hanswer, hdue] at h
      · exact .inl ⟨call, hstage, by simpa [World.isDue] using hdue⟩
  · next timer hstage =>
    split at h
    · cases h
    · next hdue => exact .inr ⟨timer, hstage, by simpa [World.isDue] using hdue⟩

/-- What `afterFailure` returns: `.pausing` while `r.attempt < connectAttempts`,
`.attemptsExhausted` from then on. Either counts one `connectFailure` and leaves the air as it is.
-/
theorem afterFailure_cases (r : Retry) (c : LinkConfig) (v : World) :
    ∃ p u, r.afterFailure c v = (p, u) ∧ v.CountsUp r.node [.connectFailure] u ∧ u.air = v.air ∧
      ((∃ timer, p = .going ⟨r.node, r.target, r.attempt + 1, .pausing timer⟩ ∧
          r.attempt < c.session.connectAttempts ∧
          timer.due = v.now + c.session.backoffFor r.attempt) ∨
        p = .failed (.attemptsExhausted c.session.connectAttempts) ∧
          c.session.connectAttempts ≤ r.attempt) := by
  unfold afterFailure
  dsimp only
  split
  · next hlt => exact ⟨_, _, rfl, Aside.refl.withTimer, rfl, .inl ⟨_, rfl, hlt, rfl⟩⟩
  · next hlt => exact ⟨_, _, rfl, Aside.refl, rfl, .inr ⟨rfl, Nat.le_of_not_lt hlt⟩⟩

end Retry

/-! ### Schedules -/

/-- The attempts of `tries` begin when `begins?` allows it, look up what `Dials` says, and have come
about as `Dial.Makes` says; all but the last have failed. -/
structure Scheduled (c : LinkConfig) (d : Dial) (since t : Nat) (events : List Event)
    (tries : List Try) : Prop where
  begins : ∀ i x, tries[i]? = some x → c.session.begins? since tries i = some x.begun
  dials : ∀ i x, tries[i]? = some x → c.Dials (i + 1) x.endpoint
  made : ∀ x ∈ tries, d.Makes t events x
  failed : ∀ i x, tries[i]? = some x → i + 1 < tries.length → x.failed = true

namespace Scheduled

variable {c : LinkConfig} {d : Dial} {since t : Nat} {events : List Event} {tries past : List Try}

theorem event (h : Scheduled c d since t events tries) (x : Event) :
    Scheduled c d since t (events ++ [x]) tries :=
  { h with made := fun y hy => (h.made y hy).concat x }

/-- One more attempt leaves the `tries` `Scheduled` if it begins and dials as it has to. -/
theorem concat {x : Try} (h : Scheduled c d since t events past)
    (hall : ∀ y ∈ past, y.failed = true)
    (hbegins : c.session.begins? since past past.length = some x.begun)
    (hdials : c.Dials (past.length + 1) x.endpoint) (hmade : d.Makes t events x) :
    Scheduled c d since t events (past ++ [x]) := by
  have hcases {P : Nat → Try → Prop} (hpast : ∀ i y, past[i]? = some y → P i y)
      (hlast : P past.length x) (i : Nat) (y : Try) (hy : (past ++ [x])[i]? = some y) : P i y := by
    rw [List.getElem?_append] at hy
    split at hy
    · exact hpast i y hy
    · next hge =>
      obtain ⟨hlt, rfl⟩ := List.getElem?_eq_some_iff.1 hy
      obtain rfl : i = past.length := by
        rw [List.length_singleton] at hlt
        omega
      simpa using hlast
  refine ⟨hcases (fun i y hy => ?_) ?_, hcases h.dials hdials, fun y hy => ?_, ?_⟩
  · have hlt := (List.getElem?_eq_some_iff.1 hy).1
    rw [c.session.begins?_append since (Nat.le_of_lt hlt), h.begins i y hy]
  · rw [c.session.begins?_append since (Nat.le_refl _), hbegins]
  · rcases List.mem_append.1 hy with hy | hy
    · exact h.made y hy
    · rwa [List.mem_singleton.1 hy]
  · refine hcases (fun i y hy _ => hall y (List.mem_of_getElem? hy)) fun hlt => ?_
    rw [List.length_append, List.length_singleton] at hlt
    exact absurd hlt (Nat.lt_irrefl _)

end Scheduled

/-! ### How far it has come -/

namespace Retry

/-- How far `Retry.Stage` has come: the number of the attempt that is next or under way, the `tries`
so far, and a bound `left` on the steps that remain. -/
inductive Standing (c : LinkConfig) (d : Dial) (since t : Nat) (events : List Event) (now : Nat) :
    Nat → Stage → List Try → Nat → Prop where
  | ready {past : List Try} (scheduled : Scheduled c d since t events past)
      (all : ∀ x ∈ past, x.failed = true)
      (begins : c.session.begins? since past past.length = some now)
      (most : past = [] ∨ past.length < c.session.connectAttempts) :
      Standing c d since t events now (past.length + 1) .ready past
        (3 * (c.session.connectAttempts - past.length) + 1)
  | calling {past : List Try} {call : Call} {e : Endpoint} {begun : Nat}
      (scheduled : Scheduled c d since t events past) (all : ∀ x ∈ past, x.failed = true)
      (begins : c.session.begins? since past past.length = some begun)
      (dials : c.Dials (past.length + 1) e) (most : past.length < c.session.connectAttempts)
      (waits : d.Waits t events now call e begun) :
      Standing c d since t events now (past.length + 1) (.calling call) (past ++ [⟨e, begun, none⟩])
        (3 * (c.session.connectAttempts - past.length))
  | pausing {past : List Try} {timer : Timer} (scheduled : Scheduled c d since t events past)
      (all : ∀ x ∈ past, x.failed = true)
      (begins : c.session.begins? since past past.length = some timer.due)
      (most : past.length < c.session.connectAttempts) (time : now ≤ timer.due) :
      Standing c d since t events now (past.length + 1) (.pausing timer) past
        (3 * (c.session.connectAttempts - past.length) + 2)

/-- What `Retry` returns: the connection of the first attempt that succeeds, or `.attemptsExhausted`
when all of `connectAttempts` have failed. -/
inductive Over (c : LinkConfig) (d : Dial) (since t : Nat) (events : List Event) :
    List Try → Except LinkError LinkEnd → Prop where
  | connected {past : List Try} {e : Endpoint} {begun ended : Nat} {stream : LinkEnd}
      (scheduled : Scheduled c d since t events (past ++ [⟨e, begun, some (ended, .ok stream)⟩]))
      (all : ∀ x ∈ past, x.failed = true) (most : past.length < c.session.connectAttempts) :
      Over c d since t events (past ++ [⟨e, begun, some (ended, .ok stream)⟩]) (.ok stream)
  | exhausted {tries : List Try} (scheduled : Scheduled c d since t events tries)
      (all : ∀ x ∈ tries, x.failed = true) (most : tries.length = c.session.connectAttempts) :
      Over c d since t events tries (.error (.attemptsExhausted c.session.connectAttempts))

/-- `Standing` while a step returns `.going`, `Over` when it returns anything else. -/
def Progress.Stands (c : LinkConfig) (d : Dial) (n since t : Nat) (events : List Event) (now : Nat)
    (tries : List Try) (left : Nat) : Progress → Prop
  | .going r => r.node = n ∧ r.target = d.target ∧
      Standing c d since t events now r.attempt r.stage tries left
  | .connected stream => Over c d since t events tries (.ok stream)
  | .failed e => Over c d since t events tries (.error e)

variable {c : LinkConfig} {d : Dial} {n since t now left : Nat} {events : List Event}
  {tries past : List Try} {r : Retry} {node : Node} {w v : World} {q : Progress × World} {x : Event}

/-- After a failed attempt `afterFailure` leaves a `Standing` in `.pausing`, or is `Over`, with less
than `3 * (connectAttempts - past.length)` steps left. -/
theorem stands_afterFailure (r : Retry) {y : Try} {e : LinkError} (hn : r.node = n)
    (htarget : r.target = d.target) (hscheduled : Scheduled c d since t events (past ++ [y]))
    (hall : ∀ x ∈ past, x.failed = true) (hover : y.over? = some (v.now, .error e))
    (hattempt : r.attempt = past.length + 1) (hmost : past.length < c.session.connectAttempts) :
    ∃ left, left < 3 * (c.session.connectAttempts - past.length) ∧
      (r.afterFailure c v).1.Stands c d n since t events v.now (past ++ [y]) left := by
  have hlength : (past ++ [y]).length = past.length + 1 := by simp
  have hall' : ∀ x ∈ past ++ [y], x.failed = true := by
    intro x hx
    rcases List.mem_append.1 hx with hx | hx
    · exact hall x hx
    · rw [List.mem_singleton.1 hx, Try.failed, hover]
  obtain ⟨p, u, heq, -, -, ⟨timer, rfl, hlt, hdue⟩ | ⟨rfl, hle⟩⟩ := r.afterFailure_cases c v
  · rw [heq]
    have hbegins : c.session.begins? since (past ++ [y]) (past ++ [y]).length = some timer.due := by
      rw [c.session.begins?_length, hover, hdue, hattempt, hlength]
      rfl
    rw [hattempt, ← hlength] at hlt
    have hpausing : Standing c d since t events v.now ((past ++ [y]).length + 1) (.pausing timer)
        (past ++ [y]) _ :=
      .pausing hscheduled hall' hbegins hlt (hdue ▸ Nat.le_add_right ..)
    rw [hlength, ← hattempt] at hpausing
    exact ⟨_, by omega, hn, htarget, hpausing⟩
  · rw [heq]
    refine ⟨0, by omega, .exhausted hscheduled hall' ?_⟩
    omega

/-- Every `Turn` leads from one `Standing` to the next with fewer steps `left`, and `Dial.Books`
holds of what it adds to `tries`. -/
theorem Standing.turn (h : Standing c d since t events x.before.now r.attempt r.stage tries left)
    (hturn : r.Turn node x.before q) (hcause : x.cause = .task t) (hc : node.config = c)
    (hd : d = ⟨node.address, r.target, c.session.connectTimeout⟩) :
    ∃ tries' left', left' < left ∧
      q.1.Stands c d r.node since t (events ++ [x]) x.before.now tries' left' ∧
      d.Books r.node x.before q.2 tries tries' := by
  obtain ⟨n, target, attempt, stage⟩ := r
  subst hc hd
  cases hturn with
  | spent stage most =>
    cases stage
    cases h with
    | ready scheduled all _ most' =>
      -- only a first attempt can be one too many
      obtain rfl | hlt := most'
      · refine ⟨[], 0, Nat.succ_pos _, .exhausted (scheduled.event x) nofun ?_, .refl⟩
        exact (Nat.lt_one_iff.1 most).symm
      · exact absurd hlt (Nat.not_lt.2 (Nat.le_of_lt_succ most))
  | calls stage most dials connect due counts air =>
    cases stage
    cases h with
    | ready scheduled all begins _ =>
      refine ⟨_, _, ?_, ⟨rfl, rfl, .calling (scheduled.event x) all begins dials most
        (.of_call hcause connect due)⟩, .of_call counts air⟩
      exact Nat.lt_succ_self _
  | @refused e fault v stage most dials connect counts air =>
    cases stage
    cases h with
    | ready scheduled all begins _ =>
      -- an attempt that is refused at once begins and is over in this very step
      let y : Try := ⟨e, x.before.now, some (x.before.now, .error fault)⟩
      have hmade : Dial.Makes ⟨node.address, target, node.config.session.connectTimeout⟩ t
          (events ++ [x]) y := .refused (.last hcause ⟨connect, rfl⟩)
      have hnow : v.now = x.before.now := counts.keeps.2.1
      let r : Retry := ⟨n, target, tries.length + 1, .ready⟩
      obtain ⟨left', hlt, hstands⟩ := r.stands_afterFailure rfl rfl
        ((scheduled.event x).concat all begins dials hmade) all (by rw [hnow]) rfl most
      obtain ⟨p, u, heq, hcounts, hair, -⟩ := r.afterFailure_cases node.config v
      rw [heq, hnow] at hstands
      rw [heq]
      exact ⟨_, left', Nat.lt_succ_of_lt hlt, hstands, .of_call (counts.trans hcounts)
        (hair.trans air)⟩
  | connected stage answer =>
    cases stage
    cases h with
    | calling scheduled all begins dials most waits =>
      have hscheduled := (scheduled.event x).concat all begins dials (waits.answered hcause answer)
      exact ⟨_, 0, by omega, .connected hscheduled all most, .of_answer answer .refl rfl rfl⟩
  | @failed call e v stage answer =>
    cases stage
    cases h with
    | @calling past _ _ _ scheduled all begins dials most waits =>
      have hscheduled := (scheduled.event x).concat all begins dials (waits.answered hcause answer)
      have hnow : v.now = x.before.now := (Aside.refl.answer answer).now
      let r : Retry := ⟨n, target, past.length + 1, .calling call⟩
      obtain ⟨left', hlt, hstands⟩ :=
        r.stands_afterFailure rfl rfl hscheduled all (by rw [hnow]) rfl most
      obtain ⟨p, u, heq, hcounts, hair, -⟩ := r.afterFailure_cases node.config v
      rw [heq, hnow] at hstands
      rw [heq]
      exact ⟨_, left', hlt, hstands, .of_answer answer hcounts hair rfl⟩
  | resumes stage due =>
    cases stage
    cases h with
    | pausing scheduled all begins most time =>
      obtain hnow := Nat.le_antisymm time due
      refine ⟨_, _, Nat.lt_succ_self _, ⟨rfl, rfl, .ready (scheduled.event x) all ?_ (.inr most)⟩,
        .refl⟩
      rw [hnow, begins]

/-- While connecting goes on, each of the `tries` is under way (`over? = none`), or has failed and
is not the last of `connectAttempts`. -/
theorem Standing.scheduled_tries {attempt : Nat} {stage : Stage}
    (h : Standing c d since t events now attempt stage tries left) :
    Scheduled c d since t events tries ∧ tries.length ≤ c.session.connectAttempts ∧
      ∀ i x, tries[i]? = some x →
        x.over? = none ∨ x.failed = true ∧ i + 1 < c.session.connectAttempts := by
  have hearlier {past : List Try} (all : ∀ x ∈ past, x.failed = true)
      (most : past = [] ∨ past.length < c.session.connectAttempts) {i : Nat} {x : Try}
      (hx : past[i]? = some x) : x.failed = true ∧ i + 1 < c.session.connectAttempts := by
    have hlt := (List.getElem?_eq_some_iff.1 hx).1
    refine ⟨all x (List.mem_of_getElem? hx), ?_⟩
    obtain rfl | most := most
    · cases hlt
    · omega
  cases h with
  | ready scheduled all _ most =>
    refine ⟨scheduled, ?_, fun i x hx => .inr (hearlier all most hx)⟩
    obtain rfl | most := most
    · exact Nat.zero_le _
    · exact Nat.le_of_lt most
  | pausing scheduled all _ most =>
    exact ⟨scheduled, Nat.le_of_lt most, fun i x hx => .inr (hearlier all (.inr most) hx)⟩
  | calling scheduled all begins dials most waits =>
    refine ⟨scheduled.concat all begins dials (.waits waits.called), ?_, fun i x hx => ?_⟩
    · rw [List.length_append]
      exact most
    · rw [List.getElem?_append] at hx
      split at hx
      · exact .inr (hearlier all (.inr most) hx)
      · obtain ⟨_, rfl⟩ := List.getElem?_eq_some_iff.1 hx
        simp

/-- When connecting is `Over`, either the last of the `tries` has succeeded, or there are
`connectAttempts` of them and all have failed. -/
theorem Over.scheduled_tries {o : Except LinkError LinkEnd} (h : Over c d since t events tries o) :
    Scheduled c d since t events tries ∧ tries.length ≤ c.session.connectAttempts ∧
      ((∃ x ended stream, tries.getLast? = some x ∧ x.over? = some (ended, .ok stream) ∧
          o = .ok stream) ∨
        tries.length = c.session.connectAttempts ∧ (∀ x ∈ tries, x.failed = true) ∧
          o = .error (.attemptsExhausted c.session.connectAttempts)) := by
  cases h with
  | connected scheduled all most =>
    refine ⟨scheduled, ?_, .inl ⟨_, _, _, List.getLast?_concat, rfl, rfl⟩⟩
    rw [List.length_append]
    exact most
  | exhausted scheduled all most =>
    exact ⟨scheduled, Nat.le_of_eq most, .inr ⟨most, all, rfl⟩⟩

/-! ### Tasks that connect -/

/-- `Standing` for a task: while it has no outcome its activity is `.connecting`, and afterwards its
outcome is what `Over` says. -/
inductive Effort (c : LinkConfig) (d : Dial) (n since t : Nat) (events : List Event) (now : Nat) :
    Task → List Try → Nat → Prop where
  | underway {attempt : Nat} {stage : Stage} {tries : List Try} {left : Nat}
      (standing : Standing c d since t events now attempt stage tries left) :
      Effort c d n since t events now { activity := .connecting ⟨n, d.target, attempt, stage⟩ }
        tries left
  | finished {task : Task} {tries : List Try} {o : Except LinkError LinkEnd}
      (ended : Over c d since t events tries o) (outcome : task.outcome = some (.connected o)) :
      Effort c d n since t events now task tries 0

end Retry

namespace World

open Retry (Effort)

variable {t n : Nat} {w w' : World} {r : Retry} {node : Node}

/-- What `World.step` makes of the `Progress` of a `.connecting` task. -/
def concludeConnecting (w : World) (t : Nat) : Retry.Progress → World
  | .going r => w.become t (.connecting r)
  | .connected stream => w.finish t (.connected (.ok stream))
  | .failed e => w.finish t (.connected (.error e))

theorem step_connecting (htask : w.tasks[t]? = some { activity := .connecting r }) :
    w.step t = (r.step w).map fun q => q.2.concludeConnecting t q.1 := by
  simp only [step, htask, Option.isSome_none, Bool.false_eq_true, if_false, Activity.step,
    stepConnecting]
  rcases r.step w with _ | ⟨_ | _ | _, v⟩ <;> rfl

theorem air_concludeConnecting (w : World) (t : Nat) (p : Retry.Progress) :
    (w.concludeConnecting t p).air = w.air := by
  cases p <;> rfl

theorem nodes_concludeConnecting (w : World) (t : Nat) (p : Retry.Progress) :
    (w.concludeConnecting t p).nodes = w.nodes := by
  cases p <;> rfl

theorem now_concludeConnecting (w : World) (t : Nat) (p : Retry.Progress) :
    (w.concludeConnecting t p).now = w.now := by
  cases p <;> rfl

end World

namespace Retry.Effort

open World (step_connecting tasks_become tasks_finish)

variable {c : LinkConfig} {d : Dial} {n since t left : Nat} {events : List Event} {tries : List Try}
  {node : Node} {task : Task} {x : Event}

/-- Events of others that satisfy `KeepsTimer` leave the `Effort` as it is. -/
theorem keep (h : Effort c d n since t events x.before.now task tries left)
    (htask : x.before.tasks[t]? = some task) (hnode : x.before.nodes[n]? = some node)
    (hx : KeepsTimer t x.before x.after) :
    Effort c d n since t (events ++ [x]) x.after.now task tries left := by
  cases h with
  | finished ended outcome =>
    refine .finished ?_ outcome
    cases ended with
    | connected scheduled all most => exact .connected (scheduled.event x) all most
    | exhausted scheduled all most => exact .exhausted (scheduled.event x) all most
  | underway standing =>
    refine .underway ?_
    cases standing with
    | ready scheduled all begins most =>
      -- a task that is about to make an attempt does so before time goes on
      have hnow := hx.now_eq fun hnone => by
        rw [step_connecting htask, Option.map_eq_none_iff] at hnone
        obtain ⟨_, hstage, -⟩ | ⟨_, hstage, -⟩ := step_eq_none hnode hnone <;> cases hstage
      exact .ready (scheduled.event x) all (hnow ▸ begins) most
    | calling scheduled all begins dials most waits =>
      exact .calling (scheduled.event x) all begins dials most (waits.keep htask rfl hx)
    | pausing scheduled all begins most time =>
      refine .pausing (scheduled.event x) all begins most (hx.time _ ?_ time)
      rw [World.timer?, htask]
      rfl

/-- A step of the task leads from one `Effort` to the next, with fewer steps `left`; `attempted` and
`share` grow by what is added to `tries`. -/
theorem step (h : Effort c d n since t events x.before.now task tries left)
    (htask : x.before.tasks[t]? = some task) (hnode : x.before.nodes[n]? = some node)
    (hc : node.config = c) (hd : d = ⟨node.address, d.target, c.session.connectTimeout⟩)
    (hcause : x.cause = .task t) (hs : x.before.step t = some x.after) :
    ∃ task' tries' left' cs, x.after.tasks[t]? = some task' ∧ left' < left ∧
      Effort c d n since t (events ++ [x]) x.after.now task' tries' left' ∧
      (∀ a, attempted t a events = d.attempts a tries →
        attempted t a (events ++ [x]) = d.attempts a tries') ∧
      tries'.flatMap Try.counts = tries.flatMap Try.counts ++ cs ∧ x.gain n = .counted cs := by
  cases h with
  | finished _ outcome => simp [World.step, htask, outcome] at hs
  | @underway attempt stage _ _ standing =>
    let r : Retry := ⟨n, d.target, attempt, stage⟩
    rw [step_connecting htask] at hs
    obtain ⟨⟨p, v⟩, hr, hafter⟩ := Option.map_eq_some_iff.1 hs
    obtain ⟨tries', left', hlt, hstands, ⟨acts, hair, hattempts⟩, cs, hcs, hcounts⟩ :=
      standing.turn (r := r) (turn_of_step hnode hr) hcause hc hd
    obtain ⟨htasks, hnow, -⟩ := hcounts.keeps
    have hkept : v.tasks[t]? = some { activity := .connecting r } := htasks ▸ htask
    have hnow' : x.after.now = x.before.now := by
      rw [← hafter, World.now_concludeConnecting, hnow]
    have hair' : x.after.air = acts.foldl Air.perform x.before.air := by
      rw [← hafter, World.air_concludeConnecting, hair]
    have hgain : x.gain n = .counted cs :=
      hcounts.gain hnode rfl (by rw [← hafter, World.nodes_concludeConnecting])
    -- what the step does to the air is the attempt that is added to `tries`
    have hrecorded (a : Address) (ha : attempted t a events = d.attempts a tries) :
        attempted t a (events ++ [x]) = d.attempts a tries' := by
      rw [attempted_concat, if_pos hcause, Event.attempts_of_acts hair', ha, hattempts]
    rw [hnow', ← hafter]
    cases p with
    | going r' =>
      obtain ⟨rfl, htarget, hstanding⟩ := hstands
      obtain ⟨_, _, attempt', stage'⟩ := r'
      obtain rfl := htarget
      exact ⟨_, tries', left', cs, tasks_become hkept, hlt, .underway hstanding, hrecorded, hcs,
        hgain⟩
    | connected stream =>
      exact ⟨_, tries', 0, cs, tasks_finish hkept, Nat.zero_lt_of_lt hlt, .finished hstands rfl,
        hrecorded, hcs, hgain⟩
    | failed e =>
      exact ⟨_, tries', 0, cs, tasks_finish hkept, Nat.zero_lt_of_lt hlt, .finished hstands rfl,
        hrecorded, hcs, hgain⟩

end Retry.Effort

/-! ### From the beginning to the end -/

/-- What has become of a `.connecting` task of node `n` between the worlds `w` and `v`; `tries` are
all of its attempts. -/
structure Retry.Report (node : Node) (target : Address) (n t : Nat) (w : World)
    (events : List Event) (v : World) (tries : List Try) : Prop where
  /-- Attempt `i` begins at `begins?` exactly. -/
  begins : ∀ i x, tries[i]? = some x → node.config.session.begins? w.now tries i = some x.begun
  /-- A product that saturates at `longest` makes the same pauses, if `maxRetryBackoff ≤ longest`.
  -/
  pauses : ∀ longest, node.config.session.maxRetryBackoff ≤ longest → ∀ i,
    node.config.session.backoffFor i = min (min (node.config.session.retryBackoff * i) longest)
      node.config.session.maxRetryBackoff
  /-- Attempt `i + 1` looks up what `LinkConfig.Dials` says: `.service` at first, later a channel.
  -/
  dials : ∀ i x, tries[i]? = some x → node.config.Dials (i + 1) x.endpoint
  /-- What becomes of an attempt is what the radio answers, or `.connectTimeout` at its deadline. -/
  made : ∀ x ∈ tries,
    Dial.Makes ⟨node.address, target, node.config.session.connectTimeout⟩ t events x
  /-- The radio of `node` records these attempts for the task and no others. -/
  recorded : ∀ a, attempted t a events
    = if node.address = a then tries.map fun x => (target, x.endpoint) else []
  most : tries.length ≤ node.config.session.connectAttempts
  /-- Every attempt that has a next one has failed. -/
  failed : ∀ i x, tries[i]? = some x → i + 1 < tries.length → x.failed = true
  /-- `share` consists of `connectAttempts` and `connectFailures`, one for each of the `tries` and
  one for each that has failed. -/
  counted : share n t events = { metrics := {
    connectAttempts := .ofNat tries.length, connectFailures := .ofNat (tries.countP (·.failed)) } }
  /-- While the task has no outcome, each attempt is under way, or has failed and is not the last of
  `connectAttempts`. -/
  goes : v.outcome? t = none → ∀ i x, tries[i]? = some x →
    x.over? = none ∨ x.failed = true ∧ i + 1 < node.config.session.connectAttempts
  /-- Where `step` returns `none` some timer of the task is yet to come. -/
  waits : v.outcome? t = none → v.step t = none →
    ∃ timer, v.timer? t = some timer ∧ v.now < timer.due
  /-- The task takes no more than `3 * connectAttempts + 1` steps. -/
  steps : events.countP (·.cause = .task t) ≤ 3 * node.config.session.connectAttempts + 1
  /-- The outcome is `.ok` of the stream that the last attempt was answered with, or
  `.attemptsExhausted` when `connectAttempts` attempts have all failed. -/
  ends : ∀ o, v.outcome? t = some o →
    (∃ x ended stream, tries.getLast? = some x ∧ x.over? = some (ended, .ok stream) ∧
      o = .connected (.ok stream)) ∨
    tries.length = node.config.session.connectAttempts ∧ (∀ x ∈ tries, x.failed = true) ∧
      o = .connected (.error (.attemptsExhausted node.config.session.connectAttempts))

namespace World

open Retry (Effort)

variable {t n : Nat} {w v : World} {target : Address} {node : Node} {events : List Event}

theorem History.effort (hnode : w.nodes[n]? = some node)
    (htask : w.tasks[t]? = some { activity := .connecting (Retry.start n target) })
    (h : History (KeepsTimer t) w events v) :
    let d : Dial := ⟨node.address, target, node.config.session.connectTimeout⟩
    ∃ node' task tries left, v.nodes[n]? = some node' ∧ node'.settings = node.settings ∧
      v.tasks[t]? = some task ∧
      Effort node.config d n w.now t events v.now task tries left ∧
      (∀ a, attempted t a events = d.attempts a tries) ∧
      share n t events = .counted (tries.flatMap Try.counts) ∧
      events.countP (·.cause = .task t) + left ≤ 3 * node.config.session.connectAttempts + 1 := by
  intro d
  induction h with
  | start =>
    have hstart : Scheduled node.config d w.now t [] [] := ⟨nofun, nofun, nofun, nofun⟩
    refine ⟨node, _, [], _, hnode, rfl, htask, .underway (.ready hstart nofun rfl (.inl rfl)),
      fun a => ?_, rfl, by simp⟩
    simp [attempted, Dial.attempts]
  | @next events x _ happens ih =>
    obtain ⟨node', task, tries, left, hnode', hsettings, htask', heffort, hrecorded, hshare, hsteps⟩
      := ih
    have hconfig : node'.config = node.config := (congrArg (·.config) hsettings :)
    have haddress : node'.address = node.address := (congrArg (·.address) hsettings :)
    have hnext (hx : x.after.settings? n = x.before.settings? n) :
        ∃ node'', x.after.nodes[n]? = some node'' ∧ node''.settings = node.settings := by
      rw [settings?, settings?, hnode', Option.map_some, hsettings] at hx
      exact Option.map_eq_some_iff.1 hx
    -- only the task's own steps make attempts; what others do keeps its timer
    by_cases hcause : x.cause = .task t
    · have hs := happens.step hcause
      obtain ⟨node'', hnode'', hsettings'⟩ := hnext ((step_apart hs).settings n)
      obtain ⟨task', tries', left', cs, htask'', hlt, heffort', hrecorded', hcounts, hgain⟩ :=
        heffort.step htask' hnode' hconfig (by rw [haddress]) hcause hs
      refine ⟨node'', task', tries', left', hnode'', hsettings', htask'', heffort',
        fun a => hrecorded' a (hrecorded a), ?_, ?_⟩
      · rw [share_concat, if_pos hcause, hshare, hgain, Gain.counted_add, hcounts]
      · rw [List.countP_append, List.countP_singleton, if_pos (by simpa using hcause)]
        omega
    · have hx := keepsTimer_of_happens happens hcause htask'
      obtain ⟨node'', hnode'', hsettings'⟩ := hnext (hx.settings n)
      refine ⟨node'', task, tries, left, hnode'', hsettings', hx.task.trans htask',
        heffort.keep htask' hnode' hx, fun a => ?_, ?_, ?_⟩
      · rw [attempted_of_other events hcause, hrecorded]
      · rw [share_concat, if_neg hcause, hshare]
      · rw [List.countP_append, List.countP_singleton, if_neg (by simpa using hcause)]
        exact hsteps

/-- **Connecting with retries keeps to its schedule.** For every policy, and whatever becomes of
each attempt, a task that begins with `Retry.start n target` makes the attempts of a `Retry.Report`:
each begins at `begins?`, the first that succeeds is the last, and the only error it returns is
`.attemptsExhausted`. `h` leaves others free to do anything that `KeepsTimer` allows. -/
theorem connects_by_schedule (hnode : w.nodes[n]? = some node)
    (htask : w.tasks[t]? = some { activity := .connecting (Retry.start n target) })
    (h : History (KeepsTimer t) w events v) :
    ∃ tries, Retry.Report node target n t w events v tries := by
  obtain ⟨node', task, tries, left, hnode', hsettings, htask', heffort, hrecorded, hshare, hsteps⟩
    := h.effort hnode htask
  have hcounted : share n t events = { metrics := {
      connectAttempts := .ofNat tries.length
      connectFailures := .ofNat (tries.countP (·.failed)) } } := by
    rw [hshare, Gain.counted, Try.total_counts]
  have hpauses (longest : Nat) (hle : node.config.session.maxRetryBackoff ≤ longest) (i : Nat) :=
    node.config.session.backoffFor_eq hle i
  have houtcome : v.outcome? t = task.outcome := by rw [outcome?, htask', Option.bind_some]
  cases heffort with
  | @underway attempt stage _ _ standing =>
    obtain ⟨⟨begins, dials, made, failed⟩, most, hgoes⟩ := standing.scheduled_tries
    refine ⟨tries, begins, hpauses, dials, made, hrecorded, most, failed, hcounted, fun _ => hgoes,
      fun _ hstep => ?_, Nat.le_of_add_right_le hsteps, fun o ho => ?_⟩
    · rw [step_connecting htask', Option.map_eq_none_iff] at hstep
      have htimer : v.timer? t
          = (Activity.connecting ⟨n, target, attempt, stage⟩).timer? := by
        rw [timer?, htask']
        rfl
      rw [htimer]
      obtain ⟨call, rfl, hlt⟩ | ⟨timer, rfl, hlt⟩ := Retry.step_eq_none hnode' hstep
      · exact ⟨_, rfl, hlt⟩
      · exact ⟨_, rfl, hlt⟩
    · cases houtcome.symm.trans ho
  | finished ended outcome =>
    obtain ⟨⟨begins, dials, made, failed⟩, most, hends⟩ := ended.scheduled_tries
    refine ⟨tries, begins, hpauses, dials, made, hrecorded, most, failed, hcounted, fun hnone => ?_,
      fun hnone => ?_, hsteps, fun o ho => ?_⟩
    · cases hnone.symm.trans (houtcome.trans outcome)
    · cases hnone.symm.trans (houtcome.trans outcome)
    · cases ho.symm.trans (houtcome.trans outcome)
      simpa using hends

/-- The first attempt fails, and the second one, after a pause of `backoffFor 1`, is answered. -/
theorem connects_by_schedule_second :
    let a : Address := ⟨#v[2, 0, 0, 0, 0, 1]⟩
    let b : Address := ⟨#v[2, 0, 0, 0, 0, 2]⟩
    let node : Node :=
      { address := a, config := {},
        app := { deviceId := "p", secret := Vector.replicate 32 0,
                 announcement := .ofKind 1 .identity } }
    let w : World :=
      { nodes := #[node]
        air := [.switchOn a, .switchOn b, .failNext a 1,
          .listen b (.service node.config.service.uuid)].foldl Air.perform {}
        tasks := #[{ activity := .connecting (Retry.start 0 b) },
          { activity := .serving { listener := 1, content := [], hold := false } }] }
    ∃ events v tries, Retry.Report node b 0 0 w events v tries ∧
      v.outcome? 0 = some (.connected (.ok ⟨0, .caller⟩)) ∧ v.now = 200 := by
  intro a b node w
  let second : List Cause := [.task 0, .task 0, .task 1, .task 0]
  have hrun : (w.replay? [.task 0]).bind (fun r =>
      (replay? { r.2 with now := 200 } second).map fun r' =>
        (decide (r.2.step 0 = none ∧ r.2.now = 0 ∧ r.2.nextDue? = some 200),
          decide (r'.2.outcome? 0 = some (.connected (.ok ⟨0, .caller⟩)) ∧ r'.2.now = 200)))
      = some (true, true) := by
    decide +kernel
  obtain ⟨⟨before, u⟩, hfirst, hrun⟩ := Option.bind_eq_some_iff.1 hrun
  obtain ⟨⟨after, v⟩, hsecond, hrun⟩ := Option.map_eq_some_iff.1 hrun
  obtain ⟨hpause, hend⟩ := Prod.mk.inj hrun
  obtain ⟨hstep, hnow, hdue⟩ := of_decide_eq_true hpause
  obtain ⟨houtcome, hover⟩ := of_decide_eq_true hend
  have hpasses : KeepsTimer 0 u { u with now := 200 } := by
    refine keepsTimer_of_time hstep (Nat.le_trans (Nat.le_of_eq hnow) (Nat.zero_le _)) fun due h =>
      ?_
    cases hdue.symm.trans h
    exact Nat.le_refl _
  have hall : w.History (KeepsTimer 0) _ v :=
    ((History.start.append_replay hfirst).thenOther hpasses).append_replay hsecond
  have hnode : w.nodes[0]? = some node := rfl
  have htask : w.tasks[0]? = some { activity := .connecting (Retry.start 0 b) } := rfl
  obtain ⟨tries, hreport⟩ := connects_by_schedule hnode htask hall
  exact ⟨_, v, tries, hreport, houtcome, hover⟩

end World
end RadioLink

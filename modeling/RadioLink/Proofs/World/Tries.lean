import RadioLink.Proofs.World.Attempts
import RadioLink.Proofs.World.Fetches

/-!
# Tries

Whoever connects calls, and waits for an answer up to a deadline; a call that `Air.connect` refuses
fails at once. A `Try` is one such attempt with its times, and `Dial.Makes d t events x` says that
the task `t` has made it in the course of `events`: the air has answered `x.over?` at that moment,
or has not answered, and the moment is `begun + limit`.

That is true to the moment only if time stops while task `t` can go on. `World.KeepsTimer` says so
of what others do.
-/

namespace RadioLink

namespace World

variable {t : Nat} {w w' : World}

/-- Others leave task `t` alone, as in `KeepsTask`; `now` changes only where `step t` is `none`, and
does not pass the timer that the task waits for. -/
structure KeepsTimer (t : Nat) (w w' : World) : Prop extends KeepsTask t w w' where
  forward : w.now ≤ w'.now
  waits : w'.now ≠ w.now → w.step t = none
  time : ∀ timer, w.timer? t = some timer → w.now ≤ timer.due → w'.now ≤ timer.due

theorem KeepsTimer.of_now (h : KeepsTask t w w') (hnow : w'.now = w.now) : KeepsTimer t w w' :=
  { h with
    forward := Nat.le_of_eq hnow.symm
    waits := fun hne => absurd hnow hne
    time := fun _ _ hle => hnow ▸ hle }

/-- As long as `step t` is possible `now` stays the same. -/
theorem KeepsTimer.now_eq (h : KeepsTimer t w w') (hstep : w.step t ≠ none) : w'.now = w.now :=
  Decidable.byContradiction fun hne => hstep (h.waits hne)

/-- Steps of other tasks, `removeBonded`, and whatever an event of a `History (KeepsTimer t)` may
be, satisfy `KeepsTimer t`. -/
theorem keepsTimer_of_happens {x : Event} {task : Task} (h : x.Happens (KeepsTimer t))
    (hcause : x.cause ≠ .task t) (htask : x.before.tasks[t]? = some task) :
    KeepsTimer t x.before x.after := by
  obtain ⟨cause, before, after⟩ := x
  cases cause with
  | task r =>
    obtain ⟨_, -, -, hadvances, -⟩ := exists_advances h
    have hne : t ≠ r := fun heq => hcause (heq ▸ rfl)
    exact .of_now ((step_apart h).keepsTask hne htask) hadvances.now
  | removal n a =>
    obtain rfl : after = before.removeBonded n a := h
    have happens : Event.Happens (KeepsTask t) ⟨.removal n a, before, before.removeBonded n a⟩ :=
      rfl
    exact .of_now (keepsTask_of_happens happens hcause htask) (before.course_removeBonded n a).now
  | other => exact h

/-- Time that passes up to `nextDue?` satisfies `KeepsTimer t`, where `step t` is `none`. -/
theorem keepsTimer_of_time {moment : Nat} (hstep : w.step t = none) (hle : w.now ≤ moment)
    (h : ∀ due, w.nextDue? = some due → moment ≤ due) : KeepsTimer t w { w with now := moment } :=
  { (keepsFetches_of_time h : KeepsFetches t w { w with now := moment }) with
    forward := hle
    waits := fun _ => hstep }

end World

open World (KeepsTimer)

/-! ### One attempt -/

/-- An attempt to connect: what it looks up, when it has `begun`, and when it was over and what it
returned, if it is. -/
structure Try where
  endpoint : Endpoint
  begun : Nat
  over? : Option (Nat × Except LinkError LinkEnd)

namespace Try

/-- Whether the attempt is over with an error. -/
def failed (x : Try) : Bool :=
  match x.over? with
  | some (_, .error _) => true
  | _ => false

/-- The events of a node's counters that the attempt comes to. -/
def counts (x : Try) : List Counted :=
  if x.failed then [.connectAttempt, .connectFailure] else [.connectAttempt]

/-- Of `tries` that are counted, `connectAttempts` is the number, and `connectFailures` the number
of those that have `failed`. -/
theorem total_counts (tries : List Try) : Metrics.total (tries.flatMap counts) =
    { connectAttempts := .ofNat tries.length
      connectFailures := .ofNat (tries.countP (·.failed)) } := by
  induction tries with
  | nil => rfl
  | cons x tries ih =>
    rw [List.flatMap_cons, List.length_cons, counts]
    by_cases h : x.failed = true
    · rw [if_pos h, List.countP_cons_of_pos h, List.cons_append, List.singleton_append,
        Metrics.total_cons, Metrics.total_cons, ih, UInt64.ofNat_add, UInt64.ofNat_add]
      rfl
    · rw [if_neg h, List.countP_cons_of_neg h, List.singleton_append, Metrics.total_cons, ih,
        UInt64.ofNat_add]
      rfl

end Try

/-- Who connects to whom, and the `limit` on how long he waits for an answer. -/
structure Dial where
  caller : Address
  target : Address
  limit : Nat

namespace Dial

/-- In a step at the moment `begun` task `t` found that `Air.connect` returns `link`. -/
def Called (d : Dial) (t : Nat) (events : List Event) (e : Endpoint) (link begun : Nat) : Prop :=
  Noted t events fun _ w => (w.air.connect d.caller d.target e).1 = .ok link ∧ w.now = begun

/-- What task `t` can have made an attempt of, after `events`: refused at once, waiting, answered
within `limit`, or over at `begun + limit` without an answer. -/
inductive Makes (d : Dial) (t : Nat) (events : List Event) : Try → Prop where
  | refused {e : Endpoint} {fault : LinkError} {moment : Nat}
      (found : Noted t events fun _ w =>
        (w.air.connect d.caller d.target e).1 = .error fault ∧ w.now = moment) :
      Makes d t events ⟨e, moment, some (moment, .error fault)⟩
  | waits {e : Endpoint} {link begun : Nat} (called : d.Called t events e link begun) :
      Makes d t events ⟨e, begun, none⟩
  | answered {e : Endpoint} {link begun ended : Nat} {r : Except LinkError LinkEnd}
      (called : d.Called t events e link begun)
      (found : Noted t events fun _ w => w.air.answer? link = some r ∧ w.now = ended)
      (since : begun ≤ ended) (time : ended ≤ begun + d.limit) :
      Makes d t events ⟨e, begun, some (ended, r)⟩
  | unanswered {e : Endpoint} {link begun : Nat} (called : d.Called t events e link begun)
      (found : Noted t events fun _ w => w.air.answer? link = none ∧ w.now = begun + d.limit) :
      Makes d t events ⟨e, begun, some (begun + d.limit, .error .timeout)⟩

/-- Task `t` has been waiting for an answer to `call` since `begun`; its deadline is `begun + limit`
and has not passed at `now`. -/
structure Waits (d : Dial) (t : Nat) (events : List Event) (now : Nat) (call : Call) (e : Endpoint)
    (begun : Nat) : Prop where
  called : d.Called t events e call.link begun
  due : call.deadline.due = begun + d.limit
  since : begun ≤ now
  time : now ≤ call.deadline.due

/-- What the radio at `a` records of the `tries`: all of them if it is the caller's, else nothing.
-/
def attempts (d : Dial) (a : Address) (tries : List Try) : List (Address × Endpoint) :=
  if d.caller = a then tries.map fun x => (d.target, x.endpoint) else []

variable {d : Dial} {t now begun : Nat} {events : List Event} {x : Event} {y : Try} {call : Call}
  {e : Endpoint}

theorem Makes.concat (h : d.Makes t events y) (x : Event) : d.Makes t (events ++ [x]) y := by
  cases h with
  | refused found => exact .refused (found.concat x)
  | waits called => exact .waits (Noted.concat called x)
  | answered called found since time =>
    exact .answered (Noted.concat called x) (found.concat x) since time
  | unanswered called found => exact .unanswered (Noted.concat called x) (found.concat x)

/-- Where others satisfy `KeepsTimer`, a task whose timer is the deadline of `call` goes on to wait.
-/
theorem Waits.keep {a : Activity} (h : d.Waits t events x.before.now call e begun)
    (htask : x.before.tasks[t]? = some { activity := a }) (htimer : a.timer? = some call.deadline)
    (hx : KeepsTimer t x.before x.after) : d.Waits t (events ++ [x]) x.after.now call e begun where
  called := Noted.concat h.called x
  due := h.due
  since := Nat.le_trans h.since hx.forward
  time := by
    refine hx.time _ ?_ h.time
    rw [World.timer?, htask]
    exact htimer

/-- After a call that `Air.connect` accepts, with a deadline at `now + limit`, `Waits` holds. -/
theorem Waits.of_call (hcause : x.cause = .task t)
    (hconnect : (x.before.air.connect d.caller d.target e).1 = .ok call.link)
    (hdue : call.deadline.due = x.before.now + d.limit) :
    d.Waits t (events ++ [x]) x.before.now call e x.before.now where
  called := .last hcause ⟨hconnect, rfl⟩
  due := hdue
  since := Nat.le_refl _
  time := hdue ▸ Nat.le_add_right ..

/-- When `World.answer?` gives a waiting task `r`, `Makes` holds of the attempt with
`over? = some (now, r)`: either the air has answered `r`, or `r` is `.timeout` and `now` is exactly
`begun + limit`. -/
theorem Waits.answered {r : Except LinkError LinkEnd} {v : World}
    (h : d.Waits t events x.before.now call e begun) (hcause : x.cause = .task t)
    (hr : x.before.answer? call = some (r, v)) :
    d.Makes t (events ++ [x]) ⟨e, begun, some (x.before.now, r)⟩ := by
  obtain ⟨hanswer, -⟩ | ⟨hnone, hdue, rfl, -⟩ := World.answer?_eq_some hr
  · exact .answered (Noted.concat h.called x) (.last hcause ⟨hanswer, rfl⟩) h.since
      (h.due ▸ h.time)
  · have hnow : x.before.now = begun + d.limit :=
      (Nat.le_antisymm h.time (of_decide_eq_true hdue)).trans h.due
    rw [hnow]
    exact .unanswered (Noted.concat h.called x) (.last hcause ⟨hnone, hnow⟩)

end Dial

/-! ### What a step adds -/

namespace World

variable {n t : Nat} {u v w : World} {cs ds : List Counted}

/-- Up to `Aside`, `v` is `w` after node `n` has counted `cs`. -/
def CountsUp (n : Nat) (cs : List Counted) (w v : World) : Prop := (cs.foldl (count · n) w).Aside v

theorem CountsUp.refl : CountsUp n [] w w := Aside.refl

theorem CountsUp.trans (h : CountsUp n cs w v) (h' : CountsUp n ds v u) :
    CountsUp n (cs ++ ds) w u := by
  have hcount {w v : World} (h : w.Aside v) (ds : List Counted) :
      (ds.foldl (count · n) w).Aside (ds.foldl (count · n) v) := by
    induction ds generalizing w v with
    | nil => exact h
    | cons c ds ih => exact ih (h.count n c)
  unfold CountsUp
  rw [List.foldl_append]
  exact (hcount h ds).trans h'

/-- Neither counting nor `Aside` touches `tasks`, `now` and `sessions`. -/
theorem CountsUp.keeps (h : CountsUp n cs w v) :
    v.tasks = w.tasks ∧ v.now = w.now ∧ v.sessions = w.sessions := by
  have hfold : (cs.foldl (count · n) w).tasks = w.tasks ∧ (cs.foldl (count · n) w).now = w.now ∧
      (cs.foldl (count · n) w).sessions = w.sessions := by
    clear h
    induction cs generalizing w with
    | nil => exact ⟨rfl, rfl, rfl⟩
    | cons c cs ih => exact ih
  exact ⟨h.tasks.trans hfold.1, h.now.trans hfold.2.1, h.sessions.trans hfold.2.2⟩

/-- If `CountsUp n cs` is all that an event does to nodes, its `gain` at `n` is `.counted cs`. -/
theorem CountsUp.gain {x : Event} {node : Node} (h : CountsUp n cs w v)
    (hnode : w.nodes[n]? = some node)
    (hbefore : x.before = w) (hafter : x.after.nodes = v.nodes) : x.gain n = .counted cs := by
  have hgains : ∃ node', v.nodes[n]? = some node' ∧ node.Gains node' cs [] [] := by
    rw [h.nodes]
    clear h hbefore
    induction cs generalizing w node with
    | nil => exact ⟨node, hnode, node.gains_refl⟩
    | cons c cs ih =>
      have hcount :
          (w.count n c).nodes[n]? = some { node with metrics := node.metrics.count c } := by
        rw [nodes_count, if_pos rfl, hnode]
        rfl
      obtain ⟨node', hnode', hgains⟩ := ih hcount
      exact ⟨node', hnode', (node.gains_count c).trans hgains⟩
  obtain ⟨node', hnode', hgains⟩ := hgains
  exact Event.gain_of_gains (hbefore ▸ hnode) (hafter ▸ hnode') hgains

end World

namespace Dial

variable {d : Dial} {n begun : Nat} {w v u : World} {tries past : List Try} {e : Endpoint}

/-- What a step adds to the `tries` is what it adds to the attempts that radios record, and to the
counters of node `n`. -/
structure Books (d : Dial) (n : Nat) (w v : World) (tries tries' : List Try) : Prop where
  attempts : ∃ acts : List Air.Act, v.air = acts.foldl Air.perform w.air ∧
    ∀ a, d.attempts a tries' = d.attempts a tries ++ acts.flatMap (·.attempts a)
  counts : ∃ cs, tries'.flatMap Try.counts = tries.flatMap Try.counts ++ cs ∧ w.CountsUp n cs v

theorem Books.refl : d.Books n w w tries tries where
  attempts := ⟨[], rfl, fun _ => (List.append_nil _).symm⟩
  counts := ⟨[], (List.append_nil _).symm, .refl⟩

/-- A call adds one `Try` to the `Books`, counted as `Try.counts` says: it may have been refused. -/
theorem Books.of_call {y : Try} (hv : w.CountsUp n y.counts v)
    (hair : v.air = w.air.perform (.connect d.caller d.target y.endpoint)) :
    d.Books n w v tries (tries ++ [y]) where
  attempts := by
    refine ⟨[.connect d.caller d.target y.endpoint], hair, fun a => ?_⟩
    unfold Dial.attempts
    by_cases h : d.caller = a <;> simp [h, Air.Act.attempts]
  counts := ⟨y.counts, by simp, hv⟩

/-- An answer ends the last of the `tries`; `Books` holds if what is counted is the rest of its
`Try.counts`. -/
theorem Books.of_answer {call : Call} {r : Except LinkError LinkEnd} {cs : List Counted}
    (hr : w.answer? call = some (r, v)) (hv : v.CountsUp n cs u) (hair : u.air = v.air)
    (hcs : Try.counts ⟨e, begun, some (w.now, r)⟩ = .connectAttempt :: cs) :
    d.Books n w u (past ++ [⟨e, begun, none⟩]) (past ++ [⟨e, begun, some (w.now, r)⟩]) where
  attempts := by
    have hsame (a : Address) : d.attempts a (past ++ [⟨e, begun, some (w.now, r)⟩])
        = d.attempts a (past ++ [⟨e, begun, none⟩]) := by simp [Dial.attempts]
    obtain ⟨-, rfl⟩ | ⟨-, -, -, rfl⟩ := World.answer?_eq_some hr
    · exact ⟨[], hair, fun a => (hsame a).trans (List.append_nil _).symm⟩
    · exact ⟨[.abandon call.link], hair, fun a => (hsame a).trans (List.append_nil _).symm⟩
  counts := by
    have hopen : Try.counts ⟨e, begun, none⟩ = [.connectAttempt] := rfl
    have hanswer : w.CountsUp n [] v := World.Aside.refl.answer hr
    exact ⟨cs, by simp [hcs, hopen], hanswer.trans hv⟩

end Dial
end RadioLink

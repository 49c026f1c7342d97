import RadioLink.Proofs.Air.Flow
import RadioLink.Proofs.World.Advancing
import RadioLink.Proofs.World.Journal
import RadioLink.World.Run

/-!
# What others keep of a task that fetches

A task that has connected reads at its own end of the link, and nobody else does: a step of another
task comes to read only where that task read before, at the end of a link that it has just made
itself, or at a callee's end. So under `World.KeepsFetches` what is there to be read stays at the
front. Time passes, but not past the timer that the task waits for.
-/

namespace RadioLink

namespace World

variable {t r link : Nat} {a : Activity} {hand : List LinkEnd} {w v u : World}

/-- Task `t` has no outcome and may read at the caller's end of `link`, now or later. -/
def Fetches (w : World) (t link : Nat) : Prop :=
  ∃ task, w.tasks[t]? = some task ∧ task.outcome = none ∧ ⟨link, .caller⟩ ∈ task.activity.draws

/-- The timer at which task `t` stops waiting, if it waits for one. -/
def timer? (w : World) (t : Nat) : Option Timer :=
  w.tasks[t]?.bind fun task => if task.outcome.isSome then none else task.activity.timer?

/-- What somebody else may do: keep task `t`, as in `KeepsTask`; read at no end of a link that it
`Fetches` from; and let time pass up to the timer that it waits for. -/
structure KeepsFetches (t : Nat) (w w' : World) : Prop extends KeepsTask t w w' where
  acts : ∃ acts : List Air.Act, w'.air = acts.foldl Air.perform w.air ∧
    ∀ link size, w.Fetches t link → .read ⟨link, .caller⟩ size ∉ acts
  fetches : ∀ r link, r ≠ t → w'.Fetches r link →
    w.Fetches r link ∨ w.air.links.size ≤ link ∧ link < w'.air.links.size
  time : ∀ timer, w.timer? t = some timer → w.now ≤ timer.due → w'.now ≤ timer.due

/-- All links that somebody `Fetches` from are there, and none of those of task `t` is also
another's. -/
structure Alone (t : Nat) (w : World) : Prop where
  own : ∀ link, w.Fetches t link → link < w.air.links.size
  others : ∀ r link, r ≠ t → w.Fetches r link → link < w.air.links.size ∧ ¬ w.Fetches t link

theorem fetches_of_tasks (h : v.tasks[t]? = w.tasks[t]?) : v.Fetches t link ↔ w.Fetches t link := by
  rw [Fetches, h, Fetches]

/-- Where no activity has any `draws`, every task is `Alone`. -/
theorem alone_of_draws
    (h : ∀ (r : Nat) (task : Task), w.tasks[r]? = some task → task.activity.draws = []) :
    w.Alone t := by
  have hnone (r link : Nat) : ¬ w.Fetches r link := fun ⟨task, htask, _, hmem⟩ =>
    absurd hmem (h r task htask ▸ List.not_mem_nil)
  exact ⟨fun link ht => absurd ht (hnone t link), fun r link _ hr => absurd hr (hnone r link)⟩

/-! ### Steps of tasks -/

/-- A `Course` takes no time. -/
theorem Course.now (h : Course t a w hand v) : v.now = w.now := by
  induction h with
  | start => rfl
  | aside _ hv _ ih => exact hv.now.trans ih
  | @releases _ v _ s ih =>
    refine Eq.trans ?_ ih
    unfold World.release
    split
    · rfl
    · split <;> rfl
  | forgets _ _ ih | node _ _ _ _ _ _ ih | act _ _ ih | connects _ _ _ ih | accepts _ _ _ ih
  | adds _ _ _ ih | asks _ _ _ _ ih | takes _ _ _ ih | spawns _ _ ih => exact ih

theorem Advances.now (h : Advances t a w v) : v.now = w.now := by
  cases h with
  | goes h | ends h => exact h.now

/-- The activity of a task that is started has no caller's end among its `draws`. -/
theorem not_mem_draws_of_spawns {b : Activity} (h : a.Spawns b) :
    ⟨link, .caller⟩ ∉ b.draws := by
  obtain ⟨s, rfl, -⟩ | ⟨l, sender, link', -, rfl⟩ := h
  · exact List.not_mem_nil
  · exact fun hmem => nomatch List.mem_singleton.1 hmem

/-- After a step of task `t` everybody `Fetches` from the links that he did before; only `t` may
have a new one besides. -/
theorem Advances.fetches {task : Task} (h : Advances t task.activity w v)
    (htask : w.tasks[t]? = some task) (hlive : task.outcome = none) (hr : v.Fetches r link) :
    w.Fetches r link ∨ r = t ∧ w.air.links.size ≤ link ∧ link < v.air.links.size := by
  have ht : t < w.tasks.size := (Array.getElem?_eq_some_iff.1 htask).1
  by_cases hne : r = t
  · subst hne
    obtain ⟨task', htask', hlive', hdraws⟩ := hr
    cases h with
    | @goes _ v b h _ _ hfound =>
      rw [tasks_become ((h.moreTasks.old r ht).trans htask)] at htask'
      cases htask'
      obtain hold | hnew | hside := hfound _ hdraws
      · exact .inl ⟨task, htask, hlive, hold⟩
      · exact .inr ⟨rfl, hnew⟩
      · cases hside
    | ends h =>
      rw [tasks_finish ((h.moreTasks.old r ht).trans htask)] at htask'
      cases htask'
      cases hlive'
  · by_cases hlt : r < w.tasks.size
    · exact .inl ((fetches_of_tasks (h.old hlt hne)).1 hr)
    · obtain ⟨task', htask', -, hdraws⟩ := hr
      obtain ⟨b, hspawns, rfl⟩ := h.new ht (Nat.le_of_not_lt hlt) htask'
      exact absurd hdraws (not_mem_draws_of_spawns hspawns)

/-! ### Whatever happens -/

theorem Advances.keepsFetches {task : Task} (h : Advances r task.activity w v)
    (htask : w.tasks[r]? = some task) (hlive : task.outcome = none) (hne : t ≠ r)
    (halone : w.Alone t) (hsame : KeepsTask t w v) : KeepsFetches t w v := by
  obtain ⟨acts, hair, hmay⟩ := h.exists_acts
  refine { hsame with acts := ⟨acts, hair, ?_⟩, fetches := ?_, time := ?_ }
  · intro link size hfetches hmem
    exact (halone.others r link (Ne.symm hne) ⟨task, htask, hlive, hmay _ hmem⟩).2 hfetches
  · intro q link _ hq
    exact (h.fetches htask hlive hq).imp_right And.right
  · intro timer _ hle
    rwa [h.now]

/-- An event of a `History (KeepsFetches t)` that is no step of task `t` satisfies `KeepsFetches t`.
-/
theorem keepsFetches_of_happens {x : Event} {task : Task} (h : x.Happens (KeepsFetches t))
    (hcause : x.cause ≠ .task t) (htask : x.before.tasks[t]? = some task)
    (halone : x.before.Alone t) : KeepsFetches t x.before x.after := by
  obtain ⟨cause, before, after⟩ := x
  cases cause with
  | task r =>
    have hne : t ≠ r := fun heq => hcause (heq ▸ rfl)
    obtain ⟨other, hother, hlive, hadvances, -⟩ := exists_advances h
    exact hadvances.keepsFetches hother hlive hne halone ((step_apart h).keepsTask hne htask)
  | removal n address =>
    obtain rfl : after = before.removeBonded n address := h
    have hsame : KeepsTask t before (before.removeBonded n address) :=
      keepsTask_of_happens (e := ⟨.removal n address, before, _⟩) rfl hcause htask
    have hcourse := before.course_removeBonded n address
    obtain ⟨acts, hair, hmay⟩ := hcourse.exists_acts
    refine { hsame with acts := ⟨acts, hair, ?_⟩, fetches := ?_, time := ?_ }
    · intro link size _ hmem
      exact nomatch hmay _ hmem
    · intro r link _ hr
      exact .inl ((fetches_of_tasks (by rw [tasks_removeBonded])).1 hr)
    · intro timer _ hle
      rwa [hcourse.now]
  | other => exact h

/-- Time that passes up to `nextDue?` satisfies `KeepsFetches` of every task. -/
theorem keepsFetches_of_time {moment : Nat} (h : ∀ due, w.nextDue? = some due → moment ≤ due) :
    KeepsFetches t w { w with now := moment } := by
  refine ⟨⟨rfl, fun _ _ hx => hx, fun _ => rfl⟩, ⟨[], rfl, fun _ _ _ => List.not_mem_nil⟩,
    fun _ _ _ hr => .inl hr, fun timer htimer _ => ?_⟩
  obtain ⟨task, htask, htimer⟩ := Option.bind_eq_some_iff.1 htimer
  have hpending : (timer, t) ∈ w.pendingTimers := by
    refine List.mem_filterMap.2 ⟨(task, t), ?_, ?_⟩
    · rw [List.mk_mem_zipIdx_iff_getElem?, Array.getElem?_toList]
      exact htask
    · dsimp only
      split at htimer
      · cases htimer
      · next hlive => rw [if_neg hlive, htimer, Option.map_some]
  have hmem : timer.due ∈ w.pendingTimers.map (·.1.due) := List.mem_map.2 ⟨_, hpending, rfl⟩
  cases hnext : w.nextDue? with
  | none => exact absurd hmem (List.min?_eq_none_iff.1 hnext ▸ List.not_mem_nil)
  | some due => exact Nat.le_trans (h due hnext) ((List.min?_eq_some_iff.1 hnext).2 _ hmem)

/-- What an event does to the air is done by `Air.perform`. -/
theorem acts_of_happens {x : Event} (h : x.Happens (KeepsFetches t)) :
    ∃ acts : List Air.Act, x.after.air = acts.foldl Air.perform x.before.air := by
  obtain ⟨cause, before, after⟩ := x
  cases cause with
  | task r =>
    obtain ⟨_, -, -, hadvances, -⟩ := exists_advances h
    obtain ⟨acts, hair, -⟩ := hadvances.exists_acts
    exact ⟨acts, hair⟩
  | removal n address =>
    obtain rfl : after = before.removeBonded n address := h
    obtain ⟨acts, hair, -⟩ := (before.course_removeBonded n address).exists_acts
    exact ⟨acts, hair⟩
  | other =>
    obtain ⟨acts, hair, -⟩ := KeepsFetches.acts h
    exact ⟨acts, hair⟩

theorem KeepsFetches.links_size_le (h : KeepsFetches t w v) :
    w.air.links.size ≤ v.air.links.size := by
  obtain ⟨acts, hair, -⟩ := h.acts
  exact hair ▸ w.air.size_le_foldl acts

/-- Where others satisfy `KeepsFetches t`, task `t` stays `Alone`. -/
theorem Alone.keep (halone : w.Alone t) (h : KeepsFetches t w v) : v.Alone t := by
  have hown (link : Nat) : v.Fetches t link ↔ w.Fetches t link := fetches_of_tasks h.task
  have hsize := h.links_size_le
  refine ⟨fun link ht => ?_, fun r link hne hr => ?_⟩
  · exact Nat.lt_of_lt_of_le (halone.own link ((hown link).1 ht)) hsize
  · rw [hown]
    obtain hr | ⟨hnew, hlt⟩ := h.fetches r link hne hr
    · obtain ⟨hlt, hnot⟩ := halone.others r link hne hr
      exact ⟨Nat.lt_of_lt_of_le hlt hsize, hnot⟩
    · exact ⟨hlt, fun ht => Nat.not_lt.2 hnew (halone.own link ht)⟩

theorem links_size_le_of_step (h : w.step t = some v) :
    w.air.links.size ≤ v.air.links.size := by
  obtain ⟨_, -, -, hadvances, -⟩ := exists_advances h
  obtain ⟨acts, hair, -⟩ := hadvances.exists_acts
  exact hair ▸ w.air.size_le_foldl acts

/-- A step of task `t` itself leaves it `Alone`. -/
theorem Alone.step (halone : w.Alone t) (h : w.step t = some v) : v.Alone t := by
  obtain ⟨task, htask, hlive, hadvances, -⟩ := exists_advances h
  have hsize := links_size_le_of_step h
  refine ⟨fun link ht => ?_, fun r link hne hr => ?_⟩
  · obtain ht | ⟨-, -, hlt⟩ := hadvances.fetches htask hlive ht
    · exact Nat.lt_of_lt_of_le (halone.own link ht) hsize
    · exact hlt
  · obtain hr | ⟨heq, -⟩ := hadvances.fetches htask hlive hr
    · obtain ⟨hlt, hnot⟩ := halone.others r link hne hr
      refine ⟨Nat.lt_of_lt_of_le hlt hsize, fun ht => ?_⟩
      obtain ht | ⟨-, hnew, -⟩ := hadvances.fetches htask hlive ht
      · exact hnot ht
      · exact Nat.not_lt.2 hnew hlt
    · exact absurd heq hne

/-- Where others satisfy `KeepsFetches t`, the content of a pipe that `t` `Fetches` from is a prefix
of what it is afterwards. -/
theorem KeepsFetches.pipe {p : Pipe} (h : KeepsFetches t w v) (hfetches : w.Fetches t link)
    (hp : w.air.pipe? ⟨link, .callee⟩ = some p) :
    ∃ p', v.air.pipe? ⟨link, .callee⟩ = some p' ∧ p.content <+: p'.content := by
  obtain ⟨acts, hair, hreads⟩ := h.acts
  rw [hair]
  exact Air.prefix_foldl hp fun size => hreads link size hfetches

end World

/-- On a link that is not there after the event, the event writes nothing. -/
theorem Event.writes_of_size {x : Event} {e : LinkEnd} (h : x.after.air.links.size ≤ e.link) :
    x.writes e = [] := by
  rw [writes, Air.outgoing_of_size h, List.drop_nil]

/-- Once an end `isClosed` it stays so, and what it has carried stays the same. -/
theorem World.History.carried_of_isClosed {t : Nat} {w w' : World} {events : List Event}
    {e : LinkEnd} (h : History (KeepsFetches t) w events w') {past later : List Event} {y : Event}
    (hevents : events = past ++ y :: later) (hclosed : y.before.air.isClosed e = true) :
    w'.air.isClosed e = true ∧ carried events e = carried past e := by
  induction h generalizing later with
  | start => simp at hevents
  | @next events x _ happens ih =>
    have hbefore : x.before.air.isClosed e = true ∧ carried events e = carried past e := by
      rcases List.eq_nil_or_concat later with rfl | ⟨later, z, rfl⟩
      · obtain ⟨rfl, hx⟩ := List.append_inj' hevents rfl
        obtain rfl := List.head_eq_of_cons_eq hx
        exact ⟨hclosed, rfl⟩
      · refine @ih later ?_
        rw [List.concat_eq_append, ← List.cons_append, ← List.append_assoc] at hevents
        exact (List.append_inj' hevents rfl).1
    obtain ⟨acts, hair⟩ := acts_of_happens happens
    obtain ⟨hclosed', hle⟩ := Air.isClosed_foldl acts hbefore.1
    rw [← hair] at hclosed' hle
    refine ⟨hclosed', ?_⟩
    rw [carried_of_mute (List.drop_eq_nil_of_le hle), hbefore.2]

end RadioLink

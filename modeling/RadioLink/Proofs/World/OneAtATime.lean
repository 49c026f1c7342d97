import RadioLink.Proofs.World.History
import RadioLink.Proofs.World.Listening

/-!
# One connection at a time

A node that listens hands each connection to a task of its own and waits for that task
(`World.WaitsFor`), so it takes in one connection at a time, and none once it has been stopped:
`World.OneByOne`. This is so as long as it is not started again while it is being stopped or while a
connection is being taken in: `World.start` cancels the task that listens, but the one that takes a
connection in goes on beside the new one (`two_at_a_time`).
-/

namespace RadioLink

/-- The activity is a `Listening` or an `Accepting` of node `n`. -/
def Activity.IsIntake (n : Nat) (a : Activity) : Prop :=
  a.role = .listening n ∨ ∃ sender, a.role = .accepting n sender

namespace World

/-! ### What a node is doing -/

/-- Task `r` is an `Accepting` of node `n` without an outcome. -/
def Accepts (w : World) (n r : Nat) : Prop :=
  ∃ task sender, w.tasks[r]? = some task ∧ task.outcome = none ∧
    task.activity.role = .accepting n sender

/-- Task `t` is a `Listening` of node `n`, without an outcome and not cancelled. -/
def Listens (w : World) (n t : Nat) : Prop :=
  ∃ task, w.tasks[t]? = some task ∧ task.outcome = none ∧ task.cancelled = false ∧
    task.activity.role = .listening n

/-- Task `t` `Listens` for node `n`, and is in the stage `.handling r`. -/
def WaitsFor (w : World) (n t r : Nat) : Prop :=
  ∃ task, w.tasks[t]? = some task ∧ task.outcome = none ∧ task.cancelled = false ∧
    task.activity = .listening ⟨n, .handling r⟩

/-- Every task that `Listens` for node `n` is the one in `listening? n`. -/
def Settled (w : World) (n : Nat) : Prop := ∀ t, w.Listens n t → w.listening? n = some t

/-- From `w` to `w'` no task with an activity that `IsIntake n` has changed. -/
def Bystanding (n : Nat) (w w' : World) : Prop :=
  ∀ (r : Nat) (task : Task), task.activity.IsIntake n →
    (w'.tasks[r]? = some task ↔ w.tasks[r]? = some task)

/-- What happens while node `n` is started and stopped. A start comes only where the node is
`Settled` and `may` holds. -/
inductive Commanded (n : Nat) (may : World → Prop) : World → World → Prop where
  | start {w : World} (settled : w.Settled n) (h : may w) : Commanded n may w (w.start n).2
  | stop {w : World} : Commanded n may w (w.beginStop n).2
  | rest {w w' : World} (h : Bystanding n w w') : Commanded n may w w'

/-- At most one task `Listens` for node `n`, and it `WaitsFor` every task that `Accepts`. -/
structure OneByOne (n : Nat) (w : World) : Prop where
  listens : ∀ t t', w.Listens n t → w.Listens n t' → t = t'
  awaited : ∀ r, w.Accepts n r → ∃ t, w.WaitsFor n t r

variable {n t r : Nat} {w u : World}

theorem accepts_iff : w.Accepts n r ↔ (w.tasks[r]?.any fun task => task.outcome.isNone &&
    match task.activity with
    | .accepting a => a.node == n
    | _ => false) = true := by
  rw [Option.any_eq_true]
  refine exists_congr fun task =>
    ⟨fun ⟨sender, htask, hlive, hrole⟩ => ⟨htask, ?_⟩, fun ⟨htask, h⟩ => ?_⟩
  · rw [hlive]
    generalize task.activity = a at hrole
    cases a <;> cases hrole
    simp
  · rw [Bool.and_eq_true, Option.isNone_iff_eq_none] at h
    obtain ⟨hlive, hnode⟩ := h
    split at hnode
    · next a hactivity =>
      refine ⟨a.sender, htask, hlive, ?_⟩
      rw [hactivity, ← beq_iff_eq.1 hnode]
      rfl
    · cases hnode

instance : Decidable (w.Accepts n r) := decidable_of_iff _ accepts_iff.symm

theorem WaitsFor.listens (h : w.WaitsFor n t r) : w.Listens n t := by
  obtain ⟨task, htask, hlive, hkept, hactivity⟩ := h
  exact ⟨task, htask, hlive, hkept, by rw [hactivity]; rfl⟩

theorem WaitsFor.eq {r' : Nat} (h : w.WaitsFor n t r) (h' : w.WaitsFor n t r') : r = r' := by
  obtain ⟨task, htask, -, -, hactivity⟩ := h
  obtain ⟨task', htask', -, -, hactivity'⟩ := h'
  cases htask.symm.trans htask'
  cases hactivity.symm.trans hactivity'
  rfl

/-- At most one task `Accepts` for node `n`. -/
theorem OneByOne.accepts_eq {r' : Nat} (h : OneByOne n w) (hr : w.Accepts n r)
    (hr' : w.Accepts n r') : r = r' := by
  obtain ⟨t, ht⟩ := h.awaited r hr
  obtain ⟨t', ht'⟩ := h.awaited r' hr'
  obtain rfl := h.listens t t' ht.listens ht'.listens
  exact ht.eq ht'

/-! ### What a step does -/

theorem tasks_abortListening (w : World) (a : Activity) :
    ∃ o, (w.abortListening t a).tasks = (w.finish t o).tasks := by
  unfold World.abortListening
  split <;> exact ⟨_, rfl⟩

/-- A step makes no other task one that `Listens`. -/
theorem Listens.of_step (h : u.Listens n r) (hs : w.step t = some u) : w.Listens n r := by
  obtain ⟨task, htask, hlive, hadvances, -⟩ := exists_advances hs
  obtain ⟨task', htask', hlive', hkept', hrole'⟩ := h
  have ht : t < w.tasks.size := (Array.getElem?_eq_some_iff.1 htask).1
  by_cases hrt : r = t
  · subst hrt
    obtain ⟨b, hrole, hown⟩ | ⟨o, hown⟩ := hadvances.own htask
    · cases htask'.symm.trans hown
      exact ⟨task, htask, hlive, hkept', hrole.symm.trans hrole'⟩
    · cases htask'.symm.trans hown
      cases hlive'
  · by_cases hr : r < w.tasks.size
    · exact ⟨task', (hadvances.old hr hrt).symm.trans htask', hlive', hkept', hrole'⟩
    · obtain ⟨b, hspawns, rfl⟩ := hadvances.new ht (Nat.le_of_not_lt hr) htask'
      obtain ⟨s, rfl, -⟩ | ⟨l, sender, stream, -, rfl⟩ := hspawns <;> cases hrole'

/-- A task that `WaitsFor` one that `Accepts` cannot take a step. -/
theorem WaitsFor.not_step (h : w.WaitsFor n t r) (hr : w.Accepts n r) : w.step t = none := by
  obtain ⟨task, htask, hlive, hkept, hactivity⟩ := h
  obtain ⟨task', sender, htask', hlive', -⟩ := hr
  refine Option.eq_none_iff_forall_ne_some.2 fun u hs => ?_
  obtain ⟨task'', htask'', -, -, hstep⟩ := exists_advances hs
  cases htask.symm.trans htask''
  rw [if_neg (by rw [hkept]; exact Bool.false_ne_true), hactivity] at hstep
  obtain ⟨node, -, hmove⟩ := Listening.move_of_step hstep
  cases hmove with
  | rests _ _ dealt =>
    have hsome := dealt r rfl
    rw [outcome?, htask', Option.bind_some, hlive'] at hsome
    cases hsome
  | ends _ idle => exact idle r rfl
  | opens stage | shuts stage | takes stage => cases stage

/-- If a task `Accepts` after a step and did not before, the task of the step `WaitsFor` it. -/
theorem Accepts.of_step (h : u.Accepts n r) (hs : w.step t = some u) :
    w.Accepts n r ∨ u.WaitsFor n t r := by
  obtain ⟨task, htask, hlive, hadvances, hstep⟩ := exists_advances hs
  obtain ⟨task', sender, htask', hlive', hrole'⟩ := h
  have ht : t < w.tasks.size := (Array.getElem?_eq_some_iff.1 htask).1
  by_cases hrt : r = t
  · subst hrt
    obtain ⟨b, hrole, hown⟩ | ⟨o, hown⟩ := hadvances.own htask
    · cases htask'.symm.trans hown
      exact .inl ⟨task, sender, htask, hlive, hrole.symm.trans hrole'⟩
    · cases htask'.symm.trans hown
      cases hlive'
  · by_cases hr : r < w.tasks.size
    · exact .inl ⟨task', sender, (hadvances.old hr hrt).symm.trans htask', hlive', hrole'⟩
    · -- the task is new, so the step was that of a task that listens and took a connection in
      have hlt : r < u.tasks.size := (Array.getElem?_eq_some_iff.1 htask').1
      have hsize {v : World} {f : Task → Task} (htasks : v.tasks = w.tasks)
          (hlt : r < (v.updateTask t f).tasks.size) : False := by
        have hmodify : (v.updateTask t f).tasks.size = w.tasks.size := by
          rw [World.updateTask, Array.size_modify, htasks]
        omega
      obtain ⟨b, hspawns, rfl⟩ := hadvances.new ht (Nat.le_of_not_lt hr) htask'
      obtain ⟨s, rfl, -⟩ | ⟨l, sender', stream, hactivity, rfl⟩ := hspawns
      · cases hrole'
      · obtain ⟨node, stage⟩ := l
        cases hrole'
        split at hstep
        · obtain ⟨o, htasks⟩ := w.tasks_abortListening (t := t) task.activity
          rw [hstep, htasks] at hlt
          exact (hsize rfl hlt).elim
        · next hkept =>
          rw [hactivity] at hstep
          obtain ⟨node, -, hmove⟩ := Listening.move_of_step hstep
          cases hmove with
          | rests _ _ _ tasks => exact (hsize tasks hlt).elim
          | ends _ _ tasks => exact (hsize tasks hlt).elim
          | opens _ _ _ tasks => exact (hsize tasks hlt).elim
          | shuts _ tasks _ after =>
            obtain ⟨timer, rfl⟩ | ⟨o, rfl⟩ := after <;> exact (hsize tasks hlt).elim
          -- it is the task just started, and from now on task `t` waits for it
          | @takes v id _ _ _ _ _ tasks =>
            have htaken : v.tasks[t]? = some task := tasks ▸ htask
            rw [Listening.size_handOver, tasks] at hlt
            obtain rfl : r = v.tasks.size := by
              rw [tasks]
              omega
            exact .inr ⟨_, Listening.tasks_handOver htaken id _ _, hlive, by simpa using hkept, rfl⟩

theorem OneByOne.step (h : OneByOne n w) (hs : w.step t = some u) : OneByOne n u where
  listens r r' hr hr' := h.listens r r' (hr.of_step hs) (hr'.of_step hs)
  awaited r hr := by
    obtain hold | hnew := hr.of_step hs
    · obtain ⟨t', ht'⟩ := h.awaited r hold
      have hne : t' ≠ t := fun heq => by
        rw [heq] at ht'
        rw [ht'.not_step hold] at hs
        cases hs
      obtain ⟨task, htask, hrest⟩ := ht'
      obtain ⟨_, -, -, hadvances, -⟩ := exists_advances hs
      have hlt : t' < w.tasks.size := (Array.getElem?_eq_some_iff.1 htask).1
      exact ⟨t', task, (hadvances.old hlt hne).trans htask, hrest⟩
    · exact ⟨t, hnew⟩

theorem Settled.step (h : w.Settled n) (hs : w.step t = some u) : u.Settled n := by
  intro r hr
  obtain ⟨_, -, -, hadvances, -⟩ := exists_advances hs
  rw [hadvances.sameNodes.listening]
  exact h r (hr.of_step hs)

/-! ### What a call does -/

/-- What `World.start` makes of the tasks: all are as they were, but the one that listened is
cancelled; the new ones announce, and one listens. -/
theorem exists_start (w : World) (n : Nat) : (w.start n).2 = w ∨
    ∃ k, (w.start n).2.listening? n = some k ∧ ∀ (r : Nat) (task : Task),
      (w.start n).2.tasks[r]? = some task →
      (∃ former, w.tasks[r]? = some former ∧ task.activity = former.activity ∧
        task.outcome = former.outcome ∧
        (task.cancelled = false → former.cancelled = false ∧ w.listening? n ≠ some r)) ∨
      (∃ d, task.activity = .announcing d) ∨ r = k ∧ task.activity = .listening { node := n } := by
  obtain hsame | ⟨v, h⟩ := w.start_cases n
  · exact .inl hsame
  · have hlistening : (w.start n).2.listening? n = some v.tasks.size := by
      rw [h.listening, if_pos rfl]
    refine .inr ⟨v.tasks.size, hlistening, fun r task htask => ?_⟩
    rw [h.tasks] at htask
    split at htask
    · obtain ⟨former, hformer, rfl⟩ := Option.map_eq_some_iff.1 htask
      obtain hold | ⟨d, rfl⟩ | ⟨hr, rfl⟩ := h.task_cases hformer
      · exact .inl ⟨former, hold, rfl, rfl, nofun⟩
      · exact .inr (.inl ⟨d, rfl⟩)
      · exact .inr (.inr ⟨hr, rfl⟩)
    · next hkept =>
      obtain hold | ⟨d, rfl⟩ | ⟨hr, rfl⟩ := h.task_cases htask
      · exact .inl ⟨task, hold, rfl, rfl, fun hfalse => ⟨hfalse, hkept⟩⟩
      · exact .inr (.inl ⟨d, rfl⟩)
      · exact .inr (.inr ⟨hr, rfl⟩)

theorem OneByOne.of_tasks (h : OneByOne n w) (htasks : u.tasks = w.tasks) : OneByOne n u := by
  obtain ⟨listens, awaited⟩ := h
  unfold Listens at listens
  unfold Accepts WaitsFor at awaited
  rw [← htasks] at listens awaited
  exact ⟨listens, awaited⟩

/-- After `World.start` of a node that was `Settled`, the task that `Listens` is the new one. -/
theorem Listens.of_start (h : (w.start n).2.Listens n t) (settled : w.Settled n) :
    (w.start n).2.listening? n = some t := by
  obtain hsame | ⟨k, hlistening, htasks⟩ := w.exists_start n
  · rw [hsame] at h ⊢
    exact settled t h
  · obtain ⟨task, htask, hlive, hkept, hrole⟩ := h
    obtain ⟨former, hformer, hactivity, houtcome, hfree⟩ | ⟨d, hd⟩ | ⟨rfl, -⟩ := htasks t task htask
    · obtain ⟨hkept', hne⟩ := hfree hkept
      exact absurd (settled t ⟨former, hformer, houtcome ▸ hlive, hkept', hactivity ▸ hrole⟩) hne
    · rw [hd] at hrole
      cases hrole
    · exact hlistening

theorem Settled.start (h : w.Settled n) : (w.start n).2.Settled n := fun _ ht => ht.of_start h

theorem Accepts.of_start (h : (w.start n).2.Accepts n r) : w.Accepts n r := by
  obtain hsame | ⟨k, -, htasks⟩ := w.exists_start n
  · rwa [hsame] at h
  · obtain ⟨task, sender, htask, hlive, hrole⟩ := h
    obtain ⟨former, hformer, hactivity, houtcome, -⟩ | ⟨d, hd⟩ | ⟨-, hnew⟩ := htasks r task htask
    · exact ⟨former, sender, hformer, houtcome ▸ hlive, hactivity ▸ hrole⟩
    · rw [hd] at hrole
      cases hrole
    · rw [hnew] at hrole
      cases hrole

theorem OneByOne.start (settled : w.Settled n) (free : ∀ r, ¬ w.Accepts n r) :
    OneByOne n (w.start n).2 where
  listens _ _ ht ht' := Option.some.inj ((ht.of_start settled).symm.trans (ht'.of_start settled))
  awaited r hr := absurd hr.of_start (free r)

/-! ### What else happens -/

namespace Bystanding

theorem accepts (h : Bystanding n w u) (hr : u.Accepts n r) : w.Accepts n r := by
  obtain ⟨task, sender, htask, hlive, hrole⟩ := hr
  exact ⟨task, sender, (h r task (.inr ⟨sender, hrole⟩)).1 htask, hlive, hrole⟩

theorem listens (h : Bystanding n w u) (hr : u.Listens n r) : w.Listens n r := by
  obtain ⟨task, htask, hlive, hkept, hrole⟩ := hr
  exact ⟨task, (h r task (.inl hrole)).1 htask, hlive, hkept, hrole⟩

theorem oneByOne (h : Bystanding n w u) (hw : OneByOne n w) : OneByOne n u where
  listens t t' ht ht' := hw.listens t t' (h.listens ht) (h.listens ht')
  awaited r hr := by
    obtain ⟨t, task, htask, hlive, hkept, hactivity⟩ := hw.awaited r (h.accepts hr)
    have hrole : task.activity.role = .listening n := by
      rw [hactivity]
      rfl
    exact ⟨t, task, (h t task (.inl hrole)).2 htask, hlive, hkept, hactivity⟩

end Bystanding

/-! ### Whole histories -/

variable {may : World → Prop} {events : List Event}

theorem History.oneByOne (h : w.History (Commanded n fun v => ∀ r, ¬ v.Accepts n r) events u)
    (hw : OneByOne n w) : OneByOne n u := by
  refine h.keeps hw (fun t v v' hv hs => hv.step hs)
    (fun m a v hv => hv.of_tasks (tasks_removeBonded ..)) fun v v' hv happens => ?_
  cases happens with
  | start settled free => exact .start settled free
  | stop => exact hv.of_tasks (tasks_beginStop ..)
  | rest h => exact h.oneByOne hv

/-- As long as node `n` is not started, every task that `Listens` has done so before. -/
theorem History.listens (h : w.History (Commanded n fun _ => False) events u) :
    u.Listens n t → w.Listens n t := by
  have hsame {v v' : World} (htasks : v'.tasks = v.tasks) (ht : v'.Listens n t) :
      v.Listens n t := by
    unfold Listens at ht ⊢
    rwa [htasks] at ht
  refine h.keeps (P := fun v => v.Listens n t → w.Listens n t) id
    (fun t' v v' hv hs ht => hv (ht.of_step hs))
    (fun m a v hv ht => hv (hsame (tasks_removeBonded ..) ht)) fun v v' hv happens ht => hv ?_
  cases happens with
  | start _ no => exact no.elim
  | stop => exact hsame (tasks_beginStop ..) ht
  | rest h => exact h.listens ht

theorem Commanded.mono {may may' : World → Prop} (hmay : ∀ v, may v → may' v)
    (h : Commanded n may w u) : Commanded n may' w u := by
  cases h with
  | start settled h => exact .start settled (hmay _ h)
  | stop => exact .stop
  | rest h => exact .rest h

/-- **One connection at a time.** Let node `n` be started only where it is `Settled` and no task
`Accepts`. Then at most one task `Accepts` at any moment. After `beginStop`, once no task `Listens`
any more, none does, and none `Accepts`, until the node is started again. -/
theorem takes_in_one_at_a_time {v : World} (unused : ∀ t, ¬ w.Listens n t ∧ ¬ w.Accepts n t)
    (h : w.History (Commanded n fun v => ∀ r, ¬ v.Accepts n r) events v) :
    (∀ r r', v.Accepts n r → v.Accepts n r' → r = r') ∧
      (v.Settled n → ∀ later u, (v.beginStop n).2.History (Commanded n fun _ => False) later u →
        (∀ t, (v.beginStop n).1 = some t → (u.outcome? t).isSome = true) →
        ∀ r, ¬ u.Accepts n r) := by
  have hfirst : OneByOne n w :=
    ⟨fun t _ ht _ => absurd ht (unused t).1, fun r hr => absurd hr (unused r).2⟩
  have hone := h.oneByOne hfirst
  refine ⟨fun r r' => hone.accepts_eq, fun settled later u hlater hreturned r hr => ?_⟩
  have hquiet : History (Commanded n fun v => ∀ r, ¬ v.Accepts n r) (v.beginStop n).2 later u :=
    hlater.mono fun _ _ => Commanded.mono fun _ no => no.elim
  obtain ⟨t, ht⟩ := (hquiet.oneByOne (hone.of_tasks (tasks_beginStop ..))).awaited r hr
  -- the task that listens is the one that the stop waited for
  have hlistens : v.Listens n t := by
    have hold := hlater.listens ht.listens
    unfold Listens at hold ⊢
    rwa [tasks_beginStop] at hold
  have hover := hreturned t ((v.beginStop_eq n).trans (settled t hlistens))
  obtain ⟨task, htask, hlive, -⟩ := ht
  rw [outcome?, htask, Option.bind_some, hlive] at hover
  cases hover

/-- A caller connects, and its connection is taken in; the node is stopped, the caller lets go, and
all comes to its end. -/
theorem takes_in_one_at_a_time_stopped :
    let a : Address := ⟨#v[2, 0, 0, 0, 0, 1]⟩
    let b : Address := ⟨#v[2, 0, 0, 0, 0, 2]⟩
    let node : Node :=
      { address := b, config := {},
        app := { deviceId := "q", secret := Vector.replicate 32 0,
                 announcement := .ofKind 1 .identity } }
    let w : World := { nodes := #[node], air := (({} : Air).switchOn a).switchOn b }
    ∃ events v later u, w.History (Commanded 0 fun v => ∀ r, ¬ v.Accepts 0 r) events v ∧
      v.Accepts 0 1 ∧ (∀ r, v.Accepts 0 r → r = 1) ∧
      (v.beginStop 0).2.History (Commanded 0 fun _ => False) later u ∧
      u.outcome? 0 = some .done ∧ ∀ r, ¬ u.Accepts 0 r := by
  intro a b node w
  let join (v : World) : World :=
    { v with air := (v.air.connect a b (.service node.config.service.uuid)).2 }
  let leave (v : World) : World := { v with air := v.air.drop ⟨0, .caller⟩ }
  have hrun : (((w.start 0).2.step 0).bind fun v₁ => ((join v₁).step 0).bind fun v₂ =>
      ((leave (v₂.beginStop 0).2).replay? [.task 1, .task 1, .task 0, .task 0]).map fun r =>
        (decide (v₂.Accepts 0 1), (v₂.beginStop 0).1, decide (r.2.outcome? 0 = some .done)))
      = some (true, some 0, true) := by
    decide +kernel
  obtain ⟨v₁, hopens, hrun⟩ := Option.bind_eq_some_iff.1 hrun
  obtain ⟨v, htakes, hrun⟩ := Option.bind_eq_some_iff.1 hrun
  obtain ⟨⟨later, u⟩, hends, hall⟩ := Option.map_eq_some_iff.1 hrun
  obtain ⟨hone, hrest⟩ := Prod.mk.inj hall
  obtain ⟨hstop, hover⟩ := Prod.mk.inj hrest
  have hone : v.Accepts 0 1 := of_decide_eq_true hone
  have hover : u.outcome? 0 = some .done := of_decide_eq_true hover
  have unused (t : Nat) : ¬ w.Listens 0 t ∧ ¬ w.Accepts 0 t :=
    ⟨fun ⟨_, htask, _⟩ => (nomatch htask), fun ⟨_, _, htask, _⟩ => (nomatch htask)⟩
  have settled : w.Settled 0 := fun t ht => absurd ht (unused t).1
  have hjoins : Bystanding 0 v₁ (join v₁) := fun _ _ _ => .rfl
  have hleaves : Bystanding 0 (v.beginStop 0).2 (leave (v.beginStop 0).2) := fun _ _ _ => .rfl
  have hevents : w.History (Commanded 0 fun v => ∀ r, ¬ v.Accepts 0 r) _ v :=
    (((History.start.thenOther (.start settled fun r => (unused r).2)).thenStep hopens).thenOther
      (.rest hjoins)).thenStep htakes
  have hlater : (v.beginStop 0).2.History (Commanded 0 fun _ => False) _ u :=
    (History.start.thenOther (.rest hleaves)).append_replay hends
  obtain ⟨hsame, hquiet⟩ := takes_in_one_at_a_time unused hevents
  have hopened : v₁.Settled 0 := settled.start.step hopens
  have hsettled : v.Settled 0 := Settled.step (w := join v₁) hopened htakes
  refine ⟨_, v, _, u, hevents, hone, fun r hr => hsame r 1 hr hone, hlater, hover,
    hquiet hsettled _ u hlater fun t ht => ?_⟩
  cases hstop.symm.trans ht
  rw [hover]
  rfl

/-- If a node may be started again at any time, two tasks may take in connections at once: the one
that has taken the first connection in goes on beside the new ones. -/
theorem two_at_a_time :
    let a : Address := ⟨#v[2, 0, 0, 0, 0, 1]⟩
    let b : Address := ⟨#v[2, 0, 0, 0, 0, 2]⟩
    let node : Node :=
      { address := b, config := {},
        app := { deviceId := "q", secret := Vector.replicate 32 0,
                 announcement := .ofKind 1 .identity } }
    let w : World := { nodes := #[node], air := (({} : Air).switchOn a).switchOn b }
    ∃ events v, w.History (Commanded 0 fun _ => True) events v ∧ v.Accepts 0 1 ∧ v.Accepts 0 3 := by
  intro a b node w
  let join (v : World) : World :=
    { v with air := (v.air.connect a b (.service node.config.service.uuid)).2 }
  have hrun : (((w.start 0).2.step 0).bind fun v₁ => ((join v₁).step 0).bind fun v₂ =>
      ((v₂.start 0).2.step 2).bind fun v₃ => ((join v₃).step 2).map fun v =>
        decide (v.Accepts 0 1 ∧ v.Accepts 0 3)) = some true := by
    decide +kernel
  obtain ⟨v₁, hopens, hrun⟩ := Option.bind_eq_some_iff.1 hrun
  obtain ⟨v₂, htakes, hrun⟩ := Option.bind_eq_some_iff.1 hrun
  obtain ⟨v₃, hopens', hrun⟩ := Option.bind_eq_some_iff.1 hrun
  obtain ⟨v, htakes', hboth⟩ := Option.map_eq_some_iff.1 hrun
  have settled : w.Settled 0 := fun t ⟨_, htask, _⟩ => nomatch htask
  have hopened : v₁.Settled 0 := settled.start.step hopens
  have hsettled : v₂.Settled 0 := Settled.step (w := join v₁) hopened htakes
  have hjoins : Bystanding 0 v₁ (join v₁) := fun _ _ _ => .rfl
  have hjoins' : Bystanding 0 v₃ (join v₃) := fun _ _ _ => .rfl
  have hevents : w.History (Commanded 0 fun _ => True) _ v :=
    (((((((History.start.thenOther (.start settled trivial)).thenStep hopens).thenOther
      (.rest hjoins)).thenStep htakes).thenOther (.start hsettled trivial)).thenStep
      hopens').thenOther (.rest hjoins')).thenStep htakes'
  exact ⟨_, v, hevents, of_decide_eq_true hboth⟩

end World
end RadioLink

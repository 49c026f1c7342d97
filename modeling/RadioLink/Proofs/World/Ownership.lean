import RadioLink.Proofs.Air.Ends
import RadioLink.Proofs.World.Advancing
import RadioLink.Proofs.World.Sending

/-!
# Who may write where

An end of a link that has been given to somebody is owned by the task that may write on it, or by
the session that holds it for its next send, and by nobody else (`World.Divided`). Ends change
hands: a task that connects gets one, a session that is new may be given one, and a send takes it
out again. Every change of a `Course` leaves each end with one owner (`Course.divided`), and so does
whatever satisfies `World.Outside`, which never writes on what is owned. So nobody but its owner
ever writes on an end: `Divided.writes_eq_nil`.
-/

namespace RadioLink

/-- Somebody who may write on ends of links, now or later. -/
inductive Owner where
  | session (s : Nat)
  | task (t : Nat)
  deriving DecidableEq

/-- The ends that stay with an activity when its task has ended: those a send has written on, which
nobody else gets. -/
def Activity.kept : Activity → List LinkEnd
  | .sending s => s.stage.pens
  | _ => []

theorem Activity.mem_pens_of_kept {a : Activity} {e : LinkEnd} (h : e ∈ a.kept) : e ∈ a.pens := by
  cases a with
  | sending s => exact h
  | _ => cases h

theorem Activity.kept_eq_nil {a : Activity} (h : a.session? = none) : a.kept = [] := by
  cases a with
  | sending s => cases h
  | _ => rfl

theorem Activity.Spawns.ready {a b : Activity} {s : Sending} (h : a.Spawns b)
    (hb : b = .sending s) : s.stage = .ready := by
  obtain ⟨d, rfl, hd⟩ | ⟨l, sender, stream, -, rfl⟩ := h
  · cases hb
    exact hd
  · cases hb

theorem Activity.Spawns.pens {a b : Activity} (h : a.Spawns b) : b.pens = [] := by
  obtain ⟨s, rfl, hs⟩ | ⟨l, sender, stream, -, rfl⟩ := h
  · rw [Activity.pens, hs]
    rfl
  · rfl

/-- The ends of links that belong to a task: the `pens` of its activity, or what is `kept` of them
once it has an outcome. -/
def Task.pens (task : Task) : List LinkEnd :=
  if task.outcome.isNone then task.activity.pens else task.activity.kept

theorem Task.mem_pens_of_mem {task : Task} {e : LinkEnd} (h : e ∈ task.pens) :
    e ∈ task.activity.pens := by
  unfold Task.pens at h
  split at h
  · exact h
  · exact Activity.mem_pens_of_kept h

namespace World

variable {t s : Nat} {a : Activity} {w u v : World} {hand : List LinkEnd} {o : Owner} {e : LinkEnd}

/-- The ends of links that somebody owns: a session what it has `held`, a task its `pens`. -/
def Owns (w : World) : Owner → LinkEnd → Prop
  | .session s, e => ∃ x, w.sessions[s]? = some x ∧ x.held = some e
  | .task t, e => ∃ task, w.tasks[t]? = some task ∧ e ∈ task.pens

/-- What everybody owns in the middle of a step of task `t`, which owns its `hand` instead of its
`pens`. -/
def Grips (t : Nat) (hand : List LinkEnd) (w : World) (o : Owner) (e : LinkEnd) : Prop :=
  o = .task t ∧ e ∈ hand ∨ o ≠ .task t ∧ w.Owns o e

/-- No end of a link has two owners by `Owns`. -/
structure Divided (w : World) : Prop where
  orderly : w.air.Orderly
  owners : w.air.Divided w.Owns

/-! ### What changes leave whose -/

theorem owns_congr (hsessions : v.sessions = u.sessions) (htasks : v.tasks = u.tasks) :
    v.Owns = u.Owns := by
  funext o e
  cases o with
  | session s => rw [Owns, hsessions, Owns]
  | task t => rw [Owns, htasks, Owns]

theorem Owns.of_updateSession {f : Session → Session}
    (hf : ∀ x e, (f x).held = some e → x.held = some e) (h : (v.updateSession s f).Owns o e) :
    v.Owns o e := by
  cases o with
  | task t => exact h
  | session r =>
    obtain ⟨x, hx, he⟩ := h
    rw [updateSession, Array.getElem?_modify] at hx
    split at hx
    · obtain ⟨y, hy, rfl⟩ := Option.map_eq_some_iff.1 hx
      exact ⟨y, hy, hf y e he⟩
    · exact ⟨x, hx, he⟩

theorem Owns.of_release (h : (v.release s).Owns o e) : v.Owns o e := by
  unfold release at h
  split at h
  · exact h
  · split at h
    · exact Owns.of_updateSession (f := fun x => { x with held := none })
        (fun _ e (he : none = some e) => nomatch he) h
    · exact h

theorem Owns.of_removeBonded {n : Nat} {address : Address}
    (h : (v.removeBonded n address).Owns o e) : v.Owns o e := by
  have hevict {v : World} {s : Nat} (h : (v.evict n s).Owns o e) : v.Owns o e := by
    unfold evict at h
    split at h
    · exact h
    · next a _ =>
      have hsame : (((v.release s).count n .sessionLost).updateApp n (·.lose a s)).Owns
          = (v.release s).Owns := owns_congr rfl rfl
      rw [hsame] at h
      exact h.of_release
  unfold World.removeBonded unregister at h
  dsimp only at h
  split at h
  · exact h
  · have hbefore := hevict h
    cases o <;> exact hbefore

/-- Once `held` is `none` the session owns nothing; all others own what they owned. -/
theorem Owns.of_takes (h : (v.updateSession s fun x => { x with held := none }).Owns o e) :
    v.Owns o e ∧ o ≠ .session s := by
  refine ⟨h.of_updateSession fun _ e (he : none = some e) => (nomatch he), ?_⟩
  rintro rfl
  obtain ⟨x, hx, he⟩ := h
  rw [updateSession, Array.getElem?_modify, if_pos rfl] at hx
  obtain ⟨y, -, rfl⟩ := Option.map_eq_some_iff.1 hx
  cases he

theorem Owns.of_addSession {x : Session} (h : (v.addSession x).Owns o e) :
    v.Owns o e ∨ o = .session v.sessions.size ∧ x.held = some e := by
  cases o with
  | task t => exact .inl h
  | session s =>
    obtain ⟨y, hy, he⟩ := h
    rw [addSession, Array.getElem?_push] at hy
    split at hy
    · next hs =>
      cases hy
      exact .inr ⟨congrArg _ hs, he⟩
    · exact .inl ⟨y, hy, he⟩

theorem Owns.of_spawn {b : Activity} (hb : b.pens = []) (h : (v.spawn b).Owns o e) :
    v.Owns o e := by
  cases o with
  | session s => exact h
  | task t =>
    obtain ⟨task, htask, he⟩ := h
    rw [spawn, Array.getElem?_push] at htask
    split at htask
    · cases htask
      have he := Task.mem_pens_of_mem he
      rw [hb] at he
      cases he
    · exact ⟨task, htask, he⟩

theorem Owns.of_updateTask {f : Task → Task} (h : (v.updateTask t f).Owns o e) :
    o ≠ .task t ∧ v.Owns o e ∨
      o = .task t ∧ ∃ task, v.tasks[t]? = some task ∧ e ∈ (f task).pens := by
  cases o with
  | session s => exact .inl ⟨nofun, h⟩
  | task r =>
    obtain ⟨task, htask, he⟩ := h
    rw [updateTask, Array.getElem?_modify] at htask
    split at htask
    · next hr =>
      obtain ⟨former, hformer, rfl⟩ := Option.map_eq_some_iff.1 htask
      exact .inr ⟨by rw [hr], former, hr ▸ hformer, he⟩
    · next hr => exact .inl ⟨fun heq => hr (Owner.task.inj heq).symm, task, htask, he⟩

/-! ### A step -/

theorem Grips.mono {hand' : List LinkEnd} (hhand : ∀ e ∈ hand', e ∈ hand)
    (howns : ∀ o e, u.Owns o e → v.Owns o e) (h : Grips t hand' u o e) : Grips t hand v o e :=
  h.imp (fun h => ⟨h.1, hhand e h.2⟩) fun h => ⟨h.1, howns o e h.2⟩

/-- Every change of a `Course` keeps `Air.Divided` for `Grips`, of what is in hand and what is
`kept`. -/
theorem Course.divided (h : Course t a w hand v) (hair : w.air.Orderly)
    (hw : w.air.Divided (Grips t (a.pens ++ a.kept) w)) :
    v.air.Orderly ∧ v.air.Divided (Grips t (hand ++ a.kept) v) := by
  have hid {hand : List LinkEnd} : ∀ e ∈ hand, e ∈ hand := fun _ he => he
  -- an end that comes to the task, which nobody had
  have hgets {hand : List LinkEnd} {v : World} {air : Air} {m : LinkEnd}
      (h : air.Divided (Grips t (hand ++ a.kept) v)) (hm : air.Given m)
      (hfree : ∀ o, ¬ Grips t (hand ++ a.kept) v o m) :
      air.Divided (Grips t (m :: hand ++ a.kept) v) := by
    refine h.gain (k := .task t) hm hfree fun o e ho => ?_
    obtain ⟨rfl, he⟩ | hother := ho
    · rcases List.mem_cons.1 he with rfl | he
      · exact .inr ⟨rfl, rfl⟩
      · exact .inl (.inl ⟨rfl, he⟩)
    · exact .inl (.inr hother)
  -- by induction on the course: a change leaves every end whose it was, or passes one end on
  induction h with
  | start => exact ⟨hair, hw⟩
  | @forgets hand hand' v _ hsub ih =>
    refine ⟨ih.1, ih.2.mono fun o e => Grips.mono (fun e he => ?_) fun _ _ ho => ho⟩
    exact List.mem_append.2 ((List.mem_append.1 he).imp_left (hsub e))
  | node _ _ _ _ _ _ ih => exact ih
  | aside _ hv hsame ih =>
    rw [hsame]
    refine ⟨ih.1, ih.2.mono fun o e => Grips.mono hid fun o e ho => ?_⟩
    rwa [← owns_congr hv.sessions hv.tasks]
  | act _ _ ih => exact ⟨ih.1.perform _, ih.2.perform ih.1 _⟩
  | connects _ _ hlink ih =>
    obtain ⟨hnew, hgiven⟩ := Air.given_connect hlink
    exact ⟨ih.1.perform (.connect _ _ _), hgets (ih.2.perform ih.1 (.connect _ _ _)) hgiven
      fun o ho => hnew (ih.2.given o _ ho)⟩
  | @accepts _ _ _ id _ _ hstream ih =>
    obtain ⟨hnew, hgiven⟩ := Air.given_accept ih.1 hstream
    exact ⟨ih.1.perform (.accept id), hgets (ih.2.perform ih.1 (.accept id)) hgiven
      fun o ho => hnew (ih.2.given o _ ho)⟩
  | @releases hand v _ s ih =>
    have hmono {air : Air} (h : air.Divided (Grips t (hand ++ a.kept) v)) :
        air.Divided (Grips t (hand ++ a.kept) (v.release s)) :=
      h.mono fun o e => Grips.mono hid fun _ _ => Owns.of_release
    obtain heq | ⟨m, heq⟩ := Course.air_release v s
    · rw [heq]
      exact ⟨ih.1, hmono ih.2⟩
    · rw [heq]
      exact ⟨ih.1.perform _, hmono (ih.2.perform ih.1 _)⟩
  | @adds hand v _ k x hheld hsub ih =>
    refine ⟨ih.1, ?_⟩
    have hkeep (e : LinkEnd) (he : e ∈ k ++ a.kept) : e ∈ hand ++ a.kept :=
      List.mem_append.2 ((List.mem_append.1 he).imp_left (hsub e))
    cases hx : x.held with
    | none =>
      refine ih.2.mono fun o e => Grips.mono hkeep fun o e ho => ho.of_addSession.resolve_right ?_
      rw [hx]
      exact fun h => nomatch h.2
    | some m =>
      -- what the new session holds goes over from the task to the session
      obtain ⟨hm, hk, hnone⟩ := hheld m hx
      rw [Activity.kept_eq_nil hnone, List.append_nil] at ih ⊢
      refine ih.2.pass (j := .task t) (k := .session v.sessions.size) (.inl ⟨rfl, hm⟩)
        fun o e ho => ?_
      obtain ⟨rfl, he⟩ | ⟨hne, ho⟩ := ho
      · exact .inl ⟨.inl ⟨rfl, hsub e he⟩, fun _ heq => hk (heq ▸ he)⟩
      · obtain ho | ⟨rfl, he⟩ := ho.of_addSession
        · exact .inl ⟨.inr ⟨hne, ho⟩, fun heq => absurd heq hne⟩
        · exact .inr ⟨rfl, Option.some.inj (he.symm.trans hx)⟩
  | asks _ _ _ hheld ih =>
    refine ⟨ih.1, ih.2.mono fun o e => Grips.mono hid fun _ _ => Owns.of_updateSession ?_⟩
    exact fun x e he => (hheld x).symm.trans he
  | @takes hand v _ s x _ hx ih =>
    refine ⟨ih.1, ?_⟩
    cases hheld : x.held with
    | none => exact ih.2.mono fun o e => Grips.mono hid fun _ _ ho => ho.of_takes.1
    | some m =>
      -- what the session held goes over to the task
      refine ih.2.pass (j := .session s) (k := .task t) (m := m) (.inr ⟨nofun, x, hx, hheld⟩)
        fun o e ho => ?_
      obtain ⟨rfl, he⟩ | ⟨hne, ho⟩ := ho
      · rcases List.mem_cons.1 he with rfl | he
        · exact .inr ⟨rfl, rfl⟩
        · exact .inl ⟨.inl ⟨rfl, he⟩, nofun⟩
      · exact .inl ⟨.inr ⟨hne, ho.of_takes.1⟩, fun heq => absurd heq ho.of_takes.2⟩
  | spawns _ hb ih =>
    exact ⟨ih.1, ih.2.mono fun o e => Grips.mono hid fun _ _ => Owns.of_spawn hb.pens⟩

theorem Advances.divided {task : Task} (h : Advances t task.activity w u)
    (htask : w.tasks[t]? = some task) (hlive : task.outcome = none) (hw : w.Divided) :
    u.Divided := by
  have ht := (Array.getElem?_eq_some_iff.1 htask).1
  have hstart : w.air.Divided (Grips t (task.activity.pens ++ task.activity.kept) w) := by
    refine hw.owners.mono fun o e ho => ?_
    obtain ⟨rfl, he⟩ | ⟨-, ho⟩ := ho
    · refine ⟨task, htask, ?_⟩
      rw [Task.pens, hlive, Option.isNone_none, if_pos rfl]
      exact (List.mem_append.1 he).elim id Activity.mem_pens_of_kept
    · exact ho
  cases h with
  | @goes hand v b h hpens _ =>
    obtain ⟨hair, hv⟩ := h.divided hw.orderly hstart
    refine ⟨hair, hv.mono fun o e ho => ?_⟩
    obtain hother | ⟨rfl, former, hformer, he⟩ := ho.of_updateTask
    · exact .inr hother
    · exact .inl ⟨rfl, List.mem_append_left _ (hpens e (Task.mem_pens_of_mem he))⟩
  | @ends hand v h o' =>
    obtain ⟨hair, hv⟩ := h.divided hw.orderly hstart
    refine ⟨hair, hv.mono fun o e ho => ?_⟩
    obtain hother | ⟨rfl, former, hformer, he⟩ := ho.of_updateTask
    · exact .inr hother
    · cases ((h.moreTasks.old t ht).trans htask).symm.trans hformer
      exact .inl ⟨rfl, List.mem_append_right _ he⟩

theorem Divided.step (hw : w.Divided) (hs : w.step t = some u) : u.Divided := by
  obtain ⟨task, htask, hlive, hadvances, -⟩ := exists_advances hs
  exact hadvances.divided htask hlive hw

/-! ### Where an end comes from -/

/-- Where an end comes from that somebody `Grips` in the middle of a step of task `t`: he had it
before the step (`same`), or one of the other constructors applies. -/
inductive Origin (t : Nat) (a : Activity) (w : World) (e : LinkEnd) : Owner → Prop where
  | same {o : Owner} (h : Grips t a.pens w o e) : Origin t a w e o
  /-- The task has taken it out of the session that `a` asks for. -/
  | taken {s : Nat} (asks : a.session? = some s) (held : w.Owns (.session s) e) :
      Origin t a w e (.task t)
  /-- The task had it among its `pens`, and has given it to a session. -/
  | handed {s : Nat} (own : e ∈ a.pens) (asks : a.session? = none) : Origin t a w e (.session s)
  /-- Nobody had it. If `a` uses no listener, its link is new. -/
  | fresh {o : Owner} (given : ¬ w.air.Given e)
      (link : a.listener? = none → w.air.links.size ≤ e.link) : Origin t a w e o

theorem Course.origin (h : Course t a w hand v) (hair : w.air.Orderly) (o : Owner)
    (ho : Grips t hand v o e) : Origin t a w e o := by
  have hthrough {hand : List LinkEnd} {v : World} (h : Course t a w hand v) :
      v.air.Orderly ∧ w.air.links.size ≤ v.air.links.size ∧ (w.air.Given e → v.air.Given e) := by
    obtain ⟨acts, heq, -⟩ := h.exists_acts
    rw [heq]
    exact ⟨hair.foldl acts, w.air.size_le_foldl acts, fun he => he.foldl hair acts⟩
  -- whoever comes by an end in the course of the step has it from somebody who had it then
  have hgets {hand : List LinkEnd} {m : LinkEnd} {u v : World} {o : Owner}
      (ho : Grips t (m :: hand) u o e) (howns : u.Owns = v.Owns)
      (ih : ∀ o, Grips t hand v o e → Origin t a w e o) (hm : m = e → Origin t a w e (.task t)) :
      Origin t a w e o := by
    obtain ⟨rfl, he⟩ | ⟨hne, ho⟩ := ho
    · rcases List.mem_cons.1 he with rfl | he
      · exact hm rfl
      · exact ih _ (.inl ⟨rfl, he⟩)
    · exact ih _ (.inr ⟨hne, howns ▸ ho⟩)
  induction h generalizing o with
  | start => exact .same ho
  | forgets _ hsub ih => exact ih o (ho.mono hsub fun _ _ ho => ho)
  | node _ _ _ _ _ _ ih | act _ _ ih => exact ih o ho
  | aside _ hv _ ih =>
    refine ih o (ho.mono (fun _ he => he) fun o e ho => ?_)
    rwa [← owns_congr hv.sessions hv.tasks]
  | connects h _ hlink ih =>
    obtain ⟨-, hsize, hgiven⟩ := hthrough h
    refine hgets ho rfl ih ?_
    rintro rfl
    refine .fresh (fun he => (Air.given_connect hlink).1 (hgiven he)) fun _ => ?_
    rw [Air.eq_size_of_connect hlink]
    exact hsize
  | accepts h hid hstream ih =>
    obtain ⟨hair, -, hgiven⟩ := hthrough h
    refine hgets ho rfl ih ?_
    rintro rfl
    refine .fresh (fun he => (Air.given_accept hair hstream).1 (hgiven he)) fun hnone => ?_
    cases hnone.symm.trans hid
  | releases _ s ih => exact ih o (ho.mono (fun _ he => he) fun _ _ => Owns.of_release)
  | adds _ hheld hsub ih =>
    obtain ⟨rfl, he⟩ | ⟨hne, ho⟩ := ho
    · exact ih _ (.inl ⟨rfl, hsub e he⟩)
    · obtain ho | ⟨rfl, he⟩ := ho.of_addSession
      · exact ih _ (.inr ⟨hne, ho⟩)
      · obtain ⟨hhand, -, hnone⟩ := hheld e he
        cases ih (.task t) (.inl ⟨rfl, hhand⟩) with
        | same h => exact .handed (h.resolve_right fun h => h.1 rfl).2 hnone
        | taken asks => cases hnone.symm.trans asks
        | fresh given link => exact .fresh given link
  | asks _ _ _ hheld ih =>
    refine ih o (ho.mono (fun _ he => he) fun o e => Owns.of_updateSession fun x e he => ?_)
    exact (hheld x).symm.trans he
  | @takes hand v _ s x hs hx ih =>
    obtain ⟨rfl, he⟩ | ⟨hne, ho⟩ := ho
    · rcases List.mem_append.1 he with he | he
      · have hheld : v.Owns (.session s) e := ⟨x, hx, Option.mem_toList.1 he⟩
        cases ih (.session s) (.inr ⟨nofun, hheld⟩) with
        | same h => exact .taken hs (h.resolve_left fun h => nomatch h.1).2
        | handed _ asks => cases asks.symm.trans hs
        | fresh given link => exact .fresh given link
      · exact ih _ (.inl ⟨rfl, he⟩)
    · exact ih _ (.inr ⟨hne, ho.of_takes.1⟩)
  | spawns _ hb ih => exact ih o (ho.mono (fun _ he => he) fun _ _ => Owns.of_spawn hb.pens)

theorem Advances.origin {task : Task} (h : Advances t task.activity w u)
    (htask : w.tasks[t]? = some task) (hair : w.air.Orderly) (ho : u.Owns o e) :
    Origin t task.activity w e o := by
  have ht := (Array.getElem?_eq_some_iff.1 htask).1
  cases h with
  | goes h hpens =>
    obtain hother | ⟨rfl, former, -, he⟩ := ho.of_updateTask
    · exact h.origin hair o (.inr hother)
    · exact h.origin hair _ (.inl ⟨rfl, hpens e (Task.mem_pens_of_mem he)⟩)
  | ends h =>
    obtain hother | ⟨rfl, former, hformer, he⟩ := ho.of_updateTask
    · exact h.origin hair o (.inr hother)
    · cases ((h.moreTasks.old t ht).trans htask).symm.trans hformer
      exact .same (.inl ⟨rfl, Activity.mem_pens_of_kept he⟩)

/-! ### What else happens -/

/-- What others may do to `w`: any act on the air but to write on what somebody `Owns`; start tasks
that are still `.ready`, cancel tasks, and `release` sessions; and add sessions that hold nothing or
what nobody owns. What leaves the air, sessions and tasks alone is free (`aside`). Ends of which
`ours` holds are not theirs to use even when nobody owns them any more. -/
inductive Outside (ours : LinkEnd → Prop) : World → World → Prop where
  | act {w : World} {x : Air.Act}
      (h : ∀ e bytes, x = .write e bytes → ¬ ours e ∧ ∀ o, ¬ w.Owns o e) :
      Outside ours w { w with air := w.air.perform x }
  | spawn {w : World} {b : Activity} (hpens : b.pens = [])
      (hready : ∀ s, b = .sending s → s.stage = .ready) : Outside ours w (w.spawn b)
  | cancel {w : World} (t : Nat) : Outside ours w (w.cancel t)
  | release {w : World} (s : Nat) : Outside ours w (w.release s)
  | addSession {w : World} {x : Session}
      (hheld : ∀ e, x.held = some e → w.air.Given e ∧ ¬ ours e ∧ ∀ o, ¬ w.Owns o e) :
      Outside ours w (w.addSession x)
  | aside {w u : World} (air : u.air = w.air) (sessions : u.sessions = w.sessions)
      (tasks : u.tasks = w.tasks) : Outside ours w u

variable {ours : LinkEnd → Prop}

/-- Where task `r` takes no step, it has the activity and the outcome that it had, or it is new and
has no outcome yet; a new send is `.ready`. -/
theorem exists_former {event : Event} {r : Nat} {task : Task} (h : event.Happens (Outside ours))
    (hcause : event.cause ≠ .task r) (htask : event.after.tasks[r]? = some task) :
    (∃ former, event.before.tasks[r]? = some former ∧ task.activity = former.activity ∧
      task.outcome = former.outcome) ∨
      event.before.tasks.size ≤ r ∧ task.outcome = none ∧
        ∀ d, task.activity = .sending d → d.stage = .ready := by
  obtain ⟨cause, before, after⟩ := event
  have hsame (htasks : after.tasks = before.tasks) :
      ∃ former, before.tasks[r]? = some former ∧ task.activity = former.activity ∧
        task.outcome = former.outcome := ⟨task, htasks ▸ htask, rfl, rfl⟩
  cases cause with
  | task t =>
    obtain ⟨own, hown, -, hadvances, -⟩ := exists_advances h
    by_cases hr : r < before.tasks.size
    -- a task that was there and took no step is as it was; one that was not has been started by it
    · have hne : r ≠ t := fun heq => hcause (heq ▸ rfl)
      exact .inl ⟨task, (hadvances.old hr hne).symm.trans htask, rfl, rfl⟩
    · have hr := Nat.le_of_not_lt hr
      obtain ⟨b, hspawns, rfl⟩ := hadvances.new (Array.getElem?_eq_some_iff.1 hown).1 hr htask
      exact .inr ⟨hr, rfl, fun d => hspawns.ready⟩
  | removal n a =>
    obtain rfl : after = before.removeBonded n a := h
    exact .inl (hsame (tasks_removeBonded ..))
  | other =>
    have h : Outside ours before after := h
    cases h with
    | act _ | addSession _ => exact .inl (hsame rfl)
    | release s => exact .inl (hsame (tasks_release ..))
    | aside _ _ tasks => exact .inl (hsame tasks)
    | cancel t =>
      rw [cancel, updateTask, Array.getElem?_modify] at htask
      split at htask
      · obtain ⟨former, hformer, rfl⟩ := Option.map_eq_some_iff.1 htask
        exact .inl ⟨former, hformer, rfl, rfl⟩
      · exact .inl ⟨task, htask, rfl, rfl⟩
    | spawn _ hready =>
      rw [World.spawn, Array.getElem?_push] at htask
      split at htask
      · next hr =>
        cases htask
        exact .inr ⟨Nat.le_of_eq hr.symm, rfl, hready⟩
      · exact .inl ⟨task, htask, rfl, rfl⟩

/-- What an event does to the air is done by `Air.perform`. -/
theorem exists_acts {event : Event} (h : event.Happens (Outside ours)) :
    ∃ acts : List Air.Act, event.after.air = acts.foldl Air.perform event.before.air := by
  obtain ⟨cause, before, after⟩ := event
  cases cause with
  | task t =>
    obtain ⟨_, -, -, hadvances, -⟩ := exists_advances h
    obtain ⟨acts, hair, -⟩ := hadvances.exists_acts
    exact ⟨acts, hair⟩
  | removal n a =>
    obtain rfl : after = before.removeBonded n a := h
    obtain ⟨acts, hair, -⟩ := (before.course_removeBonded n a).exists_acts
    exact ⟨acts, hair⟩
  | other =>
    have h : Outside ours before after := h
    cases h with
    | @act x _ => exact ⟨[x], rfl⟩
    | release s =>
      obtain heq | ⟨m, heq⟩ := Course.air_release before s
      · exact ⟨[], heq⟩
      · exact ⟨[.drop m], heq⟩
    | aside air _ _ => exact ⟨[], air⟩
    | spawn _ _ | cancel _ | addSession _ => exact ⟨[], rfl⟩

/-- The number of links never falls. -/
theorem links_size_le {event : Event} (h : event.Happens (Outside ours)) :
    event.before.air.links.size ≤ event.after.air.links.size := by
  obtain ⟨acts, hair⟩ := exists_acts h
  exact hair ▸ event.before.air.size_le_foldl acts

/-- The number of tasks never falls. -/
theorem tasks_size_le {event : Event} (h : event.Happens (Outside ours)) :
    event.before.tasks.size ≤ event.after.tasks.size := by
  obtain ⟨cause, before, after⟩ := event
  cases cause with
  | task t =>
    obtain ⟨_, -, -, hadvances, -⟩ := exists_advances h
    exact hadvances.size
  | removal n a =>
    obtain rfl : after = before.removeBonded n a := h
    exact Nat.le_of_eq (congrArg Array.size (tasks_removeBonded ..).symm)
  | other =>
    have h : Outside ours before after := h
    cases h with
    | act _ | addSession _ => exact Nat.le_refl _
    | release s => exact Nat.le_of_eq (congrArg Array.size (tasks_release ..).symm)
    | aside _ _ tasks => exact Nat.le_of_eq (congrArg Array.size tasks.symm)
    | cancel t => exact Nat.le_of_eq Array.size_modify.symm
    | spawn _ _ => exact Nat.le_of_lt (Array.size_push _ ▸ Nat.lt_succ_self _)

/-- A task that takes a step is there already. -/
theorem lt_size_of_cause {event : Event} (h : event.Happens (Outside ours))
    (hcause : event.cause = .task t) : t < event.before.tasks.size := by
  obtain ⟨task, htask, -⟩ := exists_advances (h.step hcause)
  exact (Array.getElem?_eq_some_iff.1 htask).1

/-- Where no task takes a step, whoever owns an end after the event owned it before, or is a new
session. -/
theorem exists_owner {event : Event} (h : event.Happens (Outside ours))
    (hcause : ∀ t, event.cause ≠ .task t) (ho : event.after.Owns o e) :
    event.before.Owns o e ∨ o = .session event.before.sessions.size ∧ event.before.air.Given e ∧
      ¬ ours e ∧ ∀ o, ¬ event.before.Owns o e := by
  obtain ⟨cause, before, after⟩ := event
  cases cause with
  | task t => exact absurd rfl (hcause t)
  | removal n a =>
    obtain rfl : after = before.removeBonded n a := h
    exact .inl ho.of_removeBonded
  | other =>
    have h : Outside ours before after := h
    cases h with
    | act _ => exact .inl ho
    | spawn hpens _ => exact .inl (ho.of_spawn hpens)
    | cancel t =>
      obtain ⟨-, ho⟩ | ⟨rfl, task, htask, he⟩ := ho.of_updateTask
      · exact .inl ho
      · exact .inl ⟨task, htask, he⟩
    | release s => exact .inl ho.of_release
    | addSession hheld => exact ho.of_addSession.imp_right fun h => ⟨h.1, hheld e h.2⟩
    | aside _ sessions tasks => exact .inl (owns_congr sessions tasks ▸ ho)

theorem Divided.event {event : Event} (hw : event.before.Divided)
    (h : event.Happens (Outside ours)) : event.after.Divided := by
  by_cases hcause : ∃ t, event.cause = .task t
  · obtain ⟨t, hcause⟩ := hcause
    exact hw.step (h.step hcause)
  · have howner {o : Owner} {e : LinkEnd} (ho : event.after.Owns o e) :=
      exists_owner h (fun t heq => hcause ⟨t, heq⟩) ho
    obtain ⟨acts, hair⟩ := exists_acts h
    have hgiven {e : LinkEnd} (he : event.before.air.Given e) : event.after.air.Given e :=
      hair ▸ he.foldl hw.orderly acts
    refine ⟨hair ▸ hw.orderly.foldl acts, fun o o' e ho ho' => ?_, fun o e ho => ?_⟩
    · obtain ho | ⟨rfl, -, -, hfree⟩ := howner ho
      · obtain ho' | ⟨rfl, -, -, hfree⟩ := howner ho'
        · exact hw.owners.one o o' e ho ho'
        · exact absurd ho (hfree o)
      · obtain ho' | ⟨rfl, -⟩ := howner ho'
        · exact absurd ho' (hfree o')
        · rfl
    · obtain ho | ⟨-, he, -⟩ := howner ho
      · exact hgiven (hw.owners.given o e ho)
      · exact hgiven he

/-! ### Who writes -/

/-- Where an event writes on `e`, it is a step of the task that `Owns` it, or nobody owns it. -/
theorem exists_writer {event : Event} (h : event.Happens (Outside ours))
    (hwrites : event.writes e ≠ []) :
    (∃ t, event.cause = .task t ∧ event.before.Owns (.task t) e) ∨
      e.link < event.before.air.links.size ∧ ¬ ours e ∧ ∀ o, ¬ event.before.Owns o e := by
  obtain ⟨cause, before, after⟩ := event
  have hlonger : (before.air.outgoing e).length < (after.air.outgoing e).length := by
    refine Nat.lt_of_not_le fun hle => hwrites ?_
    exact List.drop_eq_nil_of_le hle
  have hsame (hair : after.air.outgoing e = before.air.outgoing e) : False := by
    rw [hair] at hlonger
    exact Nat.lt_irrefl _ hlonger
  have hacts {a : Activity} (h : ∃ acts : List Air.Act,
      after.air = acts.foldl Air.perform before.air ∧ ∀ x ∈ acts, a.May before x) : e ∈ a.pens := by
    obtain ⟨acts, hair, hmay⟩ := h
    by_cases he : e ∈ a.pens
    · exact he
    · rw [hair] at hlonger
      refine absurd hlonger (Nat.not_lt.2 (Air.length_outgoing_foldl fun x hx bytes heq => he ?_))
      have := hmay x hx
      rwa [heq] at this
  cases cause with
  | task t =>
    -- the task may write only on what it has had in hand when it took the step
    obtain ⟨task, htask, hlive, hadvances, -⟩ := exists_advances h
    refine .inl ⟨t, rfl, task, htask, ?_⟩
    rw [Task.pens, hlive, Option.isNone_none, if_pos rfl]
    exact hacts hadvances.exists_acts
  | removal n a =>
    obtain rfl : after = before.removeBonded n a := h
    exact nomatch hacts (before.course_removeBonded n a).exists_acts
  | other =>
    have h : Outside ours before after := h
    cases h with
    | @act x hx =>
      by_cases hwrite : ∃ bytes, x = .write e bytes
      · obtain ⟨bytes, rfl⟩ := hwrite
        refine .inr ⟨Nat.lt_of_not_le fun hsize => hsame ?_, hx e bytes rfl⟩
        show (before.air.write e bytes).2.outgoing e = _
        rw [Air.outgoing_write_of_size hsize]
      · have hle : ((before.air.perform x).outgoing e).length ≤ (before.air.outgoing e).length :=
          Air.length_outgoing_perform fun bytes heq => hwrite ⟨bytes, heq⟩
        exact absurd hlonger (Nat.not_lt.2 hle)
    | release s =>
      refine (hsame ?_).elim
      obtain heq | ⟨m, heq⟩ := Course.air_release before s
      · rw [heq]
      · rw [heq]
        exact Air.outgoing_drop m
    | aside air _ _ => exact (hsame (by rw [air])).elim
    | spawn _ _ | cancel _ | addSession _ => exact (hsame rfl).elim

/-- In a `Divided` world an event that is not a step of its owner writes nothing on an end. -/
theorem Divided.writes_eq_nil {event : Event} (hw : event.before.Divided)
    (h : event.Happens (Outside ours)) (ho : event.before.Owns o e)
    (hcause : ∀ t, o = .task t → event.cause ≠ .task t) : event.writes e = [] := by
  refine Classical.byContradiction fun hwrites => ?_
  obtain ⟨t, hown, howns⟩ | ⟨-, -, hfree⟩ := exists_writer h hwrites
  · exact hcause t (hw.owners.one o _ e ho howns) hown
  · exact hfree o ho

/-- Nobody writes on an end whose link is yet to come. -/
theorem Divided.writes_of_size {event : Event} (hw : event.before.Divided)
    (h : event.Happens (Outside ours)) (hsize : event.before.air.links.size ≤ e.link) :
    event.writes e = [] := by
  refine Classical.byContradiction fun hwrites => ?_
  obtain ⟨t, -, howns⟩ | ⟨hlt, -⟩ := exists_writer h hwrites
  · exact Nat.not_lt.2 hsize (hw.owners.given _ e howns).lt_size
  · exact Nat.not_lt.2 hsize hlt

end World
end RadioLink

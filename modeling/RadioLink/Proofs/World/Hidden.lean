import RadioLink.Proofs.Air.Usable
import RadioLink.Proofs.World.Announcements
import RadioLink.Proofs.World.Fetches
import RadioLink.Proofs.World.Gate
import RadioLink.Proofs.World.Ownership
import RadioLink.Proofs.World.Retrying
import RadioLink.Proofs.World.Wanted

/-!
# Sessions that nobody else knows of

A task changes the session that it asks for (`Activity.session?`), and those that a node has
registered, but no other one: that is `World.Heeds`, with one lemma for each way of changing a
world, and every step keeps to it (`heeds_of_step`). So a session that no node has registered, and
that only task `r` asks for, stays `World.Hidden`, as long as the world is `World.Founded`: nobody
refers to what is not there yet.
-/

namespace RadioLink

theorem Activity.session?_of_role {a b : Activity} (h : b.role = a.role) :
    b.session? = a.session? := by
  cases a <;> cases b <;> simp_all [Activity.role, Activity.session?]

namespace World

/-- No node has registered the session `s`. -/
def Unlisted (s : Nat) (w : World) : Prop := ∀ n a, w.registered? n a ≠ some s

/-- From `w` to `u` only those sessions have changed that are `mine` or that some node has
registered; a task that is new asks for a session that is new, if for any. -/
structure Heeds (mine : Option Nat) (w u : World) : Prop where
  session : ∀ s, s < w.sessions.size → mine ≠ some s → w.Unlisted s →
    u.sessions[s]? = w.sessions[s]?
  size : w.sessions.size ≤ u.sessions.size
  fresh : ∀ (r : Nat) (task : Task) (s : Nat), w.tasks.size ≤ r → u.tasks[r]? = some task →
    task.activity.session? = some s → w.sessions.size ≤ s ∧ s < u.sessions.size

namespace Heeds

variable {mine : Option Nat} {t n r : Nat} {u v w : World}

theorem refl : Heeds mine w w where
  session _ _ _ _ := rfl
  size := Nat.le_refl _
  fresh r task s hr htask _ := by
    rw [Array.getElem?_eq_none hr] at htask
    cases htask

/-! ### One lemma for each change -/

theorem same (h : Heeds mine w v) (hsessions : u.sessions = v.sessions)
    (htasks : u.tasks = v.tasks) : Heeds mine w u where
  session s hs hmine hlist := by rw [hsessions, h.session s hs hmine hlist]
  size := hsessions ▸ h.size
  fresh r task s hr htask := by
    rw [hsessions]
    exact h.fresh r task s hr (htasks ▸ htask)

theorem aside (h : Heeds mine w v) (hv : v.Aside u) : Heeds mine w u := h.same hv.sessions hv.tasks

theorem updateTask (h : Heeds mine w v) (ht : t < w.tasks.size) (f : Task → Task) :
    Heeds mine w (v.updateTask t f) where
  session := h.session
  size := h.size
  fresh r task s hr htask := by
    rw [World.updateTask, Array.getElem?_modify,
      if_neg (Nat.ne_of_lt (Nat.lt_of_lt_of_le ht hr))] at htask
    exact h.fresh r task s hr htask

/-- A change of session `r` that is `mine` or registered `Heeds`. -/
theorem modify (h : Heeds mine w v) (f : Session → Session)
    (hr : mine = some r ∨ ∃ n a, w.registered? n a = some r) :
    Heeds mine w (v.updateSession r f) where
  session s hs hmine hlist := by
    have hne : r ≠ s := by
      rintro rfl
      obtain hr | ⟨n, a, hr⟩ := hr
      · exact hmine hr
      · exact hlist n a hr
    rw [World.updateSession, Array.getElem?_modify, if_neg hne, h.session s hs hmine hlist]
  size := Nat.le_trans h.size (Nat.le_of_eq Array.size_modify.symm)
  fresh q task s hq htask hs := by
    rw [World.updateSession, Array.size_modify]
    exact h.fresh q task s hq htask hs

theorem release (h : Heeds mine w v) (hr : ∃ n a, w.registered? n a = some r) :
    Heeds mine w (v.release r) := by
  unfold World.release
  split
  · exact h
  · split
    · exact (h.modify (fun x => { x with held := none }) (.inr hr)).same rfl rfl
    · exact h

theorem addSession (h : Heeds mine w v) (x : Session) : Heeds mine w (v.addSession x) where
  session s hs hmine hlist := by
    rw [World.addSession, Array.getElem?_push,
      if_neg (Nat.ne_of_lt (Nat.lt_of_lt_of_le hs h.size)), h.session s hs hmine hlist]
  size := Nat.le_trans h.size (by simp [World.addSession])
  fresh q task s hq htask hs := by
    obtain ⟨hle, hlt⟩ := h.fresh q task s hq htask hs
    exact ⟨hle, Nat.lt_of_lt_of_le hlt (by simp [World.addSession])⟩

theorem spawn (h : Heeds mine w v) {b : Activity}
    (hb : ∀ s, b.session? = some s → w.sessions.size ≤ s ∧ s < v.sessions.size) :
    Heeds mine w (v.spawn b) where
  session := h.session
  size := h.size
  fresh q task s hq htask hs := by
    rw [World.spawn, Array.getElem?_push] at htask
    split at htask
    · cases htask
      exact hb s hs
    · exact h.fresh q task s hq htask hs

theorem evict (h : Heeds mine w v) (hr : ∃ n a, w.registered? n a = some r) :
    Heeds mine w (v.evict n r) := by
  unfold World.evict
  split
  · exact h
  · exact (h.release hr).same rfl rfl

/-- What `register` replaces, and so changes, is a session that was registered. -/
theorem register (h : Heeds mine w v) {a : Address} (identity : Message)
    (hlisted : v.registered? n a = w.registered? n a) :
    Heeds mine w (v.register n a identity r).2 := by
  unfold World.register
  split
  · exact h
  · next peer _ =>
    dsimp only
    split
    · exact h
    · have hput : Heeds mine w ((((v.updateNode n fun node =>
          { node with registry := node.registry.insert a r }).count n .sessionAccepted).updateApp n
          (·.accept identity peer r))) := h.same rfl rfl
      split
      · exact hput
      · next old hold => exact hput.evict ⟨n, a, hlisted ▸ hold⟩

theorem welcome (h : Heeds mine w v) {a : Address} (identity : Message) (device : Option String)
    (hlisted : v.registered? n a = w.registered? n a) :
    Heeds mine w (v.welcome n identity a device) := by
  unfold World.welcome
  cases device with
  | none => exact (h.addSession _).register identity hlisted
  | some id =>
    have hbound : Heeds mine w (v.updateApp n (·.bind id a)) := h.same rfl rfl
    refine (hbound.addSession _).register identity (Eq.trans ?_ hlisted)
    show ((v.updateApp n (·.bind id a)).nodes[n]?).bind _ = _
    rw [nodes_updateApp, if_pos rfl, Option.bind_map]
    rfl

theorem removeBonded (w : World) (n : Nat) (a : Address) : Heeds none w (w.removeBonded n a) := by
  let v := w.updateNode n fun node => { node with bonded := node.bonded.filter (· ≠ a) }
  have hlisted : v.registered? n a = w.registered? n a := by
    refine registered?_of_dealings (dealings_updateNode ?_) a
    exact fun _ => rfl
  have hstart : Heeds none w v := refl.same rfl rfl
  unfold World.removeBonded World.unregister
  dsimp only
  split
  · exact hstart
  · next s hs =>
    have hput : Heeds none w (v.updateNode n fun node =>
        { node with registry := node.registry.erase a }) := hstart.same rfl rfl
    exact hput.evict ⟨n, a, hlisted ▸ hs⟩

end Heeds
end World

/-! ### Steps of tasks -/

open World (Heeds)

variable {mine : Option Nat} {t : Nat} {u v w : World}

/-- A step of `Retry` leaves `sessions` and `tasks` as they were. -/
theorem Retry.keeps_step {r : Retry} {q : Retry.Progress × World} (h : r.step w = some q) :
    q.2.sessions = w.sessions ∧ q.2.tasks = w.tasks := by
  have hfailure (c : LinkConfig) {v : World} (hsessions : v.sessions = w.sessions)
      (htasks : v.tasks = w.tasks) : (r.afterFailure c v).2.sessions = w.sessions ∧
        (r.afterFailure c v).2.tasks = w.tasks := by
    obtain ⟨p, u, heq, hcounts, -⟩ := r.afterFailure_cases c v
    rw [heq]
    exact ⟨hcounts.keeps.2.2.trans hsessions, hcounts.keeps.1.trans htasks⟩
  have haside {call : Call} {x : Except LinkError LinkEnd} {v : World}
      (hx : w.answer? call = some (x, v)) : w.Aside v := World.Aside.refl.answer hx
  cases hnode : w.nodes[r.node]? with
  | none => simp [step, hnode] at h
  | some node =>
    have hturn := turn_of_step hnode h
    cases hturn with
    | spent | resumes => exact ⟨rfl, rfl⟩
    | calls _ _ _ _ _ counts => exact ⟨counts.keeps.2.2, counts.keeps.1⟩
    | refused _ _ _ _ counts => exact hfailure _ counts.keeps.2.2 counts.keeps.1
    | connected _ answer => exact ⟨(haside answer).sessions, (haside answer).tasks⟩
    | failed _ answer => exact hfailure _ (haside answer).sessions (haside answer).tasks

namespace World
namespace Heeds

theorem finishSending {d : Sending} (h : Heeds (some d.session) w v) (ht : t < w.tasks.size)
    (x : Session) (size : Option Nat) :
    Heeds (some d.session) w (v.finishSending t d x size) := by
  have hunlock : Heeds (some d.session) w (v.unlock d.session) := h.modify _ (.inl rfl)
  unfold World.finishSending
  have hcount (c : Counted) : Heeds (some d.session) w ((v.unlock d.session).count x.node c) :=
    hunlock.same rfl rfl
  cases size with
  | none => exact (hcount .sendFailure).updateTask ht _
  | some size => exact (hcount (.frameSent (UInt64.ofNat size))).updateTask ht _

theorem beginWriting {d : Sending} (h : Heeds (some d.session) w v) (ht : t < w.tasks.size)
    (x : Session) (node : Node) (stream : LinkEnd) :
    Heeds (some d.session) w (v.beginWriting t d x node stream) := by
  have hcancel : Heeds (some d.session) w (v.cancelDiscovery node) := h.same rfl rfl
  unfold World.beginWriting
  dsimp only
  split
  · exact (hcancel.same rfl rfl :
      Heeds _ w ((v.cancelDiscovery node).drop stream)).finishSending ht x none
  · exact (hcancel.same rfl rfl : Heeds _ w (v.cancelDiscovery node).withTimer).updateTask ht _

theorem takeConnection {d : Sending} (h : Heeds (some d.session) w v) (ht : t < w.tasks.size)
    (x : Session) (node : Node) :
    Heeds (some d.session) w (v.takeConnection t d x node) := by
  have htaken := h.modify (fun x => { x with held := none }) (.inl rfl)
  unfold World.takeConnection
  dsimp only
  split
  · exact htaken.beginWriting ht x node _
  · exact htaken.updateTask ht _

theorem of_writeStep {d : Sending} {x : Session} {stream : LinkEnd} {rest : Outflow}
    {deadline : Timer} (ht : t < w.tasks.size)
    (h : d.WriteStep t x stream rest deadline w u) : Heeds (some d.session) w u := by
  have hgo (air : Air) (rest : Outflow) : Heeds (some d.session) w
      (({ w with air } : World).become t
        (.sending { d with stage := .writing stream rest deadline })) :=
    (refl.same rfl rfl : Heeds _ w { w with air }).updateTask ht _
  have hover (air : Air) (size : Option Nat) : Heeds (some d.session) w
      ((({ w with air } : World).drop stream).finishSending t d x size) :=
    (refl.same rfl rfl : Heeds _ w (({ w with air } : World).drop stream)).finishSending ht x size
  cases h with
  | takes | goesOn | shuts => exact hgo _ _
  | breaks => exact hover _ none
  | tooSlow | fails | done => exact hover w.air _

theorem stepSending {d : Sending} (ht : t < w.tasks.size) (hs : w.stepSending t d = some u) :
    Heeds (some d.session) w u := by
  obtain ⟨x, node, -, -, hstep⟩ := Sending.step_of_stepSending hs
  have hstart : Heeds (some d.session) w w := refl
  have hstale {v : World} (stale : Option LinkEnd)
      (h : v.sessions = w.sessions ∧ v.tasks = w.tasks) :
      Heeds (some d.session) w (stale.elim v v.drop) := by
    cases stale <;> exact hstart.same h.1 h.2
  cases hstep with
  | locks =>
    exact (hstart.modify (fun x => { x with holder := some t }) (.inl rfl)).takeConnection ht x node
  | queues =>
    exact (hstart.modify (fun x => { x with waiting := x.waiting ++ [t] })
      (.inl rfl)).updateTask ht _
  | follows => exact hstart.takeConnection ht x node
  | dials _ step =>
    obtain ⟨hsessions, htasks⟩ := Retry.keeps_step step
    exact (hstart.same hsessions htasks).updateTask ht _
  | connected _ step => exact (hstale _ (Retry.keeps_step step)).beginWriting ht x node _
  | failed _ step => exact (hstale _ (Retry.keeps_step step)).finishSending ht x none
  | writes _ write => exact of_writeStep ht write

theorem stepInspecting {i : Inspecting} (ht : t < w.tasks.size)
    (hs : w.stepInspecting t i = some u) : Heeds (some i.session) w u := by
  have hstart : Heeds (some i.session) w w := refl
  obtain ⟨x, -, hstep⟩ := Inspecting.step_of_stepInspecting hs
  cases hstep with
  | follows => exact (hstart.modify _ (.inl rfl)).updateTask ht _
  | looks => exact hstart.updateTask ht _
  | queues =>
    exact (hstart.modify (fun x => { x with waiting := x.waiting ++ [t] })
      (.inl rfl)).updateTask ht _

theorem stepConnecting {r : Retry} (ht : t < w.tasks.size) (hs : w.stepConnecting t r = some u) :
    Heeds none w u := by
  obtain ⟨r', v, heq, rfl⟩ | ⟨q, o, heq, rfl⟩ := exists_of_stepConnecting hs
  all_goals
    obtain ⟨hsessions, htasks⟩ := Retry.keeps_step heq
    exact (refl.same hsessions htasks).updateTask ht _

theorem handling {d : Handling} {x : Session} {q : Handling.Progress × World}
    (hmove : d.Move x w q) : Heeds none w q.2 := by
  cases hmove with
  | going _ _ _ aside => exact refl.aside aside
  | detached => exact refl
  | undecipherable => exact refl.same rfl rfl
  | delivered aside => exact refl.same aside.sessions aside.tasks
  | abort aside => exact refl.aside aside

theorem stepHandling {d : Handling} (ht : t < w.tasks.size) (hs : w.stepHandling t d = some u) :
    Heeds none w u := by
  obtain ⟨d', v, heq, rfl⟩ | ⟨q, o, heq, rfl⟩ := exists_of_stepHandling hs
  all_goals
    obtain ⟨x, -, hmove⟩ := Handling.move_of_step heq
    exact (handling hmove).updateTask ht _

/-- A step of an `Accepting` changes no session but by registering, and asks for none. -/
theorem accepting {a : Accepting} {node : Node} {q : Accepting.Progress × World}
    (hmove : a.Move node w q) : Heeds none w q.2 := by
  have hcount (c : Counted) : Heeds none w (w.count a.node c) := refl.same rfl rfl
  have hhandled {q : Handling.Progress × World} (h : Heeds none w q.2) :
      Heeds none w (a.ofHandling q).2 := by
    obtain ⟨p, v⟩ := q
    cases p <;> exact h
  cases hmove with
  | begun _ aside => exact (hcount _).aside aside
  | more _ _ _ aside => exact refl.aside aside
  | aborted _ _ aside => exact refl.aside aside
  | overfull _ _ _ _ aside => exact (hcount _).aside aside
  | timedOut _ _ aside => exact refl.aside aside
  | misframed _ _ _ _ aside => exact (hcount _).aside aside
  | @framed _ _ _ _ _ v _ _ _ _ aside taken =>
    have hv := (hcount _).aside aside
    cases taken with
    | unnamed | own | routed => exact hv
    | foreign =>
      refine hv.welcome _ _ (registered?_eq_of_standing ?_ _)
      rw [standing_of_aside aside, standing_count]
    | unroutable => exact hv.same rfl rfl
  | handled _ hstep =>
    obtain ⟨x, -, hmove⟩ := Handling.move_of_step hstep
    exact hhandled (handling hmove)

theorem stepAccepting {a : Accepting} (ht : t < w.tasks.size) (hs : w.stepAccepting t a = some u) :
    Heeds none w u := by
  obtain ⟨a', v, heq, rfl⟩ | ⟨q, o, heq, rfl⟩ := exists_of_stepAccepting hs
  all_goals
    obtain ⟨node, -, hmove⟩ := Accepting.move_of_step heq
    exact (accepting hmove).updateTask ht _

/-- A step of an `Announcing` asks for no session; the one it makes for what it sends is new. -/
theorem announcing {a : Announcing} {node : Node} {q : Announcing.Progress × World}
    (hturn : a.Turn node w q) : Heeds none w q.2 := by
  have hcounts {cs : List Counted} {v : World} (h : w.CountsUp a.node cs v) : Heeds none w v :=
    refl.same h.keeps.2.2 h.keeps.1
  have hfailure {v : World} (h : Heeds none w v) :
      Heeds none w (a.afterFailure node.config.announce v).2 := by
    obtain ⟨p, u, heq, hcounts, -⟩ := a.afterFailure_cases node.config.announce v
    rw [heq]
    exact h.same hcounts.keeps.2.2 hcounts.keeps.1
  cases hturn with
  | spent | unbonded | unsent | resumes => exact refl
  | calls _ _ _ _ counts => exact hcounts counts
  | refused _ _ _ _ counts => exact hfailure (hcounts counts)
  | reached =>
    unfold Announcing.sendOver
    split
    · exact refl.same rfl rfl
    · refine (refl.addSession _).spawn fun s hs => ?_
      obtain rfl := Option.some.inj hs
      exact ⟨Nat.le_refl _, by simp [World.addSession, Sending.ofMessage]⟩
  | failed _ answer => exact hfailure (refl.aside (Aside.refl.answer answer))
  | sent => exact refl.same rfl rfl

theorem stepAnnouncing {a : Announcing} (ht : t < w.tasks.size)
    (hs : w.stepAnnouncing t a = some u) : Heeds none w u := by
  obtain ⟨node, ⟨p, v⟩, -, hturn, rfl⟩ := exists_turn_of_step hs
  cases p <;> exact (announcing hturn).updateTask ht _

theorem air (h : Heeds mine w v) (air : Air) : Heeds mine w { v with air } := h.same rfl rfl

theorem pauseListening {l : Listening} (h : Heeds mine w v) (ht : t < w.tasks.size) (node : Node) :
    Heeds mine w (v.pauseListening t l node) :=
  (h.aside Aside.refl.withTimer).updateTask ht _

/-- The `Accepting` that `handOver` starts asks for no session. -/
theorem handOver (h : Heeds mine w v) (ht : t < w.tasks.size) (l : Listening) (id : Nat)
    (stream : LinkEnd) (sender : Address) : Heeds mine w (v.handOver t l id stream sender) := by
  have hclosed : Heeds mine w (v.closeListener id) := h.air _
  have hnone (s : Nat) :
      (Activity.accepting ⟨l.node, sender, .ready (.link stream)⟩).session? ≠ some s := nofun
  exact (hclosed.spawn fun s hs => absurd hs (hnone s)).updateTask ht _

theorem stepListening {l : Listening} (ht : t < w.tasks.size) (hs : w.stepListening t l = some u) :
    Heeds mine w u := by
  have hstop {node : Node} {b : Bool} {v : World} (notices : w.noticesStop t node = (b, v)) :
      Heeds mine w v := refl.aside (aside_of_noticesStop notices)
  obtain ⟨node, -, hstep⟩ := Listening.step_of_stepListening hs
  cases hstep with
  | inactive | stopsIdle | dealt => exact refl.updateTask ht _
  | radioOff =>
    exact (refl.same rfl rfl : Heeds mine w
      (w.updateNode l.node fun node => { node with active := false })).updateTask ht _
  | opens _ _ _ notices => exact ((hstop notices).air _).updateTask ht _
  | refused _ _ _ notices => exact ((hstop notices).air _).pauseListening ht node
  | takes _ _ notices => exact ((hstop notices).air _).handOver ht _ _ _ _
  | fails _ _ notices => exact (((hstop notices).air _).air _).pauseListening ht node
  | shuts _ notices => exact ((hstop notices).air _).updateTask ht _
  | shutsIdle => exact (refl.air _).updateTask ht _
  | recovers _ _ notices | stops _ notices => exact (hstop notices).updateTask ht _

theorem abortListening (ht : t < w.tasks.size) (a : Activity) :
    Heeds mine w (w.abortListening t a) := by
  unfold World.abortListening
  split
  · exact (refl.air _).updateTask ht _
  · exact refl.updateTask ht _

theorem stepServing {d : Serving} (ht : t < w.tasks.size) (hs : w.stepServing t d = some u) :
    Heeds mine w u := by
  cases Serving.step_of_stepServing hs with
  | connected | fails | shuts | takes | breaks => exact (refl.air _).updateTask ht _

theorem stepCapturing {c : Capturing} (ht : t < w.tasks.size) (hs : w.stepCapturing t c = some u) :
    Heeds mine w u := by
  cases Capturing.step_of_stepCapturing hs with
  | connected | fails | reads => exact (refl.air _).updateTask ht _
  | @keeps stream pieces sender _ air =>
    have hkept : Heeds mine w { w with
        air := air.drop stream
        sinks := w.sinks.modify c.sink (· ++ [(sender, pieces.reverse.flatten)]) } :=
      refl.same rfl rfl
    exact hkept.updateTask ht _

end Heeds

/-- A step `Heeds` the session that the activity of the task asks for. -/
theorem heeds_of_step (h : w.step t = some u) :
    ∃ task, w.tasks[t]? = some task ∧ Heeds task.activity.session? w u := by
  obtain ⟨task, htask, -, -, hs⟩ := exists_advances h
  have ht : t < w.tasks.size := (Array.getElem?_eq_some_iff.1 htask).1
  refine ⟨task, htask, ?_⟩
  split at hs
  · rw [hs]
    exact .abortListening ht task.activity
  · cases hactivity : task.activity with
    | sending d => exact .stepSending ht (by rwa [hactivity] at hs)
    | inspecting i => exact .stepInspecting ht (by rwa [hactivity] at hs)
    | handling d => exact .stepHandling ht (by rwa [hactivity] at hs)
    | accepting a => exact .stepAccepting ht (by rwa [hactivity] at hs)
    | announcing a => exact .stepAnnouncing ht (by rwa [hactivity] at hs)
    | listening l => exact .stepListening ht (by rwa [hactivity] at hs)
    | connecting r => exact .stepConnecting ht (by rwa [hactivity] at hs)
    | serving s => exact .stepServing ht (by rwa [hactivity] at hs)
    | capturing c => exact .stepCapturing ht (by rwa [hactivity] at hs)

/-! ### What is referred to -/

variable {s q r n : Nat} {a b : Address}

/-- A step registers no session but one that is new. -/
theorem registered?_of_step (hw : ∀ a s, w.registered? n a = some s → s < w.sessions.size)
    (h : w.step t = some u) (hs : u.registered? n a = some s) :
    w.registered? n a = some s ∨ w.sessions.size ≤ s ∧ s < u.sessions.size := by
  rcases dealings_step (n := n) h with
    ⟨b, id, m, device, v, p, node, -, -, hnode, hsessions, hdealings, rfl⟩ | ⟨-, hdealings⟩
  · have hsame := registered?_of_dealings hdealings
    obtain ⟨hregistered, hfresh⟩ := registered?_welcome b m device hnode fun c r hr => by
      rw [hsessions]
      exact hw c r (hsame c ▸ hr)
    rw [registered?_of_dealings (dealings_conclude p), hregistered] at hs
    split at hs
    · obtain rfl := Option.some.inj hs
      refine .inr ⟨Nat.le_of_eq (congrArg Array.size hsessions.symm), ?_⟩
      have hlt := lt_size_of_lasting hfresh
      cases p <;> exact hlt
    · exact .inl (hsame a ▸ hs)
  · exact .inl (registered?_of_dealings hdealings a ▸ hs)

/-- What is registered after `removeBonded` was registered before. -/
theorem registered?_of_removeBonded {m : Nat}
    (hw : ∀ a s, w.registered? m a = some s → s < w.sessions.size)
    (hs : (w.removeBonded m b).registered? n a = some s) : w.registered? n a = some s := by
  by_cases hm : m = n
  · subst hm
    have hbonds (c : Address) : (w.updateNode m fun node =>
        { node with bonded := node.bonded.filter (· ≠ b) }).registered? m c = w.registered? m c :=
      registered?_of_dealings (dealings_updateNode fun _ => by rfl) c
    rw [removeBonded, registered?_unregister, hbonds] at hs
    · split at hs
      · cases hs
      · exact hs
    · exact fun r hr => hw b r (hbonds b ▸ hr)
  · have hapart : Apart 0 (some m) w (w.removeBonded m b) := Apart.refl.removeBonded b
    exact (registered?_of_dealings
      (dealings_of_linkage (hapart.linkage n (by simpa using hm))) a).symm.trans hs

/-- After a step a task asks for the session that it asked for before, or for one that is new. -/
theorem asks_of_step (h : w.step t = some u) {task' : Task} (htask' : u.tasks[q]? = some task')
    (hs : task'.activity.session? = some s) :
    (∃ task, w.tasks[q]? = some task ∧ task.activity.session? = some s) ∨
      w.sessions.size ≤ s ∧ s < u.sessions.size := by
  obtain ⟨task, htask, -, hadvances, -⟩ := exists_advances h
  obtain ⟨_, -, hheeds⟩ := heeds_of_step h
  by_cases hq : q < w.tasks.size
  · left
    by_cases heq : q = t
    · subst heq
      obtain ⟨b, hrole, hown⟩ | ⟨o, hown⟩ := hadvances.own htask
      · cases hown.symm.trans htask'
        exact ⟨task, htask, (Activity.session?_of_role hrole).symm.trans hs⟩
      · cases hown.symm.trans htask'
        exact ⟨task, htask, hs⟩
    · exact ⟨task', (hadvances.old hq heq).symm.trans htask', hs⟩
  · exact .inr (hheeds.fresh q task' s (Nat.le_of_not_lt hq) htask' hs)

/-- Nothing is referred to before it is there: no session by a registry (`listed`) or a task
(`asked`), and no link by whoever `Fetches` from it (`fetched`). -/
structure Founded (w : World) : Prop where
  listed : ∀ n a s, w.registered? n a = some s → s < w.sessions.size
  asked : ∀ (q : Nat) (task : Task) (s : Nat), w.tasks[q]? = some task →
    task.activity.session? = some s → s < w.sessions.size
  fetched : ∀ q link, w.Fetches q link → link < w.air.links.size

theorem Founded.step (hw : w.Founded) (h : w.step t = some u) : u.Founded := by
  obtain ⟨task, htask, hlive, hadvances, -⟩ := exists_advances h
  obtain ⟨_, -, hheeds⟩ := heeds_of_step h
  refine ⟨fun n a s hs => ?_, fun q task' s htask' hs => ?_, fun q link hq => ?_⟩
  · obtain hold | ⟨-, hlt⟩ := registered?_of_step (hw.listed n) h hs
    · exact Nat.lt_of_lt_of_le (hw.listed n a s hold) hheeds.size
    · exact hlt
  · obtain ⟨former, hformer, hs⟩ | ⟨-, hlt⟩ := asks_of_step h htask' hs
    · exact Nat.lt_of_lt_of_le (hw.asked q former s hformer hs) hheeds.size
    · exact hlt
  · obtain hold | ⟨-, -, hlt⟩ := hadvances.fetches htask hlive hq
    · exact Nat.lt_of_lt_of_le (hw.fetched q link hold) (links_size_le_of_step h)
    · exact hlt

theorem Founded.removed (hw : w.Founded) (m : Nat) (b : Address) :
    (w.removeBonded m b).Founded := by
  have hheeds := Heeds.removeBonded w m b
  have htasks := tasks_removeBonded w m b
  refine ⟨fun n a s hs => ?_, fun q task s htask hs => ?_, fun q link hq => ?_⟩
  · exact Nat.lt_of_lt_of_le (hw.listed n a s (registered?_of_removeBonded (hw.listed m) hs))
      hheeds.size
  · exact Nat.lt_of_lt_of_le (hw.asked q task s (htasks ▸ htask) hs) hheeds.size
  · obtain ⟨acts, hair, -⟩ := (w.course_removeBonded m b).exists_acts
    refine Nat.lt_of_lt_of_le (hw.fetched q link ((fetches_of_tasks (by rw [htasks])).1 hq)) ?_
    exact hair ▸ w.air.size_le_foldl acts

/-! ### Sessions that are a task's own -/

/-- The session `s` is there, no node has registered it, and no task but `r` asks for it. -/
structure Hidden (s r : Nat) (w : World) : Prop where
  here : s < w.sessions.size
  unlisted : w.Unlisted s
  alone : ∀ (q : Nat) (task : Task), w.tasks[q]? = some task → task.activity.session? = some s →
    q = r

/-- A session and a task that are added together to a `Founded` world are `Hidden` from all others.
-/
theorem Founded.hidden (hw : w.Founded) (x : Session) (b : Activity) :
    ((w.addSession x).spawn b).Hidden w.sessions.size w.tasks.size where
  here := by simp [spawn, addSession]
  unlisted n a hs := Nat.lt_irrefl _ (hw.listed n a _ hs)
  alone q task htask hs := by
    rw [spawn, Array.getElem?_push] at htask
    split at htask
    · next hq => exact hq
    · exact absurd (hw.asked q task _ htask hs) (Nat.lt_irrefl _)

theorem Hidden.become (h : w.Hidden s r) {b : Activity} (hb : b.session? = none) :
    (w.become t b).Hidden s r where
  here := h.here
  unlisted := h.unlisted
  alone q task htask hs := by
    rw [World.become, updateTask, Array.getElem?_modify] at htask
    split at htask
    · obtain ⟨former, -, rfl⟩ := Option.map_eq_some_iff.1 htask
      cases hb.symm.trans hs
    · exact h.alone q task htask hs

/-- A step of another task leaves a session that is `Hidden` for `r` exactly as it was. -/
theorem Hidden.step (h : w.Hidden s r) (hw : w.Founded) (hs : w.step t = some u) (hne : t ≠ r) :
    u.Hidden s r ∧ u.sessions[s]? = w.sessions[s]? := by
  obtain ⟨task, htask, hheeds⟩ := heeds_of_step hs
  refine ⟨⟨Nat.lt_of_lt_of_le h.here hheeds.size, fun n a hr => ?_,
    fun q task' htask' hr => ?_⟩, ?_⟩
  · obtain hold | ⟨hle, -⟩ := registered?_of_step (hw.listed n) hs hr
    · exact h.unlisted n a hold
    · exact absurd h.here (Nat.not_lt.2 hle)
  · obtain ⟨former, hformer, hr⟩ | ⟨hle, -⟩ := asks_of_step hs htask' hr
    · exact h.alone q former hformer hr
    · exact absurd h.here (Nat.not_lt.2 hle)
  · exact hheeds.session s h.here (fun hmine => hne (h.alone t task htask hmine)) h.unlisted

theorem Hidden.removed (h : w.Hidden s r) (hw : w.Founded) (m : Nat) (b : Address) :
    (w.removeBonded m b).Hidden s r ∧ (w.removeBonded m b).sessions[s]? = w.sessions[s]? := by
  have hheeds := Heeds.removeBonded w m b
  refine ⟨⟨Nat.lt_of_lt_of_le h.here hheeds.size, fun n a hr => ?_, fun q task htask hr => ?_⟩, ?_⟩
  · exact h.unlisted n a (registered?_of_removeBonded (hw.listed m) hr)
  · exact h.alone q task (tasks_removeBonded w m b ▸ htask) hr
  · exact hheeds.session s h.here nofun h.unlisted

end World
end RadioLink

import RadioLink.Proofs.Air.Power
import RadioLink.Proofs.World.History
import RadioLink.Proofs.World.Listening
import RadioLink.Proofs.World.Taking

/-!
# Whether a node is wanted to take connections in

A node is started and stopped by those who have it. What is sent to it, and whatever becomes of
that, leaves `active? n` as it is: of all steps that there are, only one changes it, that of a
`Listening` which is `.ready` and finds the radio off (`active?_of_step`). So whoever has started a
node and has not stopped it can rely on `World.Wants`, as long as the radio is on.
-/

namespace RadioLink

open World (Aside)

namespace World

variable {n m t : Nat} {w v u : World}

/-- The flag `active` of node `n`. -/
def active? (w : World) (n : Nat) : Option Bool := w.nodes[n]?.map (·.active)

/-- Node `n` is active, its radio is on, `listening? n` is task `t`, and the task is not cancelled.
-/
structure Wants (n t : Nat) (w : World) : Prop where
  active : w.active? n = some true
  on : w.IsOn n
  listening : w.listening? n = some t
  kept : ∀ task, w.tasks[t]? = some task → task.cancelled = false

/-! ### What is done besides -/

theorem active?_updateNode {f : Node → Node} (hf : ∀ node, (f node).active = node.active) :
    (w.updateNode m f).active? n = w.active? n := map_nodes_updateNode _ _ _ hf

theorem active?_count (c : Counted) : (w.count m c).active? n = w.active? n :=
  active?_updateNode fun _ => rfl

theorem active?_updateApp (f : Application → Application) :
    (w.updateApp m f).active? n = w.active? n := active?_updateNode fun _ => rfl

theorem Aside.active? (h : w.Aside v) : v.active? n = w.active? n := by
  rw [World.active?, h.nodes, World.active?]

theorem active?_evict (s : Nat) : (w.evict m s).active? n = w.active? n := by
  unfold evict
  split
  · rfl
  · rw [active?_updateApp, active?_count, World.active?, nodes_release, World.active?]

theorem active?_register (a : Address) (identity : Message) (s : Nat) :
    (w.register m a identity s).2.active? n = w.active? n := by
  have hregistered (peer : Address) : (((w.updateNode m fun node => { node with
      registry := node.registry.insert a s }).count m .sessionAccepted).updateApp m
        (·.accept identity peer s)).active? n = w.active? n := by
    rw [active?_updateApp, active?_count]
    exact active?_updateNode fun _ => rfl
  unfold register
  split
  · rfl
  · dsimp only
    split
    · rfl
    · split
      · exact hregistered _
      · exact (active?_evict _).trans (hregistered _)

theorem active?_welcome (identity : Message) (a : Address) (device : Option String) :
    (w.welcome m identity a device).active? n = w.active? n := by
  unfold welcome
  cases device with
  | none => exact active?_register ..
  | some id =>
    refine (active?_register ..).trans ?_
    exact active?_updateApp (·.bind id a)

/-- A call of `removeBonded` leaves `active?` of every node. -/
theorem active?_removeBonded (a : Address) : (w.removeBonded m a).active? n = w.active? n := by
  have hpeers : (w.updateNode m fun node => { node with
      bonded := node.bonded.filter (· ≠ a) }).active? n = w.active? n :=
    active?_updateNode fun _ => rfl
  unfold removeBonded unregister
  split
  · exact hpeers
  · refine (active?_evict _).trans (Eq.trans ?_ hpeers)
    exact active?_updateNode fun _ => rfl

end World

/-! ### Connecting and sending -/

open World (active?_count active?_updateApp)

variable {n t : Nat} {w v : World}

theorem Retry.active?_afterFailure (r : Retry) (c : LinkConfig) :
    (r.afterFailure c w).2.active? n = w.active? n := by
  unfold Retry.afterFailure
  dsimp only
  split <;> exact active?_count _

theorem Retry.active?_step {r : Retry} {q : Retry.Progress × World} (hs : r.step w = some q) :
    q.2.active? n = w.active? n := by
  obtain ⟨node, -, hstep⟩ := step_of_step hs
  have hplaced : (r.placeCall node w).2.active? n = w.active? n :=
    (Aside.refl.call ..).active?.trans ((active?_count _).trans
      (Aside.refl.endpoint r node.config).active?)
  cases hstep with
  | spent | resumes => rfl
  | calls _ _ placed =>
    rw [placed] at hplaced
    exact hplaced
  | refused _ _ placed =>
    rw [placed] at hplaced
    exact (r.active?_afterFailure node.config).trans hplaced
  | connected _ answer => exact (Aside.refl.answer answer).active?
  | failed _ answer =>
    exact (r.active?_afterFailure node.config).trans (Aside.refl.answer answer).active?

namespace World

theorem active?_finishSending (d : Sending) (x : Session) (size : Option Nat) :
    (w.finishSending t d x size).active? n = w.active? n := by
  cases size <;> exact active?_count _

theorem active?_beginWriting (d : Sending) (x : Session) (node : Node) (stream : LinkEnd) :
    (w.beginWriting t d x node stream).active? n = w.active? n := by
  unfold beginWriting
  dsimp only
  split
  · exact active?_finishSending ..
  · rfl

theorem active?_takeConnection (d : Sending) (x : Session) (node : Node) :
    (w.takeConnection t d x node).active? n = w.active? n := by
  unfold takeConnection
  dsimp only
  split
  · exact active?_beginWriting ..
  · rfl

theorem active?_of_writeStep {d : Sending} {x : Session} {stream : LinkEnd} {rest : Outflow}
    {deadline : Timer} (h : d.WriteStep t x stream rest deadline w v) :
    v.active? n = w.active? n := by
  have hover (air : Air) (size : Option Nat) :
      ((({ w with air } : World).drop stream).finishSending t d x size).active? n = w.active? n :=
    active?_finishSending ..
  cases h with
  | takes | goesOn | shuts => rfl
  | breaks => exact hover _ none
  | tooSlow | fails | done => exact hover w.air _

theorem active?_stepSending {d : Sending} (hs : w.stepSending t d = some v) :
    v.active? n = w.active? n := by
  obtain ⟨x, node, -, -, hstep⟩ := Sending.step_of_stepSending hs
  -- a connection that could not be used any more is dropped at last
  have hstale (stale : Option LinkEnd) (v : World) :
      (stale.elim v v.drop).active? n = v.active? n := by
    cases stale <;> rfl
  cases hstep with
  | locks | follows => exact active?_takeConnection ..
  | queues => rfl
  | dials _ step => exact Retry.active?_step step
  | connected _ step =>
    exact (active?_beginWriting ..).trans ((hstale _ _).trans (Retry.active?_step step))
  | failed _ step =>
    exact (active?_finishSending ..).trans ((hstale _ _).trans (Retry.active?_step step))
  | writes _ write => exact active?_of_writeStep write

end World

/-! ### Taking a connection in -/

namespace Handling

theorem active?_step {h : Handling} {q : Progress × World} (hs : h.step w = some q) :
    q.2.active? n = w.active? n := by
  obtain ⟨x, -, hmove⟩ := move_of_step hs
  cases hmove with
  | detached => rfl
  | undecipherable => exact active?_count _
  | going _ _ _ aside | abort aside => exact aside.active?
  | delivered aside => exact (active?_updateApp _).trans aside.active?

end Handling

namespace Accepting

theorem active?_step {a : Accepting} {q : Progress × World} (hs : a.step w = some q) :
    q.2.active? n = w.active? n := by
  have hcounted {c : Counted} {v : World} (aside : (w.count a.node c).Aside v) :
      v.active? n = w.active? n := aside.active?.trans (World.active?_count _)
  obtain ⟨node, -, hmove⟩ := move_of_step hs
  cases hmove with
  | begun _ aside => exact hcounted aside
  | more _ _ _ aside => exact aside.active?
  | aborted _ _ aside | timedOut _ _ aside => exact aside.active?
  | overfull _ _ _ _ aside | misframed _ _ _ _ aside => exact hcounted aside
  | framed _ _ _ aside taken =>
    cases taken with
    | unnamed | own | routed => exact hcounted aside
    | foreign => exact (World.active?_welcome ..).trans (hcounted aside)
    | unroutable => exact (World.active?_count _).trans (hcounted aside)
  | @handled d q _ hq =>
    have hsame := Handling.active?_step (n := n) hq
    obtain ⟨p, v⟩ := q
    cases p <;> exact hsame

end Accepting

/-! ### Announcing -/

namespace Announcing

theorem active?_afterFailure (a : Announcing) (c : AnnounceConfig) :
    (a.afterFailure c w).2.active? n = w.active? n := by
  unfold afterFailure
  dsimp only
  split <;> exact active?_count _

theorem active?_sendOver (a : Announcing) (node : Node) (stream : LinkEnd) :
    (a.sendOver node stream w).2.active? n = w.active? n := by
  unfold sendOver
  split <;> rfl

theorem active?_step {a : Announcing} {q : Progress × World} (hs : a.step w = some q) :
    q.2.active? n = w.active? n := by
  obtain ⟨node, -, hstep⟩ := step_of_step hs
  have hplaced : (a.placeCall node w).2.active? n = w.active? n :=
    (Aside.refl.call ..).active?.trans (active?_count _)
  cases hstep with
  | barred | unsent | resumes => rfl
  | calls _ _ _ placed =>
    rw [placed] at hplaced
    exact hplaced
  | refused _ _ _ placed =>
    rw [placed] at hplaced
    exact (active?_afterFailure ..).trans hplaced
  | reached _ answer => exact (active?_sendOver ..).trans (Aside.refl.answer answer).active?
  | failed _ answer => exact (active?_afterFailure ..).trans (Aside.refl.answer answer).active?
  | sent => exact active?_count _

end Announcing

/-! ### Every step -/

namespace World

variable {n t r : Nat} {w v u : World} {node : Node}

theorem active?_stepListening {l : Listening} (h : w.IsOn n) (hs : w.stepListening t l = some v) :
    v.active? n = w.active? n := by
  have hstop {node : Node} {b : Bool} {u : World} (notices : w.noticesStop t node = (b, u)) :
      u.active? n = w.active? n := (aside_of_noticesStop notices).active?
  obtain ⟨node, hnode, hstep⟩ := Listening.step_of_stepListening hs
  cases hstep with
  | inactive | stopsIdle | dealt | shutsIdle => rfl
  | radioOff _ off =>
    -- the radio is that of another node
    have hne : l.node ≠ n := by
      rintro rfl
      obtain ⟨node', hnode', hon⟩ := h
      cases hnode.symm.trans hnode'
      cases off.symm.trans hon
    show (w.updateNode l.node _).active? n = w.active? n
    rw [active?, nodes_updateNode, if_neg hne, active?]
  | opens _ _ _ notices | refused _ _ _ notices | takes _ _ notices | fails _ _ notices
  | shuts _ notices | recovers _ _ notices | stops _ notices =>
    have hkept := hstop notices
    exact hkept

theorem active?_activity {a : Activity} (h : w.IsOn n) (hs : a.step t w = some v) :
    v.active? n = w.active? n := by
  cases a with
  | sending d => exact active?_stepSending hs
  | handling d =>
    obtain ⟨_, _, heq, rfl⟩ | ⟨_, _, heq, rfl⟩ := exists_of_stepHandling hs <;>
      exact Handling.active?_step heq
  | accepting a =>
    obtain ⟨_, _, heq, rfl⟩ | ⟨_, _, heq, rfl⟩ := exists_of_stepAccepting hs <;>
      exact Accepting.active?_step heq
  | announcing a =>
    obtain ⟨_, _, heq, rfl⟩ | ⟨_, _, heq, rfl⟩ := exists_of_stepAnnouncing hs <;>
      exact Announcing.active?_step heq
  | listening l => exact active?_stepListening h hs
  | connecting d =>
    obtain ⟨_, _, heq, rfl⟩ | ⟨_, _, heq, rfl⟩ := exists_of_stepConnecting hs <;>
      exact Retry.active?_step heq
  | inspecting i =>
    obtain ⟨x, -, hstep⟩ := Inspecting.step_of_stepInspecting hs
    cases hstep <;> rfl
  | serving d => cases Serving.step_of_stepServing hs <;> rfl
  | capturing c => cases Capturing.step_of_stepCapturing hs <;> rfl

/-- Where the radio of node `n` is on, every step leaves `active? n` as it was. -/
theorem active?_of_step (h : w.IsOn n) (hs : w.step t = some v) : v.active? n = w.active? n := by
  obtain ⟨task, -, -, -, hstep⟩ := exists_advances hs
  split at hstep
  · rw [hstep]
    unfold abortListening
    split <;> rfl
  · exact active?_activity h hstep

/-! ### A radio that stays on -/

theorem IsOn.foldl {acts : List Air.Act} (h : w.IsOn n)
    (hair : v.air = acts.foldl Air.perform w.air) (hsettings : v.settings? n = w.settings? n)
    (hacts : ∀ x ∈ acts, ∀ a, x ≠ .switchOff a) : v.IsOn n := by
  obtain ⟨node, hnode, hon⟩ := h
  rw [settings?, settings?, hnode] at hsettings
  obtain ⟨node', hnode', hsame⟩ := Option.map_eq_some_iff.1 hsettings
  have haddress : node'.address = node.address := (congrArg (·.address) hsame :)
  refine ⟨node', hnode', ?_⟩
  rw [haddress, hair]
  clear hair
  generalize w.air = air at hon ⊢
  induction acts generalizing air with
  | nil => exact hon
  | cons x acts ih =>
    exact ih (fun y hy => hacts y (List.mem_cons_of_mem _ hy)) _
      (Air.enabled_perform_iff.2 (.inr ⟨hon, hacts x List.mem_cons_self _⟩))

/-! ### Who is wanted stays wanted -/

/-- A task that is cancelled after a step was so before. -/
theorem cancelled_of_step {task : Task} (hs : w.step r = some v) (htask : v.tasks[t]? = some task)
    (h : task.cancelled = true) :
    ∃ former, w.tasks[t]? = some former ∧ former.cancelled = true := by
  obtain ⟨own, hown, -, hadvances, -⟩ := exists_advances hs
  have hr : r < w.tasks.size := (Array.getElem?_eq_some_iff.1 hown).1
  by_cases htr : t = r
  · subst htr
    obtain ⟨b, -, hgoes⟩ | ⟨o, hends⟩ := hadvances.own hown
    · cases htask.symm.trans hgoes
      exact ⟨own, hown, h⟩
    · cases htask.symm.trans hends
      exact ⟨own, hown, h⟩
  · by_cases ht : t < w.tasks.size
    · exact ⟨task, (hadvances.old ht htr).symm.trans htask, h⟩
    · obtain ⟨b, -, rfl⟩ := hadvances.new hr (Nat.le_of_not_lt ht) htask
      cases h

namespace Wants

/-- After every step node `n` `Wants` task `t` as before. -/
theorem step (h : w.Wants n t) (hs : w.step r = some v) : v.Wants n t := by
  obtain ⟨_, -, -, hadvances, -⟩ := exists_advances hs
  obtain ⟨acts, hair, hmay⟩ := hadvances.exists_acts
  refine ⟨(active?_of_step h.on hs).trans h.active,
    h.on.foldl hair (hadvances.sameNodes.settings n) ?_,
    (hadvances.sameNodes.listening n).trans h.listening, fun task htask => ?_⟩
  · rintro _ hx a rfl
    exact hmay _ hx
  · refine Bool.eq_false_iff.2 fun hcancelled => ?_
    obtain ⟨former, hformer, hbefore⟩ := cancelled_of_step hs htask hcancelled
    cases hbefore.symm.trans (h.kept former hformer)

theorem removal (h : w.Wants n t) (m : Nat) (a : Address) : (w.removeBonded m a).Wants n t := by
  have hcourse := w.course_removeBonded m a
  obtain ⟨acts, hair, hmay⟩ := hcourse.exists_acts
  refine ⟨(active?_removeBonded a).trans h.active,
    h.on.foldl hair (hcourse.sameNodes.settings n) ?_,
    (hcourse.sameNodes.listening n).trans h.listening, fun task htask => ?_⟩
  · rintro _ hx b rfl
    exact hmay _ hx
  · rw [tasks_removeBonded] at htask
    exact h.kept task htask

end Wants

/-- If no event of others makes node `n` want task `t` no more, it `Wants` the task after every
event. -/
theorem History.wants {ok : World → World → Prop} {events : List Event} (h : w.History ok events v)
    (hw : w.Wants n t)
    (hother : ∀ e ∈ events, e.cause = .other → e.before.Wants n t → e.after.Wants n t) :
    (∀ e ∈ events, e.before.Wants n t ∧ e.after.Wants n t) ∧ v.Wants n t := by
  induction h with
  | start => exact ⟨nofun, hw⟩
  | @next events e _ happens ih =>
    obtain ⟨hall, hbefore⟩ := ih fun x hx => hother x (List.mem_append_left _ hx)
    have hafter : e.after.Wants n t := by
      have hlast := hother e (List.mem_append_right _ List.mem_cons_self)
      obtain ⟨cause, before, after⟩ := e
      cases cause with
      | task r => exact hbefore.step happens
      | removal m a =>
        obtain rfl : after = before.removeBonded m a := happens
        exact hbefore.removal m a
      | other => exact hlast rfl hbefore
    refine ⟨fun x hx => ?_, hafter⟩
    rcases List.mem_append.1 hx with hx | hx
    · exact hall x hx
    · exact List.mem_singleton.1 hx ▸ ⟨hbefore, hafter⟩

end World
end RadioLink

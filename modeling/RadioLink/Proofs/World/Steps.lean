import RadioLink.Proofs.World.Cases
import RadioLink.Proofs.World.Taking

/-!
# Steps are apart

What each activity does when it goes on, read as a chain of changes: by `step_apart`, every
`w.step t = some u` gives `Apart t site w u`, where `site` is the node of the `Accepting` that task
`t` goes on with, if it is one.
-/

namespace RadioLink

open World (Apart Aside)

variable {t : Nat} {site : Option Nat} {u v w : World}

/-! ### Connecting and sending -/

theorem Retry.apart_afterFailure (r : Retry) (c : LinkConfig) (h : Apart t site u v) :
    Apart t site u (r.afterFailure c v).2 := by
  have hcount := h.count (n := r.node) (c := .connectFailure) (.inr fun _ => rfl)
  unfold Retry.afterFailure
  dsimp only
  split
  · exact hcount.withTimer
  · exact hcount

theorem Retry.apart_step {r : Retry} {q : Retry.Progress × World} (h : Apart t site u v)
    (hs : r.step v = some q) : Apart t site u q.2 := by
  obtain ⟨node, -, hstep⟩ := Retry.step_of_step hs
  have hplaced : Apart t site u (r.placeCall node v).2 :=
    ((h.aside (Aside.refl.endpoint r node.config)).count (.inr fun _ => rfl)).call ..
  cases hstep with
  | spent | resumes => exact h
  | calls _ _ placed =>
    rw [placed] at hplaced
    exact hplaced
  | refused _ _ placed =>
    rw [placed] at hplaced
    exact r.apart_afterFailure node.config hplaced
  | connected _ answer => exact h.answer answer
  | failed _ answer => exact r.apart_afterFailure node.config (h.answer answer)

namespace World

theorem Apart.finishSending (h : Apart t site u v) (s : Sending) (x : Session)
    (size : Option Nat) : Apart t site u (v.finishSending t s x size) := by
  unfold World.finishSending
  cases size with
  | none => exact ((h.unlock _).count (.inr fun _ => rfl)).finish _
  | some size => exact ((h.unlock _).count (.inr fun _ => rfl)).finish _

theorem Apart.beginWriting (h : Apart t site u v) (s : Sending) (x : Session) (node : Node)
    (stream : LinkEnd) : Apart t site u (v.beginWriting t s x node stream) := by
  unfold World.beginWriting
  dsimp only
  split
  · exact ((h.aside (Aside.refl.cancelDiscovery node)).drop stream).finishSending s x none
  · exact (h.aside (Aside.refl.cancelDiscovery node)).withTimer.become fun _ => rfl

theorem Apart.takeConnection (h : Apart t site u v) (s : Sending) (x : Session) (node : Node) :
    Apart t site u (v.takeConnection t s x node) := by
  have hheld := h.updateSession (s := s.session) (f := fun x => { x with held := none })
    fun _ => rfl
  unfold World.takeConnection
  dsimp only
  split
  · exact hheld.beginWriting s x node _
  · exact hheld.become fun _ => rfl

theorem Apart.of_writeStep {s : Sending} {x : Session} {stream : LinkEnd} {rest : Outflow}
    {deadline : Timer} (h : Apart t site u v)
    (hwrite : s.WriteStep t x stream rest deadline v w) : Apart t site u w := by
  have hgo {v : World} (h : Apart t site u v) (rest : Outflow) :
      Apart t site u (v.become t (.sending { s with stage := .writing stream rest deadline })) :=
    h.become fun _ => rfl
  cases hwrite with
  | takes | shuts => exact hgo (h.air _) _
  | goesOn => exact hgo h _
  | breaks => exact ((h.air _).drop stream).finishSending s x none
  | tooSlow | fails | done => exact (h.drop stream).finishSending s x _

theorem Apart.stepSending {s : Sending} (h : Apart t site u v)
    (hs : v.stepSending t s = some w) : Apart t site u w := by
  obtain ⟨x, node, -, -, hstep⟩ := Sending.step_of_stepSending hs
  have hstale {v : World} (stale : Option LinkEnd) (h : Apart t site u v) :
      Apart t site u (stale.elim v v.drop) := by
    cases stale with
    | none => exact h
    | some e => exact h.drop e
  cases hstep with
  | locks =>
    exact (h.updateSession (f := fun x => { x with holder := some t }) fun _ => rfl
      ).takeConnection s x node
  | queues =>
    exact (h.updateSession (f := fun x => { x with waiting := x.waiting ++ [t] })
      fun _ => rfl).become fun _ => rfl
  | follows => exact h.takeConnection s x node
  | dials _ step => exact (Retry.apart_step h step).become fun _ => rfl
  | connected _ step => exact (hstale _ (Retry.apart_step h step)).beginWriting s x node _
  | failed _ step => exact (hstale _ (Retry.apart_step h step)).finishSending s x none
  | writes _ write => exact h.of_writeStep write

theorem Apart.stepInspecting {i : Inspecting} (h : Apart t site u v)
    (hs : v.stepInspecting t i = some w) : Apart t site u w := by
  obtain ⟨x, -, hstep⟩ := Inspecting.step_of_stepInspecting hs
  cases hstep with
  | follows => exact (h.unlock _).finish _
  | looks => exact h.finish _
  | queues =>
    exact (h.updateSession (f := fun x => { x with waiting := x.waiting ++ [t] })
      fun _ => rfl).become fun _ => rfl

theorem Apart.stepConnecting {r : Retry} (h : Apart t site u v)
    (hs : v.stepConnecting t r = some w) : Apart t site u w := by
  obtain ⟨r', v', heq, rfl⟩ | ⟨q, o, heq, rfl⟩ := exists_of_stepConnecting hs
  · exact (Retry.apart_step h heq).become fun _ => rfl
  · exact (Retry.apart_step h heq).finish o

end World

/-! ### Handling and taking connections in -/

namespace Handling

theorem apart_step {d : Handling} {q : Handling.Progress × World} (h : Apart t site u v)
    (hs : d.step v = some q) : Apart t site u q.2 := by
  obtain ⟨x, -, hmove⟩ := move_of_step hs
  cases hmove with
  | detached => exact h
  | undecipherable => exact h.count (.inr fun _ => rfl)
  | going _ _ _ aside | abort aside => exact h.aside aside
  | @delivered m _ aside =>
    exact (h.aside aside).updateApp
      (f := fun app => { app with delivered := app.delivered ++ [m] }) (fun _ => rfl)
      (.inr fun _ => rfl)

end Handling

theorem World.Apart.stepHandling {d : Handling} (h : Apart t site u v)
    (hs : v.stepHandling t d = some w) : Apart t site u w := by
  obtain ⟨d', v', heq, rfl⟩ | ⟨q, o, heq, rfl⟩ := exists_of_stepHandling hs
  · exact (Handling.apart_step h heq).become fun _ => rfl
  · exact (Handling.apart_step h heq).finish o

namespace Accepting

theorem apart_step {a : Accepting} {q : Accepting.Progress × World}
    (h : Apart t (some a.node) u v) (hs : a.step v = some q) : Apart t (some a.node) u q.2 := by
  have hcount (c : Counted) : Apart t (some a.node) u (v.count a.node c) := h.count (.inl rfl)
  obtain ⟨node, -, hmove⟩ := move_of_step hs
  cases hmove with
  | begun _ aside => exact (hcount _).aside aside
  | more _ _ _ aside => exact h.aside aside
  | aborted _ _ aside | timedOut _ _ aside => exact h.aside aside
  | overfull _ _ _ _ aside | misframed _ _ _ _ aside => exact (hcount _).aside aside
  | framed _ _ _ aside taken =>
    have hframed := (hcount _).aside aside
    cases taken with
    | unnamed | own | routed => exact hframed
    | foreign => exact hframed.welcome _ _ _
    | unroutable => exact hframed.count (.inl rfl)
  | @handled d q _ hq =>
    have hhandled := Handling.apart_step h hq
    obtain ⟨p, v'⟩ := q
    cases p <;> exact hhandled

end Accepting

theorem World.Apart.stepAccepting {a : Accepting} (h : Apart t (some a.node) u v)
    (hs : v.stepAccepting t a = some w) : Apart t (some a.node) u w := by
  obtain ⟨a', v', heq, rfl⟩ | ⟨q, o, heq, rfl⟩ := exists_of_stepAccepting hs
  · exact (Accepting.apart_step h heq).become nofun
  · exact (Accepting.apart_step h heq).finish o

/-! ### Announcing and listening -/

namespace Announcing

theorem apart_afterFailure (a : Announcing) (c : AnnounceConfig) (h : Apart t site u v) :
    Apart t site u (a.afterFailure c v).2 := by
  have hcount := h.count (n := a.node) (c := .connectFailure) (.inr fun _ => rfl)
  unfold afterFailure
  dsimp only
  split
  · exact hcount.withTimer
  · exact hcount

theorem apart_sendOver (a : Announcing) (node : Node) (stream : LinkEnd) (h : Apart t site u v)
    (ht : t < u.tasks.size) : Apart t site u (a.sendOver node stream v).2 := by
  unfold sendOver
  split
  · exact h.drop stream
  · exact (h.addSession _).spawn ⟨rfl, rfl, nofun⟩ ht

theorem apart_step {a : Announcing} {q : Announcing.Progress × World} (h : Apart t site u v)
    (ht : t < u.tasks.size) (hs : a.step v = some q) : Apart t site u q.2 := by
  obtain ⟨node, -, hstep⟩ := step_of_step hs
  have hplaced : Apart t site u (a.placeCall node v).2 := (h.count (.inr fun _ => rfl)).call ..
  cases hstep with
  | barred | unsent | resumes => exact h
  | calls _ _ _ placed =>
    rw [placed] at hplaced
    exact hplaced
  | refused _ _ _ placed =>
    rw [placed] at hplaced
    exact a.apart_afterFailure _ hplaced
  | reached _ answer => exact a.apart_sendOver node _ (h.answer answer) ht
  | failed _ answer => exact a.apart_afterFailure _ (h.answer answer)
  | sent => exact h.count (.inr fun _ => rfl)

end Announcing

namespace World

theorem Apart.stepAnnouncing {a : Announcing} (h : Apart t site u v) (ht : t < u.tasks.size)
    (hs : v.stepAnnouncing t a = some w) : Apart t site u w := by
  obtain ⟨a', v', heq, rfl⟩ | ⟨q, o, heq, rfl⟩ := exists_of_stepAnnouncing hs
  · exact (Announcing.apart_step h ht heq).become fun _ => rfl
  · exact (Announcing.apart_step h ht heq).finish o

theorem Apart.pauseListening (h : Apart t site u v) (l : Listening) (node : Node) :
    Apart t site u (v.pauseListening t l node) :=
  h.withTimer.become fun _ => rfl

theorem Apart.handOver (h : Apart t site u v) (ht : t < u.tasks.size) (l : Listening) (id : Nat)
    (stream : LinkEnd) (sender : Address) : Apart t site u (v.handOver t l id stream sender) := by
  unfold World.handOver
  refine ((h.closeListener id).spawn ⟨rfl, rfl, ?_⟩ ht).become fun _ => rfl
  intro a ha
  cases ha
  exact ⟨_, rfl⟩

theorem Apart.stepListening {l : Listening} (h : Apart t site u v) (ht : t < u.tasks.size)
    (hs : v.stepListening t l = some w) : Apart t site u w := by
  have hstop {node : Node} {b : Bool} {v' : World} (notices : v.noticesStop t node = (b, v')) :
      Apart t site u v' := h.aside (aside_of_noticesStop notices)
  obtain ⟨node, -, hstep⟩ := Listening.step_of_stepListening hs
  cases hstep with
  | inactive | stopsIdle => exact h.finish _
  | radioOff =>
    exact (h.updateNode (f := fun node => { node with active := false })
      (fun _ => rfl) (.inr fun _ => rfl)).finish _
  | opens _ _ _ notices => exact ((hstop notices).air _).become fun _ => rfl
  | refused _ _ _ notices => exact ((hstop notices).air _).pauseListening l node
  | takes _ _ notices => exact ((hstop notices).air _).handOver ht l _ _ _
  | fails _ _ notices => exact (((hstop notices).air _).closeListener _).pauseListening l node
  | shuts _ notices => exact ((hstop notices).closeListener _).finish _
  | shutsIdle => exact (h.closeListener _).finish _
  | dealt => exact h.become fun _ => rfl
  | recovers _ _ notices => exact (hstop notices).become fun _ => rfl
  | stops _ notices => exact (hstop notices).finish _

theorem Apart.abortListening (h : Apart t site u v) (a : Activity) :
    Apart t site u (v.abortListening t a) := by
  unfold World.abortListening
  split
  · exact (h.closeListener _).finish _
  · exact h.finish _

/-! ### Peers without a node -/

theorem Apart.stepServing {s : Serving} (h : Apart t site u v)
    (hs : v.stepServing t s = some w) : Apart t site u w := by
  cases Serving.step_of_stepServing hs with
  | connected | takes => exact (h.air _).become fun _ => rfl
  | fails | shuts | breaks => exact (h.air _).finish _

theorem Apart.stepCapturing {c : Capturing} (h : Apart t site u v)
    (hs : v.stepCapturing t c = some w) : Apart t site u w := by
  cases Capturing.step_of_stepCapturing hs with
  | connected | reads => exact (h.air _).become fun _ => rfl
  | fails => exact (h.air _).finish _
  | keeps =>
    refine Apart.become ?_ fun _ => rfl
    exact h.aside ⟨rfl, rfl, rfl, rfl⟩

/-! ### Every step -/

/-- Every step satisfies `Apart`, at the node of `underWay? t` and nowhere else. -/
theorem step_apart (h : w.step t = some u) :
    Apart t ((w.underWay? t).map (·.node)) w u := by
  unfold step at h
  cases htask : w.tasks[t]? with
  | none => simp [htask] at h
  | some task =>
    have ht : t < w.tasks.size := (Array.getElem?_eq_some_iff.1 htask).1
    simp only [htask] at h
    split at h
    · cases h
    · next hlive =>
      split at h
      · obtain rfl := Option.some.inj h
        exact Apart.refl.abortListening _
      · next hkept =>
        have hcall : w.underWay? t = task.activity.call? := by
          simp [underWay?, htask, hlive, hkept]
        rw [hcall]
        cases hactivity : task.activity with
        | accepting a =>
          rw [hactivity] at h
          exact Apart.refl.stepAccepting h
        | _ =>
          rw [hactivity] at h
          first
            | exact Apart.refl.stepSending h
            | exact Apart.refl.stepHandling h
            | exact Apart.refl.stepAnnouncing ht h
            | exact Apart.refl.stepListening ht h
            | exact Apart.refl.stepConnecting h
            | exact Apart.refl.stepInspecting h
            | exact Apart.refl.stepServing h
            | exact Apart.refl.stepCapturing h

end World
end RadioLink

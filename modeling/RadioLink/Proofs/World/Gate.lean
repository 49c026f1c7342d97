import RadioLink.Proofs.World.Tries

/-!
# How announcing goes on

`Announcing.Turn` has one constructor for each way through `Announcing.step`: what the step has
found, what it returns, and what has been counted and done at the radio. In `unbonded` nothing is
done at the radio.
-/

namespace RadioLink

open World (Aside)

namespace Announcing

/-- What one step of `a` can be for `node`. -/
inductive Turn (a : Announcing) (node : Node) (w : World) : Progress × World → Prop where
  /-- The number `a.attempt` is past `announce.attempts`. -/
  | spent (stage : a.stage = .ready) (most : node.config.announce.attempts < a.attempt) :
      Turn a node w (.ended false, w)
  | unbonded (stage : a.stage = .ready) (most : a.attempt ≤ node.config.announce.attempts)
      (unbonded : w.air.isBonded node.address a.target = false) : Turn a node w (.ended false, w)
  | calls {call : Call} {v : World} (stage : a.stage = .ready)
      (most : a.attempt ≤ node.config.announce.attempts)
      (bonded : w.air.isBonded node.address a.target = true)
      (connect : (w.air.connect node.address a.target
        (.service node.config.service.uuid)).1 = .ok call.link)
      (counts : w.CountsUp a.node [.connectAttempt] v)
      (air : v.air = w.air.perform
        (.connect node.address a.target (.service node.config.service.uuid))) :
      Turn a node w (.going { a with stage := .calling call }, v)
  | refused {fault : LinkError} {v : World} (stage : a.stage = .ready)
      (most : a.attempt ≤ node.config.announce.attempts)
      (bonded : w.air.isBonded node.address a.target = true)
      (connect : (w.air.connect node.address a.target
        (.service node.config.service.uuid)).1 = .error fault)
      (counts : w.CountsUp a.node [.connectAttempt] v)
      (air : v.air = w.air.perform
        (.connect node.address a.target (.service node.config.service.uuid))) :
      Turn a node w (a.afterFailure node.config.announce v)
  | reached {call : Call} (stage : a.stage = .calling call)
      (answer : w.air.answer? call.link = some (.ok ⟨call.link, .caller⟩)) :
      Turn a node w (a.sendOver node ⟨call.link, .caller⟩ w)
  | failed {call : Call} {e : LinkError} {v : World} (stage : a.stage = .calling call)
      (answer : w.answer? call = some (.error e, v)) :
      Turn a node w (a.afterFailure node.config.announce v)
  | sent {task : Nat} (stage : a.stage = .sending task)
      (outcome : w.outcome? task = some (.sent true)) :
      Turn a node w (.ended true, w.count a.node .announcementSent)
  | unsent {task : Nat} {o : Outcome} (stage : a.stage = .sending task)
      (outcome : w.outcome? task = some o) (ne : o ≠ .sent true) : Turn a node w (.ended false, w)
  | resumes {timer : Timer} (stage : a.stage = .pausing timer) :
      Turn a node w (.going { a with stage := .ready }, w)

variable {a : Announcing} {node : Node} {w : World} {q : Progress × World}

/-- Whatever `Announcing.step` returns is one of the `Turn`s. -/
theorem turn_of_step (h : a.step w = some q) :
    ∃ node, w.nodes[a.node]? = some node ∧ a.Turn node w q := by
  obtain ⟨node, hnode, hstep⟩ := step_of_step h
  refine ⟨node, hnode, ?_⟩
  have hplaced := World.call_cases (w.count a.node .connectAttempt) node.address a.target
    (.service node.config.service.uuid) node.config.session.connectTimeout
  cases hstep with
  | barred stage barred =>
    -- the gate is shut for want of attempts, or because the radios are bonded no longer
    by_cases hmost : a.attempt ≤ node.config.announce.attempts
    · exact .unbonded stage hmost (by simpa using fun hbonded => barred ⟨hmost, hbonded⟩)
    · exact .spent stage (Nat.lt_of_not_le hmost)
  | calls stage most bonded placed =>
    obtain ⟨fault, v, heq, -⟩ | ⟨link, v, heq, hlink, hv, hair⟩ := hplaced <;>
      cases placed.symm.trans heq
    exact .calls stage most bonded hlink hv hair
  | refused stage most bonded placed =>
    obtain ⟨fault, v, heq, hfault, hv, hair⟩ | ⟨link, v, heq, -⟩ := hplaced <;>
      cases placed.symm.trans heq
    exact .refused stage most bonded hfault hv hair
  | reached stage answer =>
    obtain ⟨hanswer, rfl⟩ | ⟨-, -, hr, -⟩ := World.answer?_eq_some answer
    · obtain rfl := Air.eq_of_answer? hanswer
      exact .reached stage hanswer
    · cases hr
  | failed stage answer => exact .failed stage answer
  | sent stage outcome => exact .sent stage outcome
  | unsent stage outcome ne => exact .unsent stage outcome ne
  | resumes stage => exact .resumes stage

/-- Where `Announcing.step` returns `none`, the deadline of the call or the end of the pause is yet
to come, or the task that sends has no outcome. -/
theorem step_eq_none (hnode : w.nodes[a.node]? = some node) (h : a.step w = none) :
    (∃ call, a.stage = .calling call ∧ w.now < call.deadline.due) ∨
    (∃ timer, a.stage = .pausing timer ∧ w.now < timer.due) ∨
    ∃ task, a.stage = .sending task ∧ w.outcome? task = none := by
  simp only [step, hnode] at h
  split at h
  · split at h
    · split at h <;> cases h
    · cases h
  · next call hstage =>
    unfold World.answer? at h
    cases hanswer : w.air.answer? call.link with
    | some r => cases r <;> simp [hanswer] at h
    | none =>
      by_cases hdue : w.isDue call.deadline = true
      · simp [hanswer, hdue] at h
      · exact .inl ⟨call, hstage, by simpa [World.isDue] using hdue⟩
  · next task hstage =>
    split at h
    · next houtcome => exact .inr (.inr ⟨task, hstage, houtcome⟩)
    · cases h
    · cases h
  · next timer hstage =>
    split at h
    · cases h
    · next hdue => exact .inr (.inl ⟨timer, hstage, by simpa [World.isDue] using hdue⟩)

/-- What `afterFailure` returns: `.pausing` while `a.attempt < announce.attempts`, `.ended false`
from then on; either counts one `connectFailure`. -/
theorem afterFailure_cases (a : Announcing) (c : AnnounceConfig) (v : World) :
    ∃ p u, a.afterFailure c v = (p, u) ∧ v.CountsUp a.node [.connectFailure] u ∧ u.air = v.air ∧
      ((∃ timer, p = .going { a with attempt := a.attempt + 1, stage := .pausing timer } ∧
          a.attempt < c.attempts) ∨
        p = .ended false ∧ c.attempts ≤ a.attempt) := by
  unfold afterFailure
  dsimp only
  split
  · next hlt => exact ⟨_, _, rfl, Aside.refl.withTimer, rfl, .inl ⟨_, rfl, hlt⟩⟩
  · next hlt => exact ⟨_, _, rfl, Aside.refl, rfl, .inr ⟨rfl, Nat.le_of_not_lt hlt⟩⟩

/-- The task of `a` after a step that returns this. -/
def Progress.task (a : Announcing) : Progress → Task
  | .going b => { activity := .announcing b }
  | .ended sent => { activity := .announcing a, outcome := some (.sent sent) }
  | .abort => { activity := .announcing a, outcome := some .aborted }

end Announcing

namespace World

variable {t : Nat} {w u v : World} {a : Announcing}

/-- What `World.step` makes of the `Progress` of an `Announcing`. -/
def concludeAnnouncing (w : World) (t : Nat) : Announcing.Progress → World
  | .going a => w.become t (.announcing a)
  | .ended sent => w.finish t (.sent sent)
  | .abort => w.finish t .aborted

theorem exists_turn_of_step (h : w.stepAnnouncing t a = some u) :
    ∃ node q, w.nodes[a.node]? = some node ∧ a.Turn node w q ∧
      u = q.2.concludeAnnouncing t q.1 := by
  unfold stepAnnouncing at h
  split at h
  · cases h
  all_goals
    next heq =>
    obtain rfl := Option.some.inj h
    obtain ⟨node, hnode, hturn⟩ := Announcing.turn_of_step heq
    exact ⟨node, _, hnode, hturn, rfl⟩

theorem air_concludeAnnouncing (w : World) (t : Nat) (p : Announcing.Progress) :
    (w.concludeAnnouncing t p).air = w.air := by
  cases p <;> rfl

theorem nodes_concludeAnnouncing (w : World) (t : Nat) (p : Announcing.Progress) :
    (w.concludeAnnouncing t p).nodes = w.nodes := by
  cases p <;> rfl

theorem stepAnnouncing_eq_none (h : w.stepAnnouncing t a = none) : a.step w = none := by
  unfold stepAnnouncing at h
  split at h
  · assumption
  all_goals cases h

theorem step_announcing (htask : w.tasks[t]? = some { activity := .announcing a }) :
    w.step t = w.stepAnnouncing t a := by
  simp only [step, htask, Option.isSome_none, Bool.false_eq_true, if_false, Activity.step]

theorem tasks_concludeAnnouncing (htask : w.tasks[t]? = some { activity := .announcing a })
    (p : Announcing.Progress) : (w.concludeAnnouncing t p).tasks[t]? = some (p.task a) := by
  cases p with
  | going b => exact tasks_become htask
  | ended sent | abort => exact tasks_finish htask

theorem size_concludeAnnouncing (w : World) (t : Nat) (p : Announcing.Progress) :
    (w.concludeAnnouncing t p).tasks.size = w.tasks.size := by
  cases p <;> exact Array.size_modify

end World
end RadioLink

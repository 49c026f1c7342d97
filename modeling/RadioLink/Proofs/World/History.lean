import Mathlib.Order.RelClasses
import RadioLink.World.Lifecycle
import RadioLink.World.Step

/-!
# Histories

`World.History ok w events v` says that the `events`, one after the other, lead from `w` to `v`.
Each is a step of a task, in any order, or a call of `removeBonded`, or something else that the
relation `ok` allows. Time passes in events of the last kind only.
-/

namespace RadioLink

/-- Who brought an `Event` about: a task with its step, a call of `removeBonded`, or anybody else.
-/
inductive Cause where
  | task (t : Nat)
  /-- The call `removeBonded n a`. -/
  | removal (n : Nat) (a : Address)
  | other
  deriving DecidableEq

/-- One thing that happened, with the worlds `before` and `after` it. -/
structure Event where
  cause : Cause
  before : World
  after : World

/-- The event can happen: `after` is what `World.step` or `removeBonded` makes of `before`, or `ok`
relates the two where the `cause` is `.other`. -/
def Event.Happens (ok : World → World → Prop) (e : Event) : Prop :=
  match e.cause with
  | .task t => e.before.step t = some e.after
  | .removal n a => e.after = e.before.removeBonded n a
  | .other => ok e.before e.after

theorem Event.Happens.step {ok : World → World → Prop} {e : Event} {t : Nat} (h : e.Happens ok)
    (hcause : e.cause = .task t) : e.before.step t = some e.after := by
  rw [Event.Happens, hcause] at h
  exact h

/-- The `events`, in order, that led from `w` to another world. -/
inductive World.History (ok : World → World → Prop) (w : World) : List Event → World → Prop where
  | start : History ok w [] w
  | next {events : List Event} {e : Event} (past : History ok w events e.before)
      (happens : e.Happens ok) : History ok w (events ++ [e]) e.after

namespace World

variable {ok : World → World → Prop} {w v u : World} {events past : List Event}

theorem History.happens (h : History ok w events v) {e : Event} (he : e ∈ events) :
    e.Happens ok := by
  induction h with
  | start => cases he
  | next _ happens ih =>
    rcases List.mem_append.1 he with he | he
    · exact ih he
    · rwa [List.mem_singleton.1 he]

/-- An invariant `P` holds at the end of every `History` if it is kept by `step`, by `removeBonded`
and by what `ok` allows. -/
theorem History.keeps {P : World → Prop} (h : History ok w events v) (hw : P w)
    (step : ∀ (t : Nat) (u u' : World), P u → u.step t = some u' → P u')
    (removal : ∀ (n : Nat) (a : Address) (u : World), P u → P (u.removeBonded n a))
    (other : ∀ u u' : World, P u → ok u u' → P u') : P v := by
  induction h with
  | start => exact hw
  | @next events e _ happens ih =>
    obtain ⟨cause, before, after⟩ := e
    cases cause with
    | task t => exact step t before after ih happens
    | removal n a => exact Eq.mpr (congrArg P happens) (removal n a before ih)
    | other => exact other before after ih happens

theorem History.append {later : List Event} (h : History ok w events v)
    (h' : History ok v later u) : History ok w (events ++ later) u := by
  induction h' with
  | start => rwa [List.append_nil]
  | next _ happens ih =>
    rw [← List.append_assoc]
    exact ih.next happens

theorem History.mono {ok' : World → World → Prop} (hok : ∀ u u', ok u u' → ok' u u')
    (h : History ok w events v) : History ok' w events v := by
  induction h with
  | start => exact .start
  | @next events e _ happens ih =>
    refine ih.next ?_
    obtain ⟨cause, before, after⟩ := e
    cases cause with
    | task t => exact happens
    | removal n a => exact happens
    | other => exact hok before after happens

/-- Taking steps alone, task `t` comes to an `outcome?` if there are histories of its steps up to
the length `bound` only, and its `step` is possible after each as long as it has no outcome. -/
theorem History.exists_outcome {t : Nat} (bound : Nat)
    (hbound : ∀ events v, History ok w events v → (∀ e ∈ events, e.cause = .task t) →
      events.length ≤ bound)
    (hstep : ∀ events v, History ok w events v → (∀ e ∈ events, e.cause = .task t) →
      v.outcome? t = none → (v.step t).isSome = true) :
    ∃ events v o, History ok w events v ∧ (∀ e ∈ events, e.cause = .task t) ∧
      v.outcome? t = some o := by
  suffices hall : ∀ (more : Nat) (events : List Event) (v : World), History ok w events v →
      (∀ e ∈ events, e.cause = .task t) → bound < events.length + more →
      ∃ events v o, History ok w events v ∧ (∀ e ∈ events, e.cause = .task t) ∧
        v.outcome? t = some o from
    hall (bound + 1) [] w .start (fun _ h => nomatch h) (by simp)
  intro more
  induction more with
  | zero =>
    intro events v h hown hlt
    have := hbound events v h hown
    omega
  | succ more ih =>
    intro events v h hown hlt
    cases ho : v.outcome? t with
    | some o => exact ⟨events, v, o, h, hown, ho⟩
    | none =>
      obtain ⟨u, hu⟩ := Option.isSome_iff_exists.1 (hstep events v h hown ho)
      have hnext : History ok w (events ++ [⟨.task t, v, u⟩]) u := h.next hu
      refine ih _ u hnext (fun e he => ?_) (by simp; omega)
      rcases List.mem_append.1 he with he | he
      · exact hown e he
      · rw [List.mem_singleton.1 he]

/-! ### Making histories -/

theorem History.thenStep {t : Nat} (h : History ok w events v) (hs : v.step t = some u) :
    History ok w (events ++ [⟨.task t, v, u⟩]) u := h.next (e := ⟨.task t, v, u⟩) hs

theorem History.thenOther (h : History ok w events v) (hu : ok v u) :
    History ok w (events ++ [⟨.other, v, u⟩]) u := h.next (e := ⟨.other, v, u⟩) hu

-- The end of a replay can be asked how a task has ended.
deriving instance DecidableEq for Outcome

/-- The world that a `Cause` makes of `w`, or `none` if it cannot; what `.other` makes of it is
never known. -/
def bring? (w : World) : Cause → Option World
  | .task t => w.step t
  | .removal n a => some (w.removeBonded n a)
  | .other => none

/-- The events that the `causes` bring about one after the other, by `bring?`, and the world after
the last. -/
def replay? (w : World) : List Cause → Option (List Event × World)
  | [] => some ([], w)
  | c :: causes =>
    match w.bring? c with
    | none => none
    | some v => (v.replay? causes).map fun (events, u) => (⟨c, w, v⟩ :: events, u)

theorem History.append_replay {causes : List Cause} (h : History ok w past v)
    (hr : v.replay? causes = some (events, u)) : History ok w (past ++ events) u := by
  induction causes generalizing v past events with
  | nil =>
    cases hr
    rwa [List.append_nil]
  | cons c causes ih =>
    simp only [replay?] at hr
    split at hr
    · cases hr
    · next v' hv' =>
      obtain ⟨⟨rest, u'⟩, hrest, heq⟩ := Option.map_eq_some_iff.1 hr
      cases heq
      have happens : Event.Happens ok ⟨c, v, v'⟩ := by
        cases c with
        | task t => exact hv'
        | removal n a => exact (Option.some.inj hv').symm
        | other => cases hv'
      have := ih (h.next (e := ⟨c, v, v'⟩) happens) hrest
      rwa [List.append_assoc] at this

end World
end RadioLink

import RadioLink.Proofs.Air.Radios
import RadioLink.Proofs.World.History

/-!
# Attempts to connect

`Air.radio a` records every `Air.connect` that is made with the radio at `a`, whatever it returns,
and nothing else is ever recorded or taken back. So `Event.attempts` can be read off these records
before and after an event, and `attempted` off a list of events. `Noted t events P` says that one of
the steps of task `t` was taken where `P` held.
-/

namespace RadioLink

namespace Air

/-- What an act adds to the recorded attempts of the radio at `a`. -/
def Act.attempts (a : Address) : Act → List (Address × Endpoint)
  | .connect caller callee e => if caller = a then [(callee, e)] else []
  | _ => []

/-- Only `.connect` is recorded, at the radio of the caller. -/
theorem attempts_perform (air : Air) (x : Act) (a : Address) :
    ((air.perform x).radio a).attempts = (air.radio a).attempts ++ x.attempts a := by
  rw [radio_perform]
  cases x with
  | connect caller callee e =>
    rw [Act.alter, Act.attempts]
    by_cases h : caller = a
    · rw [if_pos h, if_pos h]
    · rw [if_neg h, if_neg h, List.append_nil]
  | listen owner e | switchOn b | switchOff b | failNext b count | cancelDiscovery b =>
    refine Eq.trans ?_ (List.append_nil _).symm
    rw [Act.alter]
    split <;> rfl
  | close id =>
    refine Eq.trans ?_ (List.append_nil _).symm
    rw [Act.alter]
    split
    · rfl
    · split <;> rfl
  | bond b c | unbond b c =>
    refine Eq.trans ?_ (List.append_nil _).symm
    rw [Act.alter]
    split <;> split <;> rfl
  | ask _ | abandon _ | accept _ | write _ _ | read _ _ | shutdown _ | drop _ | disrupt _ _ =>
    exact (List.append_nil _).symm

theorem attempts_foldl (acts : List Act) (air : Air) (a : Address) :
    ((acts.foldl perform air).radio a).attempts
      = (air.radio a).attempts ++ acts.flatMap (·.attempts a) := by
  induction acts generalizing air with
  | nil => exact (List.append_nil _).symm
  | cons x acts ih =>
    rw [List.foldl_cons, ih, attempts_perform, List.flatMap_cons, List.append_assoc]

end Air

/-! ### What tasks attempt -/

/-- The attempts that are recorded after the event and were not before. -/
def Event.attempts (a : Address) (x : Event) : List (Address × Endpoint) :=
  (x.after.air.radio a).attempts.drop (x.before.air.radio a).attempts.length

theorem Event.attempts_of_acts {x : Event} {acts : List Air.Act}
    (h : x.after.air = acts.foldl Air.perform x.before.air) (a : Address) :
    x.attempts a = acts.flatMap (·.attempts a) := by
  rw [attempts, h, Air.attempts_foldl, List.drop_left]

/-- The attempts with the radio at `a` among those `events` that are steps of task `t`. -/
def attempted (t : Nat) (a : Address) (events : List Event) : List (Address × Endpoint) :=
  (events.filter (·.cause = .task t)).flatMap (·.attempts a)

theorem attempted_concat (t : Nat) (a : Address) (events : List Event) (x : Event) :
    attempted t a (events ++ [x])
      = attempted t a events ++ if x.cause = .task t then x.attempts a else [] := by
  unfold attempted
  rw [List.filter_append, List.flatMap_append]
  congr 1
  by_cases h : x.cause = .task t <;> simp [h]

theorem attempted_step {t : Nat} {events : List Event} {w w' : World} {acts : List Air.Act}
    (hair : w'.air = acts.foldl Air.perform w.air) (a : Address) :
    attempted t a (events ++ [⟨.task t, w, w'⟩])
      = attempted t a events ++ acts.flatMap (·.attempts a) := by
  rw [attempted_concat, if_pos rfl, Event.attempts_of_acts hair]

theorem attempted_of_quiet {t : Nat} {events : List Event} {w w' : World} {acts : List Air.Act}
    (h : w'.air = acts.foldl Air.perform w.air) (hacts : ∀ a, acts.flatMap (·.attempts a) = [])
    (a : Address) : attempted t a (events ++ [⟨.task t, w, w'⟩]) = attempted t a events := by
  rw [attempted_step h, hacts, List.append_nil]

theorem attempted_of_other {t : Nat} {x : Event} (events : List Event) (h : x.cause ≠ .task t)
    (a : Address) : attempted t a (events ++ [x]) = attempted t a events := by
  rw [attempted_concat, if_neg h, List.append_nil]

/-- One of the `events` was a step of task `t`, and `P` held of the events and the world before it.
-/
def Noted (t : Nat) (events : List Event) (P : List Event → World → Prop) : Prop :=
  ∃ past x later, events = past ++ x :: later ∧ x.cause = .task t ∧ P past x.before

namespace Noted

variable {t : Nat} {events : List Event} {P : List Event → World → Prop}

theorem concat (h : Noted t events P) (x : Event) : Noted t (events ++ [x]) P := by
  obtain ⟨past, y, later, rfl, hrest⟩ := h
  exact ⟨past, y, later ++ [x], by simp, hrest⟩

theorem imp {Q : List Event → World → Prop} (h : Noted t events P)
    (hPQ : ∀ past v, P past v → Q past v) : Noted t events Q := by
  obtain ⟨past, x, later, hevents, hcause, hP⟩ := h
  exact ⟨past, x, later, hevents, hcause, hPQ _ _ hP⟩

theorem last {x : Event} (hcause : x.cause = .task t) (h : P events x.before) :
    Noted t (events ++ [x]) P := ⟨events, x, [], rfl, hcause, h⟩

end Noted
end RadioLink

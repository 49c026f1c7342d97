import RadioLink.World.Announcing
import RadioLink.World.Listening
import RadioLink.World.Peers

/-!
# Steps

`World.step` is one step of one task: whatever the task can do before another one might come in
between. A task that has ended takes no step, and one that waits takes none until it may go on.
-/

namespace RadioLink

/-- One step of an activity, unless it has to wait. -/
def Activity.step (a : Activity) (t : Nat) (w : World) : Option World :=
  match a with
  | .sending s => w.stepSending t s
  | .handling h => w.stepHandling t h
  | .accepting a => w.stepAccepting t a
  | .announcing a => w.stepAnnouncing t a
  | .listening l => w.stepListening t l
  | .connecting r => w.stepConnecting t r
  | .inspecting i => w.stepInspecting t i
  | .serving s => w.stepServing t s
  | .capturing c => w.stepCapturing t c

/-- The timer at which an activity stops waiting, if it waits for one. -/
def Activity.timer? : Activity → Option Timer
  | .sending ⟨_, _, _, .connecting ⟨_, _, _, .calling call⟩ _⟩
  | .connecting ⟨_, _, _, .calling call⟩
  | .handling ⟨_, _, .calling call⟩
  | .accepting ⟨_, _, .handling ⟨_, _, .calling call⟩⟩
  | .announcing ⟨_, _, _, .calling call⟩ => some call.deadline
  | .sending ⟨_, _, _, .connecting ⟨_, _, _, .pausing timer⟩ _⟩
  | .connecting ⟨_, _, _, .pausing timer⟩
  | .announcing ⟨_, _, _, .pausing timer⟩
  | .listening ⟨_, .pausing timer⟩
  | .sending ⟨_, _, _, .writing _ _ timer⟩
  | .accepting ⟨_, _, .reading _ _ timer⟩ => some timer
  | .handling ⟨_, _, .fetching fetch⟩
  | .accepting ⟨_, _, .handling ⟨_, _, .fetching fetch⟩⟩ => some fetch.deadline
  | _ => none

namespace World

/-- One step of the task `t`, if it can take one. -/
def step (w : World) (t : Nat) : Option World :=
  match w.tasks[t]? with
  | none => none
  | some task =>
    if task.outcome.isSome then none
    else if task.cancelled then some (w.abortListening t task.activity)
    else task.activity.step t w

/-- Whether the task `t` can take a step. -/
def canStep (w : World) (t : Nat) : Bool := (w.step t).isSome

/-- The timers of the tasks that have not ended, each with its task. -/
def pendingTimers (w : World) : List (Timer × Nat) :=
  w.tasks.toList.zipIdx.filterMap fun (task, t) =>
    if task.outcome.isSome then none else task.activity.timer?.map (·, t)

end World
end RadioLink

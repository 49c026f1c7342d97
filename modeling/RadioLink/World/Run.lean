import RadioLink.World.Step

/-!
# Running

The tasks that can go on wait in line (`runLine`). The first one goes on until it has to wait; tasks
that can go on because of it join the line behind the others. When no task can go on, time passes
until the next timer goes off (`passTo`).
-/

namespace RadioLink.World

/-- The tasks that can go on and are not in `line` yet. -/
def newcomers (w : World) (line : List Nat) : List Nat :=
  (List.range w.tasks.size).filter fun t => !line.contains t && w.canStep t

/-- Lets tasks go on until none can, in at most `fuel` steps. -/
def runLine (fuel : Nat) (w : World) (line : List Nat) : World :=
  match fuel with
  | 0 => w
  | fuel + 1 =>
    match line with
    | [] =>
      match w.newcomers [] with
      | [] => w
      | line => runLine fuel w line
    | t :: rest =>
      match w.step t with
      | none => runLine fuel w rest
      | some w => runLine fuel w (t :: rest ++ w.newcomers (t :: rest))

/-- A bound on the number of steps between two moments. -/
def patience : Nat := 1000000

/-- Lets tasks go on until none can. -/
def settle (w : World) : World := w.runLine patience []

/-- When the next timer goes off. -/
def nextDue? (w : World) : Option Nat := (w.pendingTimers.map (·.1.due)).min?

/-- The tasks whose timers have gone off, in the order of the timers. -/
def awakened (w : World) : List Nat :=
  ((w.pendingTimers.filter (w.isDue ·.1)).mergeSort fun a b => a.1.serial ≤ b.1.serial).map (·.2)

/-- Lets time pass up to `moment`, at which timers go off. -/
def passTo (w : World) (moment : Nat) : World :=
  let w := { w with now := moment }
  w.runLine patience w.awakened

/-- Lets time pass up to `moment`, stopping at each timer on the way. -/
def advanceTo (fuel : Nat) (w : World) (moment : Nat) : World :=
  match fuel with
  | 0 => w
  | fuel + 1 =>
    match w.nextDue? with
    | none => { w with now := moment }
    | some due =>
      if due ≤ moment then advanceTo fuel (w.passTo due) moment
      else { w with now := moment }

/-- Lets time pass for `duration`. -/
def advance (w : World) (duration : Nat) : World :=
  advanceTo patience w.settle (w.now + duration)

/-- Lets tasks go on and time pass until the world is `done`, or nothing happens any more. -/
def runUntil (fuel : Nat) (done : World → Bool) (w : World) : World :=
  match fuel with
  | 0 => w
  | fuel + 1 =>
    if done w then w
    else
      match w.nextDue? with
      | none => w
      | some due => runUntil fuel done (w.passTo due)

/-- Lets tasks go on and time pass until the task `t` has ended. -/
def await (w : World) (t : Nat) : World :=
  w.settle.runUntil patience fun w => (w.outcome? t).isSome

/-- Starts a task and lets it end. -/
def complete (w : World) (a : Activity) : Option Outcome × World :=
  let t := w.tasks.size
  let w := (w.spawn a).await t
  (w.outcome? t, w)

end RadioLink.World

import RadioLink.Air.Connection
import RadioLink.Air.Radio
import RadioLink.Air.Stream
import RadioLink.Crypto.Entropy
import RadioLink.Crypto.Envelope
import RadioLink.Node.Basic
import RadioLink.World.Activity

/-!
# The world

Everything there is at one moment: the air, a clock, the nodes with their sessions, and the tasks
that are under way. A `Task` is what it still has to do; `World.step` in `RadioLink.World.Step` says
how it goes on. Time passes only when no task can go on.
-/

namespace RadioLink

/-- The outbound half of the link to one peer. -/
structure Session where
  node : Nat
  peer : Peer
  /-- Whether the application is gone. -/
  detached : Bool := false
  /-- A connection for the next send. -/
  held : Option LinkEnd := none
  /-- The task that has the connection to itself. -/
  holder : Option Nat := none
  /-- The tasks that wait for it, in order. -/
  waiting : List Nat := []

/-- Everything there is at one moment. -/
structure World where
  entropy : Entropy := .digest
  suite : Suite := .standard
  air : Air := {}
  now : Nat := 0
  /-- The number of timers set so far. -/
  timers : Nat := 0
  /-- The number of draws made so far. -/
  draws : Nat := 0
  nodes : Array Node := #[]
  sessions : Array Session := #[]
  tasks : Array Task := #[]
  /-- What each captor has received, and from where. -/
  sinks : Array (List (Address × Bytes)) := #[]

namespace World

/-- Changes the node `n`. -/
def updateNode (w : World) (n : Nat) (f : Node → Node) : World :=
  { w with nodes := w.nodes.modify n f }

/-- Changes the application of the node `n`. -/
def updateApp (w : World) (n : Nat) (f : Application → Application) : World :=
  w.updateNode n fun node => { node with app := f node.app }

/-- Changes the session `s`. -/
def updateSession (w : World) (s : Nat) (f : Session → Session) : World :=
  { w with sessions := w.sessions.modify s f }

/-- Changes the task `t`. -/
def updateTask (w : World) (t : Nat) (f : Task → Task) : World :=
  { w with tasks := w.tasks.modify t f }

/-- Gives the task `t` something else to do. -/
def become (w : World) (t : Nat) (a : Activity) : World :=
  w.updateTask t fun task => { task with activity := a }

/-- Ends the task `t`. -/
def finish (w : World) (t : Nat) (o : Outcome) : World :=
  w.updateTask t fun task => { task with outcome := some o }

/-- Starts a task. Its number is the number of tasks there were. -/
def spawn (w : World) (a : Activity) : World := { w with tasks := w.tasks.push { activity := a } }

/-- Counts `c` for the node `n`. -/
def count (w : World) (n : Nat) (c : Counted) : World :=
  w.updateNode n fun node => { node with metrics := node.metrics.count c }

/-- How the task `t` has ended, if it has. -/
def outcome? (w : World) (t : Nat) : Option Outcome := w.tasks[t]?.bind (·.outcome)

/-- A timer that goes off after `duration`. -/
def timer (w : World) (duration : Nat) : Timer := ⟨w.now + duration, w.timers⟩

/-- Notes that a timer has been set. -/
def withTimer (w : World) : World := { w with timers := w.timers + 1 }

/-- Whether the timer has gone off. -/
def isDue (w : World) (t : Timer) : Bool := t.due ≤ w.now

/-- Lets go of `e`, an end of a link. -/
def drop (w : World) (e : LinkEnd) : World := { w with air := w.air.drop e }

/-- Stops looking for devices at the radio of `n`. -/
def cancelDiscovery (w : World) (n : Node) : World :=
  { w with air := w.air.cancelDiscovery n.address }

end World
end RadioLink

import RadioLink.World.Accepting

/-!
# Listening

A node takes connections in one after the other. For each it opens a listener, waits for one
connection and closes the listener again; then it waits until that connection has been dealt with,
however that turns out. When listening fails it pauses. It stops when it is no longer to be active,
when its radio is off, and, while it waits for a connection or pauses, when it is told to. If it is
told to just as something else comes about that it waits for, either may be noticed first.
-/

namespace RadioLink.World

/-- Whether the task `t` is still the one that takes connections in for the node. -/
def isListening (t : Nat) (node : Node) : Bool := node.listening = some t

/-- Whether the task `t` notices first that it has been told to stop, when there is something else
for it to notice as well. -/
def noticesStop (w : World) (t : Nat) (node : Node) : Bool × World :=
  if isListening t node then (false, w)
  else
    let (n, w) := w.drawNumber
    (n % 2 = 0, w)

/-- Pauses after listening has failed. -/
def pauseListening (w : World) (t : Nat) (l : Listening) (node : Node) : World :=
  let pause := w.timer node.config.listener.errorBackoff
  w.withTimer.become t (.listening { l with stage := .pausing pause })

/-- Begins to wait for a connection, unless the node is to stop. -/
def beginListening (w : World) (t : Nat) (l : Listening) (node : Node) : World :=
  if ¬ node.active then w.finish t .done
  else if ¬ (w.air.radio node.address).enabled then
    (w.updateNode l.node fun node => { node with active := false }).finish t .done
  else
    match w.noticesStop t node with
    | (true, w) => w.finish t .done
    | (false, w) =>
      match w.air.listen node.address (.service node.config.service.uuid) with
      | (.ok id, air) => { w with air }.become t (.listening { l with stage := .waiting id })
      | (.error _, air) => { w with air }.pauseListening t l node

/-- Closes the listener `id`. -/
def closeListener (w : World) (id : Nat) : World := { w with air := w.air.closeListener id }

/-- Closes the listener `id`, and starts a task that takes in the connection `stream`. -/
def handOver (w : World) (t : Nat) (l : Listening) (id : Nat) (stream : LinkEnd)
    (sender : Address) : World :=
  let w := w.closeListener id
  let task := w.tasks.size
  let w := w.spawn (.accepting ⟨l.node, sender, .ready (.link stream)⟩)
  w.become t (.listening { l with stage := .handling task })

/-- One step of waiting for a connection, unless there is none. -/
def stepWaiting (w : World) (t : Nat) (l : Listening) (node : Node) (id : Nat) : Option World :=
  match w.air.accept id with
  | (.pending, _) =>
    if isListening t node then none else some ((w.closeListener id).finish t .done)
  | (.error _, air) =>
    match w.noticesStop t node with
    | (true, w) => some ((w.closeListener id).finish t .done)
    | (false, w) => some (({ w with air }.closeListener id).pauseListening t l node)
  | (.connected stream, air) =>
    match w.noticesStop t node with
    | (true, w) => some ((w.closeListener id).finish t .done)
    | (false, w) => (air.remote? stream).map ({ w with air }.handOver t l id stream)

/-- One step of taking connections in, unless it has to wait. -/
def stepListening (w : World) (t : Nat) (l : Listening) : Option World :=
  match w.nodes[l.node]? with
  | none => none
  | some node =>
    let again (w : World) : World := w.become t (.listening { l with stage := .ready })
    match l.stage with
    | .ready => some (w.beginListening t l node)
    | .waiting id => w.stepWaiting t l node id
    | .handling task => if (w.outcome? task).isSome then some (again w) else none
    | .pausing timer =>
      if w.isDue timer then
        match w.noticesStop t node with
        | (true, w) => some (w.finish t .done)
        | (false, w) => some (again w)
      else if isListening t node then none
      else some (w.finish t .done)

/-- Ends the task `t`, which has been cancelled. Only one that takes connections in can be. -/
def abortListening (w : World) (t : Nat) : Activity → World
  | .listening ⟨_, .waiting id⟩ => (w.closeListener id).finish t .aborted
  | _ => w.finish t .aborted

end RadioLink.World

import RadioLink.World.Run

/-!
# The life of a node

A node starts by announcing itself to every peer it knows or its radio is bonded with, and takes
connections in until it is stopped. Its sessions outlive that. `start` while it is started replaces
the task that takes connections in; `stop` waits for that task.
-/

namespace RadioLink.World

/-- Adds a node. Its number is the number of nodes there were. -/
def addNode (w : World) (node : Node) : World := { w with nodes := w.nodes.push node }

/-- Marks the task `t` to be aborted. -/
def cancel (w : World) (t : Nat) : World :=
  w.updateTask t fun task => { task with cancelled := true }

/-- Starts the node `n`. The tasks that announce it are told, in the order of the peers. Nothing
happens while its radio is off. -/
def start (w : World) (n : Nat) : List Nat × World :=
  match w.nodes[n]? with
  | none => ([], w)
  | some node =>
    let radio := w.air.radio node.address
    if ¬ radio.enabled then ([], w)
    else
      let bonded := radio.bonded.foldl (fun bs a => Address.insertSorted a bs) node.bonded
      let first := w.tasks.size
      let w := bonded.foldl (fun w target => w.spawn (.announcing { node := n, target })) w
      let announcing := (List.range bonded.length).map (first + ·)
      let task := w.tasks.size
      let w := w.spawn (.listening { node := n })
      let w := w.updateNode n fun node =>
        { node with bonded, active := true, listening := some task }
      (announcing, node.listening.elim w w.cancel)

/-- Tells the node `n` to stop. The task to wait for is told. -/
def beginStop (w : World) (n : Nat) : Option Nat × World :=
  match w.nodes[n]? with
  | none => (none, w)
  | some node =>
    (node.listening, w.updateNode n fun node => { node with active := false, listening := none })

/-- Stops the node `n`, and waits until it takes no more connections in. -/
def stop (w : World) (n : Nat) : World :=
  match w.beginStop n with
  | (none, w) => w.settle
  | (some t, w) => w.await t

/-- Stops the node `n` and starts it again. -/
def restart (w : World) (n : Nat) : List Nat × World := (w.stop n).start n

/-- Adds the peer at `a` to those that the node `n` announces to. -/
def addBonded (w : World) (n : Nat) (a : Address) : World :=
  w.updateNode n fun node => { node with bonded := Address.insertSorted a node.bonded }

/-- Removes the peer at `a` from those that the node `n` announces to, and its session. -/
def removeBonded (w : World) (n : Nat) (a : Address) : World :=
  ((w.updateNode n fun node => { node with bonded := node.bonded.filter (· ≠ a) }).unregister n a).2

end RadioLink.World

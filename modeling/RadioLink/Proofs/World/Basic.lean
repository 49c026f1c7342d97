import RadioLink.World.Lifecycle
import RadioLink.World.Listening

/-!
# What the parts of a world are after a change

A change touches one part of the world and leaves the others as they are.
-/

namespace RadioLink.World

/-! ### The air -/

/-- `nodes`, `sessions`, `tasks` and `now` are the same in `w` and `w'`. The `air` may differ, and
how many `draws` and `timers` there have been. -/
structure Aside (w w' : World) : Prop where
  nodes : w'.nodes = w.nodes
  sessions : w'.sessions = w.sessions
  tasks : w'.tasks = w.tasks
  now : w'.now = w.now

namespace Aside

variable {u v w : World}

theorem refl : w.Aside w := ⟨rfl, rfl, rfl, rfl⟩

theorem trans (h : u.Aside v) (h' : v.Aside w) : u.Aside w :=
  ⟨h'.nodes.trans h.nodes, h'.sessions.trans h.sessions, h'.tasks.trans h.tasks,
    h'.now.trans h.now⟩

theorem air (h : u.Aside v) (air : Air) : u.Aside { v with air } := { h with }

theorem drop (h : u.Aside v) (e : LinkEnd) : u.Aside (v.drop e) := { h with }

theorem cancelDiscovery (h : u.Aside v) (node : Node) : u.Aside (v.cancelDiscovery node) :=
  { h with }

theorem withTimer (h : u.Aside v) : u.Aside v.withTimer := { h with }

theorem closeListener (h : u.Aside v) (id : Nat) : u.Aside (v.closeListener id) := { h with }

theorem count (h : u.Aside v) (n : Nat) (c : Counted) : (u.count n c).Aside (v.count n c) :=
  { h with nodes := by simp only [World.count, World.updateNode, h.nodes] }

theorem call (h : u.Aside v) (caller target : Address) (e : Endpoint) (limit : Nat) :
    u.Aside (v.call caller target e limit).2 := by
  unfold World.call
  split <;> exact { h with }

theorem answer {c : Call} {r : Except LinkError LinkEnd} (h : u.Aside v)
    (hr : v.answer? c = some (r, w)) : u.Aside w := by
  unfold World.answer? at hr
  split at hr
  · cases hr
    exact h
  · split at hr
    · cases hr
      exact { h with }
    · cases hr

theorem endpoint (h : u.Aside v) (r : Retry) (c : LinkConfig) : u.Aside (r.endpoint c v).2 := by
  unfold Retry.endpoint
  split <;> exact { h with }

theorem readInbound (h : u.Aside v) (size : Nat) (source : Inbound) :
    u.Aside (v.readInbound size source).2.2 := by
  cases source <;> exact { h with }

theorem dropInbound (h : u.Aside v) (source : Inbound) : u.Aside (v.dropInbound source) := by
  cases source <;> exact { h with }

end Aside

section Noticing

variable {w v : World} {t : Nat} {node : Node} {b : Bool}

/-- All that `noticesStop` can do to the world is to draw a number. -/
theorem aside_of_noticesStop (h : w.noticesStop t node = (b, v)) : w.Aside v := by
  unfold noticesStop at h
  split at h <;> cases h
  · exact .refl
  · exact ⟨rfl, rfl, rfl, rfl⟩

theorem air_of_noticesStop (h : w.noticesStop t node = (b, v)) : v.air = w.air := by
  unfold noticesStop at h
  split at h <;> cases h <;> rfl

/-- Where `noticesStop` returns true, `node.listening` is not `t`. -/
theorem told_of_noticesStop (h : w.noticesStop t node = (true, v)) : node.listening ≠ some t := by
  intro hlistening
  have hlistens : isListening t node = true := decide_eq_true hlistening
  rw [noticesStop, if_pos hlistens] at h
  cases h

end Noticing

variable (w : World) (n m s t : Nat) (e : LinkEnd)

/-! ### Nodes -/

@[simp] theorem nodes_updateNode (f : Node → Node) :
    (w.updateNode n f).nodes[m]? = if n = m then w.nodes[m]?.map f else w.nodes[m]? := by
  simp [updateNode, Array.getElem?_modify]

/-- A field `g` that `f` keeps is the same in `w.updateNode n f` for every node `m`, not only for
`n`. -/
theorem map_nodes_updateNode {β : Type} {f : Node → Node} {g : Node → β}
    (hg : ∀ node, g (f node) = g node) :
    (w.updateNode n f).nodes[m]?.map g = w.nodes[m]?.map g := by
  rw [nodes_updateNode]
  split
  · rw [Option.map_map]
    congr 1
    funext node
    exact hg node
  · rfl

@[simp] theorem nodes_updateApp (f : Application → Application) :
    (w.updateApp n f).nodes[m]?
      = if n = m then w.nodes[m]?.map fun node => { node with app := f node.app }
        else w.nodes[m]? :=
  w.nodes_updateNode n m _

@[simp] theorem nodes_count (c : Counted) :
    (w.count n c).nodes[m]?
      = if n = m then w.nodes[m]?.map fun node => { node with metrics := node.metrics.count c }
        else w.nodes[m]? :=
  w.nodes_updateNode n m _

@[simp] theorem nodes_drop : (w.drop e).nodes = w.nodes := rfl

@[simp] theorem nodes_updateSession (f : Session → Session) :
    (w.updateSession s f).nodes = w.nodes := rfl

@[simp] theorem nodes_addSession (x : Session) : (w.addSession x).nodes = w.nodes := rfl

@[simp] theorem nodes_release : (w.release s).nodes = w.nodes := by
  unfold release
  split
  · rfl
  · split <;> rfl

/-! ### Sessions -/

@[simp] theorem sessions_updateNode (f : Node → Node) :
    (w.updateNode n f).sessions = w.sessions := rfl

@[simp] theorem sessions_updateApp (f : Application → Application) :
    (w.updateApp n f).sessions = w.sessions := rfl

@[simp] theorem sessions_count (c : Counted) : (w.count n c).sessions = w.sessions := rfl

@[simp] theorem sessions_drop : (w.drop e).sessions = w.sessions := rfl

@[simp] theorem size_sessions_release : (w.release s).sessions.size = w.sessions.size := by
  unfold release
  split
  · rfl
  · split
    · exact Array.size_modify
    · rfl

@[simp] theorem peerAddress?_updateNode (f : Node → Node) :
    (w.updateNode n f).peerAddress? s = w.peerAddress? s := rfl

@[simp] theorem peerAddress?_updateApp (f : Application → Application) :
    (w.updateApp n f).peerAddress? s = w.peerAddress? s := rfl

@[simp] theorem peerAddress?_count (c : Counted) :
    (w.count n c).peerAddress? s = w.peerAddress? s := rfl

/-! ### Tasks -/

theorem tasks_become {w : World} {t : Nat} {task : Task} {a : Activity}
    (h : w.tasks[t]? = some task) :
    (w.become t a).tasks[t]? = some { task with activity := a } := by
  simp [become, updateTask, Array.getElem?_modify, h]

theorem tasks_finish {w : World} {t : Nat} {task : Task} {o : Outcome}
    (h : w.tasks[t]? = some task) :
    (w.finish t o).tasks[t]? = some { task with outcome := some o } := by
  simp [finish, updateTask, Array.getElem?_modify, h]

@[simp] theorem tasks_updateApp (f : Application → Application) :
    (w.updateApp n f).tasks = w.tasks := rfl

@[simp] theorem tasks_count (c : Counted) : (w.count n c).tasks = w.tasks := rfl

@[simp] theorem tasks_addSession (x : Session) : (w.addSession x).tasks = w.tasks := rfl

@[simp] theorem tasks_release : (w.release s).tasks = w.tasks := by
  unfold release
  split
  · rfl
  · split <;> rfl

@[simp] theorem tasks_evict : (w.evict n s).tasks = w.tasks := by
  unfold evict
  split <;> simp

@[simp] theorem tasks_register (a : Address) (identity : Message) :
    (w.register n a identity s).2.tasks = w.tasks := by
  unfold register
  split
  · rfl
  · dsimp only
    split
    · rfl
    · split
      · rfl
      · exact tasks_evict ..

@[simp] theorem tasks_welcome (identity : Message) (a : Address) (device : Option String) :
    (w.welcome n identity a device).tasks = w.tasks := by
  unfold welcome
  cases device <;> exact tasks_register ..

@[simp] theorem tasks_removeBonded (a : Address) : (w.removeBonded n a).tasks = w.tasks := by
  unfold removeBonded unregister
  split
  · rfl
  · exact tasks_evict ..

end RadioLink.World

import RadioLink.Proofs.World.Advancing

/-!
# What a task that takes connections in does next

`Listening.Move` has one constructor for each way through `stepListening`, with what it does to the
air and to other tasks: it `rests`, `listens` at a new listener, waits there, `shuts` it, or `takes`
a connection and hands it over to a task of its own.
-/

namespace RadioLink.Listening

open World (air_of_noticesStop aside_of_noticesStop)

/-- The address and the endpoint at which a listener for `node` is opened. -/
def place (node : Node) : Address × Endpoint := (node.address, .service node.config.service.uuid)

/-- What one step of the task `t` of `l` can be for `node`. -/
inductive Move (t : Nat) (l : Listening) (node : Node) (w : World) : World → Prop where
  /-- The stage becomes `.ready` or `.pausing`; it was not `.waiting`, and in `.handling r` task `r`
  has an outcome. -/
  | rests {v : World} {stage : Stage} (idle : stage = .ready ∨ ∃ timer, stage = .pausing timer)
      (away : ∀ id, l.stage ≠ .waiting id)
      (dealt : ∀ r, l.stage = .handling r → (w.outcome? r).isSome = true)
      (tasks : v.tasks = w.tasks) (air : v.air = w.air) :
      Move t l node w (v.become t (.listening { l with stage }))
  | ends {v : World} {o : Outcome} (away : ∀ id, l.stage ≠ .waiting id)
      (idle : ∀ r, l.stage ≠ .handling r) (tasks : v.tasks = w.tasks) (air : v.air = w.air) :
      Move t l node w (v.finish t o)
  | opens {v : World} {id : Nat} (stage : l.stage = .ready)
      (enabled : (w.air.radio node.address).enabled = true)
      (listen : w.air.listen (place node).1 (place node).2 = (.ok id, v.air))
      (tasks : v.tasks = w.tasks) :
      Move t l node w (v.become t (.listening { l with stage := .waiting id }))
  /-- The listener is closed, and no connection taken in. -/
  | shuts {v w' : World} {id : Nat} (stage : l.stage = .waiting id) (tasks : v.tasks = w.tasks)
      (air : v.air = w.air.closeListener id ∨ (∃ fault, (w.air.accept id).1 = .error fault) ∧
        v.air = (w.air.accept id).2.closeListener id)
      (after : (∃ timer, w' = v.become t (.listening { l with stage := .pausing timer })) ∨
        ∃ o, w' = v.finish t o) : Move t l node w w'
  /-- The listener is closed, and the connection handed over to a new task. -/
  | takes {v : World} {id : Nat} {stream : LinkEnd} {sender : Address}
      (stage : l.stage = .waiting id) (accept : w.air.accept id = (.connected stream, v.air))
      (remote : v.air.remote? stream = some sender) (tasks : v.tasks = w.tasks) :
      Move t l node w (v.handOver t l id stream sender)

variable {t : Nat} {l : Listening} {node : Node} {w v u : World}

theorem move_of_step (hs : w.stepListening t l = some u) :
    ∃ node, w.nodes[l.node]? = some node ∧ Move t l node w u := by
  obtain ⟨node, hnode, hstep⟩ := step_of_stepListening hs
  refine ⟨node, hnode, ?_⟩
  -- a task that is about to listen or pauses neither waits at a listener nor for another task
  have haway (h : l.stage = .ready ∨ ∃ timer, l.stage = .pausing timer) :
      (∀ id, l.stage ≠ .waiting id) ∧ ∀ r, l.stage ≠ .handling r := by
    obtain h | ⟨timer, h⟩ := h <;> rw [h] <;> exact ⟨nofun, nofun⟩
  cases hstep with
  | inactive stage | radioOff stage =>
    obtain ⟨hwaits, hhandles⟩ := haway (.inl stage)
    exact .ends hwaits hhandles rfl rfl
  | stopsIdle stage =>
    obtain ⟨hwaits, hhandles⟩ := haway (.inr ⟨_, stage⟩)
    exact .ends hwaits hhandles rfl rfl
  | stops stage notices =>
    obtain ⟨hwaits, hhandles⟩ := haway stage
    exact .ends hwaits hhandles (aside_of_noticesStop notices).tasks (air_of_noticesStop notices)
  | @opens v id air stage _ enabled notices listen =>
    rw [air_of_noticesStop notices] at listen
    exact .opens (v := { v with air }) stage enabled listen (aside_of_noticesStop notices).tasks
  | refused _ _ enabled notices listen =>
    -- a radio that is on listens
    have hon : (({ w.air with opened := w.air.opened + 1 } : Air).radio node.address).enabled
        = true := enabled
    rw [air_of_noticesStop notices] at listen
    unfold Air.listen at listen
    dsimp only at listen
    rw [if_pos hon] at listen
    cases listen
  | @takes v _ _ air _ stage accept notices remote =>
    exact .takes (v := { v with air }) stage accept remote (aside_of_noticesStop notices).tasks
  | @fails v id fault air stage accept notices =>
    refine .shuts (v := (World.closeListener { v with air } id).withTimer) stage
      (aside_of_noticesStop notices).tasks (.inr ⟨⟨fault, congrArg Prod.fst accept⟩, ?_⟩)
      (.inl ⟨_, rfl⟩)
    rw [accept]
    rfl
  | @shuts v id stage notices =>
    exact .shuts (v := v.closeListener id) stage (aside_of_noticesStop notices).tasks
      (.inl (congrArg (·.closeListener id) (air_of_noticesStop notices))) (.inr ⟨_, rfl⟩)
  | @shutsIdle id stage =>
    exact .shuts (v := w.closeListener id) stage rfl (.inl rfl) (.inr ⟨_, rfl⟩)
  | dealt stage ended =>
    refine .rests (.inl rfl) (fun id => ?_) (fun r' hr' => ?_) rfl rfl
    · rw [stage]
      exact nofun
    · cases stage.symm.trans hr'
      exact ended
  | recovers stage _ notices =>
    obtain ⟨hwaits, hhandles⟩ := haway (.inr ⟨_, stage⟩)
    exact .rests (.inl rfl) hwaits (fun r hr => absurd hr (hhandles r))
      (aside_of_noticesStop notices).tasks (air_of_noticesStop notices)

/-! ### Handing over -/

theorem size_handOver (v : World) (id : Nat) (stream : LinkEnd) (sender : Address) :
    (v.handOver t l id stream sender).tasks.size = v.tasks.size + 1 := by
  simp [World.handOver, World.become, World.updateTask, World.spawn, World.closeListener]

/-- After `handOver` the stage is `.handling` of the task that was added. -/
theorem tasks_handOver {task : Task} (htask : v.tasks[t]? = some task) (id : Nat)
    (stream : LinkEnd) (sender : Address) :
    (v.handOver t l id stream sender).tasks[t]?
      = some { task with activity := .listening { l with stage := .handling v.tasks.size } } := by
  have hlt := (Array.getElem?_eq_some_iff.1 htask).1
  have hspawned (b : Activity) : ((v.closeListener id).spawn b).tasks[t]? = some task := by
    rw [World.spawn, Array.getElem?_push, if_neg]
    · exact htask
    · exact Nat.ne_of_lt hlt
  rw [World.handOver, World.become, World.updateTask, Array.getElem?_modify, if_pos rfl, hspawned]
  rfl

end RadioLink.Listening

namespace RadioLink.World

/-! ### Starting and stopping -/

/-- The `Listening.place` of node `n`. -/
def place? (w : World) (n : Nat) : Option (Address × Endpoint) := w.nodes[n]?.map Listening.place

theorem place?_eq (w : World) (n : Nat) : w.place? n = (w.settings? n).map Listening.place := by
  rw [place?, settings?, Option.map_map]
  rfl

theorem SameNodes.place {w w' : World} (h : w.SameNodes w') (n : Nat) :
    w'.place? n = w.place? n := by
  rw [place?_eq, h.settings, place?_eq]

theorem place?_updateNode (w : World) (n m : Nat) {f : Node → Node}
    (hf : ∀ node, Listening.place (f node) = Listening.place node) :
    (w.updateNode n f).place? m = w.place? m :=
  map_nodes_updateNode _ _ _ hf

/-- A task that announces node `n` to `target`, at its beginning. -/
def announcingTask (n : Nat) (target : Address) : Task :=
  { activity := .announcing { node := n, target } }

theorem moreTasks_announcing (w : World) (n : Nat) (targets : List Address) :
    MoreTasks (fun b => ∃ d, b = .announcing d) w
      (targets.foldl (fun w target => w.spawn (.announcing { node := n, target })) w) := by
  induction targets generalizing w with
  | nil => exact .of_tasks rfl
  | cons target targets ih => exact (MoreTasks.spawn ⟨_, rfl⟩).trans (ih _)

/-- Starting a task for each of the `targets` adds those tasks, and changes nothing else. -/
theorem announcing_eq (w : World) (n : Nat) (targets : List Address) :
    targets.foldl (fun w target => w.spawn (.announcing { node := n, target })) w
      = { w with tasks := w.tasks ++ (targets.map (announcingTask n)).toArray } := by
  induction targets generalizing w with
  | nil => simp
  | cons target targets ih =>
    rw [List.foldl_cons, ih, List.map_cons, List.toArray_cons, ← Array.append_assoc]
    simp [spawn, announcingTask]

/-- The radio at the address of node `n` is enabled. -/
def IsOn (w : World) (n : Nat) : Prop :=
  ∃ node, w.nodes[n]? = some node ∧ (w.air.radio node.address).enabled = true

/-- The peers that `World.start` announces node `n` to: those its radio is bonded with, or none if
that is not enabled. -/
def offered (w : World) (n : Nat) : List Address :=
  match w.nodes[n]? with
  | none => []
  | some node =>
    if (w.air.radio node.address).enabled then (w.air.radio node.address).bonded else []

variable {n t : Nat} {w w' : World} {node : Node}

theorem offered_of_on (hn : w.nodes[n]? = some node)
    (hon : (w.air.radio node.address).enabled = true) :
    w.offered n = (w.air.radio node.address).bonded := by
  simp only [offered, hn, hon, if_true]

theorem offered_of_off (h : ¬ w.IsOn n) : w.offered n = [] := by
  unfold offered
  split
  · rfl
  · next node hn => exact if_neg fun hon => h ⟨node, hn, hon⟩

theorem start_of_off (h : ¬ w.IsOn n) : w.start n = ([], w) := by
  unfold start
  split
  · rfl
  · next node hn => exact if_pos fun hon => h ⟨node, hn, hon⟩

/-- The tasks after node `n` was started: those there were, one for each of the `peers`, and the one
that listens. -/
def startTasks (w : World) (n : Nat) (peers : List Address) : Array Task :=
  (w.tasks ++ (peers.map (announcingTask n)).toArray).push { activity := .listening { node := n } }

/-- What `World.start` makes of `w` if the radio is enabled; `r` is what it returns. -/
structure StartsUp (n : Nat) (w : World) (peers : List Address) (r : List Nat × World) : Prop where
  told : r.1 = List.range' w.tasks.size peers.length
  nodes : r.2.nodes = (w.updateNode n fun node =>
    { node with
      bonded := peers, active := true, listening := some (w.tasks.size + peers.length) }).nodes
  air : r.2.air = w.air
  sessions : r.2.sessions = w.sessions
  tasks : r.2.tasks = (w.listening? n).elim (w.startTasks n peers) fun t =>
    (w.startTasks n peers).modify t fun task => { task with cancelled := true }

theorem startsUp (hn : w.nodes[n]? = some node)
    (hon : (w.air.radio node.address).enabled = true) :
    StartsUp n w ((w.offered n).foldl (fun bs a => Address.insertSorted a bs) node.bonded)
      (w.start n) := by
  have hlistening : w.listening? n = node.listening := by
    rw [listening?, hn]
    rfl
  rw [offered_of_on hn hon]
  unfold start
  simp only [hn, hon, announcing_eq]
  generalize (w.air.radio node.address).bonded.foldl _ _ = peers
  have hsize : (w.tasks ++ (peers.map (announcingTask n)).toArray).size
      = w.tasks.size + peers.length := by
    simp
  cases hformer : node.listening with
  | none | some t =>
    refine ⟨List.range'_eq_map_range.symm, ?_, rfl, rfl, ?_⟩
    · rw [← hsize]
      rfl
    · rw [hlistening, hformer]
      rfl

theorem sessions_start (w : World) (n : Nat) : (w.start n).2.sessions = w.sessions := by
  by_cases h : w.IsOn n
  · obtain ⟨node, hn, hon⟩ := h
    exact (startsUp hn hon).sessions
  · rw [start_of_off h]

theorem StartsUp.size {peers : List Address} {r : List Nat × World} (h : StartsUp n w peers r) :
    r.2.tasks.size = w.tasks.size + peers.length + 1 := by
  rw [h.tasks]
  cases w.listening? n <;> simp [startTasks, Nat.add_assoc]

/-- The tasks that `StartsUp` tells of announce node `n` to one of the `peers` each. -/
theorem StartsUp.announces {peers : List Address} {r : List Nat × World} (h : StartsUp n w peers r)
    (hold : ∀ t, w.listening? n = some t → t < w.tasks.size) :
    r.1.map (r.2.tasks[·]?) = peers.map fun a => some (announcingTask n a) := by
  have htask (i : Nat) (hi : i < peers.length) :
      r.2.tasks[w.tasks.size + i]? = some (announcingTask n peers[i]) := by
    have hnew : (w.startTasks n peers)[w.tasks.size + i]? = some (announcingTask n peers[i]) := by
      rw [startTasks, Array.getElem?_push, if_neg (by simp; omega), Array.getElem?_append_right
        (Nat.le_add_right ..)]
      simp [hi]
    rw [h.tasks]
    cases hformer : w.listening? n with
    | none => exact hnew
    | some t =>
      -- the task that took connections in so far was there before
      have hlt := hold t hformer
      show ((w.startTasks n peers).modify t _)[w.tasks.size + i]? = _
      rw [Array.getElem?_modify, if_neg (by omega)]
      exact hnew
  rw [h.told]
  apply List.ext_getElem
  · simp
  · intro i hi _
    have hi : i < peers.length := by simpa using hi
    simp [htask i hi]

/-- What `World.start` makes of `w` if it does anything: `v` has the tasks that announce, and `u` is
what it returns. -/
structure Started (n : Nat) (w v u : World) : Prop where
  more : MoreTasks (fun b => ∃ d, b = .announcing d) w v
  air : u.air = w.air
  listening : ∀ m, u.listening? m = if m = n then some v.tasks.size else w.listening? m
  place : ∀ m, u.place? m = w.place? m
  tasks : ∀ r, u.tasks[r]? = if w.listening? n = some r
    then (v.spawn (.listening { node := n })).tasks[r]?.map fun task =>
      { task with cancelled := true }
    else (v.spawn (.listening { node := n })).tasks[r]?

theorem start_cases (w : World) (n : Nat) :
    (w.start n).2 = w ∨ ∃ v, Started n w v (w.start n).2 := by
  by_cases hon : w.IsOn n
  · obtain ⟨node, hn, hon⟩ := hon
    have hstarts := startsUp hn hon
    generalize (w.offered n).foldl _ _ = peers at hstarts
    have hmore := w.moreTasks_announcing n peers
    rw [announcing_eq] at hmore
    refine .inr ⟨_, hmore, hstarts.air, fun m => ?_, fun m => ?_, fun r => ?_⟩
    · rw [listening?, hstarts.nodes, nodes_updateNode]
      by_cases hm : m = n
      · rw [hm, if_pos rfl, if_pos rfl, hn]
        simp
      · rw [if_neg (Ne.symm hm), if_neg hm]
        rfl
    · rw [place?, hstarts.nodes]
      exact place?_updateNode w n m fun _ => rfl
    · rw [hstarts.tasks]
      cases hformer : w.listening? n with
      | none => exact (if_neg (Option.some_ne_none r).symm).symm
      | some t =>
        refine (Array.getElem?_modify ..).trans ?_
        simp only [Option.some.injEq]
        rfl
  · exact .inl (by rw [start_of_off hon])

/-- A task after the start, and before that the former listening task is cancelled. -/
theorem Started.task_cases {n r : Nat} {w v u : World} {task : Task} (h : Started n w v u)
    (htask : (v.spawn (.listening { node := n })).tasks[r]? = some task) :
    w.tasks[r]? = some task ∨ (∃ d, task = { activity := .announcing d }) ∨
      r = v.tasks.size ∧ task = { activity := .listening { node := n } } := by
  rw [World.spawn, Array.getElem?_push] at htask
  split at htask
  · next hr =>
    cases htask
    exact .inr (.inr ⟨hr, rfl⟩)
  · by_cases hr : r < w.tasks.size
    · exact .inl ((h.more.old r hr).symm.trans htask)
    · obtain ⟨b, ⟨d, rfl⟩, rfl⟩ := h.more.new r task (Nat.le_of_not_lt hr) htask
      exact .inr (.inl ⟨d, rfl⟩)

theorem tasks_beginStop (w : World) (n : Nat) : (w.beginStop n).2.tasks = w.tasks := by
  unfold World.beginStop
  split <;> rfl

theorem sessions_beginStop (w : World) (n : Nat) : (w.beginStop n).2.sessions = w.sessions := by
  unfold beginStop
  split <;> rfl

theorem air_beginStop (w : World) (n : Nat) : (w.beginStop n).2.air = w.air := by
  unfold World.beginStop
  split <;> rfl

theorem place?_beginStop (w : World) (n m : Nat) : (w.beginStop n).2.place? m = w.place? m := by
  unfold World.beginStop
  split
  · rfl
  · exact place?_updateNode w n m fun _ => rfl

theorem listening?_beginStop (w : World) (n m : Nat) :
    (w.beginStop n).2.listening? m = if m = n then none else w.listening? m := by
  unfold World.beginStop
  split
  · next hnone =>
    split
    · next heq => rw [listening?, heq, hnone]; rfl
    · rfl
  · next node hnode =>
    rw [listening?, nodes_updateNode, listening?]
    simp only [eq_comm (a := n)]
    split
    · next heq => rw [heq, hnode]; rfl
    · rfl

theorem beginStop_eq (w : World) (n : Nat) : (w.beginStop n).1 = w.listening? n := by
  unfold World.beginStop listening?
  split
  · next heq => rw [heq]; rfl
  · next heq => rw [heq]; rfl

end RadioLink.World

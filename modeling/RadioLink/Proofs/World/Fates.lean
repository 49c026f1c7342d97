import RadioLink.Proofs.Metrics
import RadioLink.Proofs.World.Announcements

/-!
# Fates of connections

Each connection that a node takes in ends in exactly one way. Its `Fate` follows from the bytes of
the connection (`Fate.Fits`), and what the connection leaves behind follows from the fate: what it
returns is `Fate.result`, and what the node has counted, delivered and heard of sessions is
`Fate.gain`. `Status` says how far a task has come with a connection and what has been gained so
far; every step of the task leads from one `Status` to the next.
-/

namespace RadioLink

/-! ### What is gained -/

/-- What a node gains between two moments: counts, messages `delivered`, and session events `heard`.
-/
structure Gain where
  metrics : Metrics := {}
  delivered : List Message := []
  heard : List SessionEvent := []

instance : Add Gain := ⟨fun x y => ⟨x.metrics + y.metrics, x.delivered ++ y.delivered,
  x.heard ++ y.heard⟩⟩

/-- What `node` has gained since it was `before`. -/
def Node.since (node before : Node) : Gain where
  metrics := node.metrics - before.metrics
  delivered := node.app.delivered.drop before.app.delivered.length
  heard := node.app.events.drop before.app.events.length

/-- What node `n` gains from the event `e`. -/
def Event.gain (n : Nat) (e : Event) : Gain :=
  match e.before.nodes[n]?, e.after.nodes[n]? with
  | some before, some after => after.since before
  | _, _ => {}

/-- What node `n` gains from the steps of task `t` among the `events`. -/
def share (n t : Nat) (events : List Event) : Gain :=
  events.foldl (fun gain e => if e.cause = .task t then gain + e.gain n else gain) {}

theorem share_concat (n t : Nat) (events : List Event) (e : Event) :
    share n t (events ++ [e])
      = if e.cause = .task t then share n t events + e.gain n else share n t events := by
  simp [share]

/-- What was counted, as a gain. -/
def Gain.counted (cs : List Counted) : Gain := { metrics := Metrics.total cs }

/-! ### Fates -/

/-- What becomes of the message in a frame. -/
inductive Ending where
  /-- An announcement of the device itself, which is ignored. -/
  | own
  /-- An announcement without a device, which is refused. -/
  | unnamed
  /-- An announcement of another device, which makes a session, maybe in place of a `former` one. -/
  | registered (deviceId : String) (session : Nat) (former : Option (Address × Nat))
  | delivered (m : Message)
  | undecipherable
  | unroutable

/-- What becomes of a connection. -/
inductive Fate where
  | timedOut
  | misframed (e : LinkError)
  | received (f : Frame) (size : Nat) (ending : Ending)

/-- What the taking in of a connection with this fate returns. -/
def Fate.result (sender : Address) : Fate → Except LinkError Unit
  | .timedOut => .error .timeout
  | .misframed e => .error e
  | .received _ _ .unnamed => .error (.malformedFrame .noDeviceId)
  | .received f _ .unroutable =>
    .error (.routing (.noSession f.intoMessage.kind.name sender))
  | .received _ _ _ => .ok ()

/-- What a node gains from a message with this ending, besides the frame. -/
def Ending.gain (sender : Address) : Ending → Gain
  | .own | .unnamed => {}
  | .registered id session former =>
    { metrics := Metrics.total (.sessionAccepted :: former.toList.map fun _ => .sessionLost)
      heard := .accepted id sender session :: former.toList.map fun old => .lost old.1 old.2 }
  | .delivered m => { delivered := [m] }
  | .undecipherable => .counted [.decryptionFailure]
  | .unroutable => .counted [.routingFailure]

/-- What a node gains from a connection with this fate. -/
def Fate.gain (sender : Address) : Fate → Gain
  | .timedOut => .counted [.connectionAccepted]
  | .misframed _ => .counted [.connectionAccepted, .framingError]
  | .received _ size ending =>
    .counted [.connectionAccepted, .frameReceived (UInt64.ofNat size)] + ending.gain sender

/-- Whether the message `m` can end like this on the device `own`. -/
def Ending.Fits (own : String) (m : Message) : Ending → Prop
  | .own => m.kind = .identity ∧ m.deviceId? = some own
  | .unnamed => m.kind = .identity ∧ m.deviceId? = none
  | .registered id _ _ => m.kind = .identity ∧ m.deviceId? = some id ∧ id ≠ own
  | .delivered _ | .unroutable => m.kind ≠ .identity
  | .undecipherable => m.kind = .encrypted

/-- Whether the script `s` can have this fate at a node with these settings: what `Frame.read` makes
of `s` decides it, and a frame that is `received` is `Frame.decode` of all bytes of `s`. -/
def Fate.Fits (settings : Node) (s : Script) : Fate → Prop
  | .timedOut => Frame.read settings.config.service.maxFrameSize s = .silent
  | .misframed e =>
    Frame.read settings.config.service.maxFrameSize s = .error e ∧ e.isFraming = true
  | .received f size ending =>
    Frame.read settings.config.service.maxFrameSize s = .frame f size ∧
      Frame.decode s.content = .ok f ∧ size = s.content.length ∧
      ending.Fits settings.app.deviceId f.intoMessage

/-- An error that is the `result` of a fate is one in framing, `.timeout`, or a `.routing`. -/
theorem Fate.error_of_fits {settings : Node} {s : Script} {sender : Address} {fate : Fate}
    {e : LinkError} (hfits : fate.Fits settings s) (h : fate.result sender = .error e) :
    e.isFraming = true ∨ e = .timeout ∨ ∃ x, e = .routing x := by
  cases fate with
  | timedOut =>
    cases h
    exact .inr (.inl rfl)
  | misframed e' =>
    cases h
    exact .inl hfits.2
  | received f size ending =>
    cases ending with
    | unnamed =>
      cases h
      exact .inl rfl
    | unroutable =>
      cases h
      exact .inr (.inr ⟨_, rfl⟩)
    | own | registered | delivered | undecipherable => cases h

/-! ### Gains -/

theorem Gain.ext {x y : Gain} (hm : x.metrics = y.metrics) (hd : x.delivered = y.delivered)
    (hh : x.heard = y.heard) : x = y := by
  cases x
  cases y
  simp_all

theorem Gain.add_left_cancel {x y z : Gain} (h : x + y = x + z) : y = z :=
  Gain.ext (Metrics.add_left_cancel (congrArg Gain.metrics h))
    (List.append_cancel_left (congrArg Gain.delivered h))
    (List.append_cancel_left (congrArg Gain.heard h))

theorem Gain.add_assoc (x y z : Gain) : x + y + z = x + (y + z) :=
  Gain.ext (Metrics.add_assoc ..) (List.append_assoc ..) (List.append_assoc ..)

theorem Gain.add_empty (x : Gain) : x + {} = x :=
  Gain.ext (Metrics.add_empty _) (List.append_nil _) (List.append_nil _)

theorem Gain.empty_add (x : Gain) : {} + x = x :=
  Gain.ext (Metrics.empty_add _) rfl rfl

theorem Gain.counted_add (cs ds : List Counted) : counted cs + counted ds = counted (cs ++ ds) :=
  Gain.ext (Metrics.total_append cs ds).symm rfl rfl

/-- An ending is known from `result` and `gain`. -/
theorem Ending.eq_of_gain {f : Frame} {size : Nat} {sender : Address} {x y : Ending}
    (hr : (Fate.received f size x).result sender = (Fate.received f size y).result sender)
    (hg : x.gain sender = y.gain sender) : x = y := by
  have hm := congrArg Gain.metrics hg
  have hd := congrArg Gain.delivered hg
  have hh := congrArg Gain.heard hg
  cases x <;> cases y <;>
    simp_all [Fate.result, Ending.gain, Gain.counted, Metrics.total, Metrics.count]
  next former _ _ former' =>
    rcases former with _ | ⟨a, r⟩ <;> rcases former' with _ | ⟨b, r'⟩ <;> simp_all

/-- A fate that `Fits` the same script is known from `result` and `gain`. -/
theorem Fate.eq_of_gain {settings : Node} {s : Script} {sender : Address} {x y : Fate}
    (hx : x.Fits settings s) (hy : y.Fits settings s) (hr : x.result sender = y.result sender)
    (hg : x.gain sender = y.gain sender) : x = y := by
  cases x with
  | timedOut =>
    cases y with
    | timedOut => rfl
    | misframed => cases hx.symm.trans hy.1
    | received => cases hx.symm.trans hy.1
  | misframed e =>
    cases y with
    | timedOut => cases hy.symm.trans hx.1
    | misframed => cases hx.1.symm.trans hy.1; rfl
    | received => cases hx.1.symm.trans hy.1
  | received f size ending =>
    cases y with
    | timedOut => cases hy.symm.trans hx.1
    | misframed => cases hx.1.symm.trans hy.1
    | received =>
      cases hx.1.symm.trans hy.1
      rw [Ending.eq_of_gain hr (Gain.add_left_cancel hg)]

/-! ### The steps of one connection -/

/-- From `before` to `after` a node has counted `cs`, taken the messages `ds` and heard the session
events `hs`. -/
structure Node.Gains (before after : Node) (cs : List Counted) (ds : List Message)
    (hs : List SessionEvent) : Prop where
  metrics : after.metrics = cs.foldl Metrics.count before.metrics
  delivered : after.app.delivered = before.app.delivered ++ ds
  heard : after.app.events = before.app.events ++ hs

theorem Node.Gains.trans {u v w : Node} {cs cs' : List Counted} {ds ds' : List Message}
    {hs hs' : List SessionEvent} (h : u.Gains v cs ds hs) (h' : v.Gains w cs' ds' hs') :
    u.Gains w (cs ++ cs') (ds ++ ds') (hs ++ hs') where
  metrics := by rw [h'.metrics, h.metrics, List.foldl_append]
  delivered := by rw [h'.delivered, h.delivered, List.append_assoc]
  heard := by rw [h'.heard, h.heard, List.append_assoc]

theorem Node.gains_refl (node : Node) : node.Gains node [] [] [] :=
  ⟨rfl, (List.append_nil _).symm, (List.append_nil _).symm⟩

theorem Node.gains_count (node : Node) (c : Counted) :
    node.Gains { node with metrics := node.metrics.count c } [c] [] [] :=
  ⟨rfl, (List.append_nil _).symm, (List.append_nil _).symm⟩

theorem Node.gains_deliver (node : Node) (m : Message) :
    node.Gains { node with app := { node.app with delivered := node.app.delivered ++ [m] } }
      [] [m] [] :=
  ⟨rfl, rfl, (List.append_nil _).symm⟩

theorem Node.gains_note (node : Node) (device : Option String) (a : Address) :
    node.Gains (node.note device a) [] [] [] := by
  cases device with
  | none => exact node.gains_refl
  | some id =>
    unfold Node.note Application.bind
    simp only [Option.elim_some]
    split <;> exact ⟨rfl, (List.append_nil _).symm, (List.append_nil _).symm⟩

/-- What a node `Gains` by `enroll`, and by `part` with the former session, if there is one. -/
theorem Node.gains_enroll (node : Node) (a : Address) (identity : Message) (s : Nat)
    (former : Option (Address × Nat)) :
    node.Gains (former.elim (node.enroll a a identity s)
        fun old => (node.enroll a a identity s).part old.1 old.2)
      (.sessionAccepted :: former.toList.map fun _ => .sessionLost) []
      (.accepted (identity.deviceId?.getD "") a s ::
        former.toList.map fun old => .lost old.1 old.2) := by
  cases former with
  | none => exact ⟨rfl, (List.append_nil _).symm, rfl⟩
  | some old => exact ⟨rfl, (List.append_nil _).symm, List.append_assoc ..⟩

theorem Event.gain_of_gains {n : Nat} {e : Event} {before after : Node} {cs : List Counted}
    {ds : List Message} {hs : List SessionEvent} (hb : e.before.nodes[n]? = some before)
    (ha : e.after.nodes[n]? = some after) (h : before.Gains after cs ds hs) :
    e.gain n = ⟨Metrics.total cs, ds, hs⟩ := by
  simp only [Event.gain, hb, ha, Node.since, h.metrics, h.delivered, h.heard,
    Metrics.foldl_count_sub, List.drop_left]

theorem Event.gain_of_nodes_eq {n : Nat} {e : Event} (h : e.after.nodes[n]? = e.before.nodes[n]?) :
    e.gain n = {} := by
  simp only [Event.gain, h]
  cases e.before.nodes[n]? with
  | none => rfl
  | some node => simp [Node.since, Metrics.sub_self]

/-- The session `s` is in the registry of the node, or is one that its application uses. -/
def Node.Finds (node : Node) (s : Nat) : Prop :=
  s ∈ node.registry.values ∨ s ∈ node.app.current.values

namespace World

/-- What an event gains that ends with `conclude` is what the node `Gains` in it. -/
theorem gain_conclude {w v : World} {n : Nat} {before after : Node} {cs : List Counted}
    {ds : List Message} {hs : List SessionEvent} (cause : Cause) (t : Nat)
    (p : Accepting.Progress) (hb : w.nodes[n]? = some before) (ha : v.nodes[n]? = some after)
    (h : before.Gains after cs ds hs) :
    Event.gain n ⟨cause, w, v.conclude t p⟩ = ⟨Metrics.total cs, ds, hs⟩ :=
  Event.gain_of_gains hb (by rw [nodes_conclude]; exact ha) h

theorem gain_conclude_same {w v : World} {n : Nat} (cause : Cause) (t : Nat)
    (p : Accepting.Progress) (h : v.nodes = w.nodes) :
    Event.gain n ⟨cause, w, v.conclude t p⟩ = {} :=
  Event.gain_of_nodes_eq (by rw [nodes_conclude, h])

/-- All sessions that node `n` `Finds` are its own and not `detached`. -/
def Homely (n : Nat) (w : World) : Prop :=
  ∀ node, w.nodes[n]? = some node → ∀ s, node.Finds s →
    ∃ x, w.lasting? s = some x ∧ x.node = n ∧ x.detached = false

theorem Homely.made {w : World} {n : Nat} {node : Node} (h : w.Homely n)
    (hn : w.nodes[n]? = some node) {a : Address} {s : Nat} (hs : node.registry.get? a = some s) :
    s < w.sessions.size := by
  obtain ⟨x, hx, -⟩ := h node hn s (.inl (Table.mem_values_of_get? hs))
  exact lt_size_of_lasting hx

end World

/-- How far a task has come with the script `s`, and what node `n` has gained from it. -/
inductive Status (n : Nat) (sender : Address) (s : Script) (settings : Node) (w : World) :
    Task → Gain → Prop where
  | ready : Status n sender s settings w
      { activity := .accepting ⟨n, sender, .ready (.script s)⟩ } {}
  | reading {s' : Script} {intake : Intake} {deadline : Timer}
      (outcome : intake.outcome s' = Frame.read settings.config.service.maxFrameSize s) :
      Status n sender s settings w
        { activity := .accepting ⟨n, sender, .reading (.script s') intake deadline⟩ }
        (.counted [.connectionAccepted])
  | handling {d : Handling} {f : Frame} {size : Nat} {x : Session}
      (read : Frame.read settings.config.service.maxFrameSize s = .frame f size)
      (kind : f.intoMessage.kind ≠ .identity) (session : w.lasting? d.session = some x)
      (node : x.node = n) (attached : x.detached = false)
      (message : d.stage = .ready → d.message = f.intoMessage) :
      Status n sender s settings w { activity := .accepting ⟨n, sender, .handling d⟩ }
        (.counted [.connectionAccepted, .frameReceived (UInt64.ofNat size)])
  | ended {task : Task} {gain : Gain} (fate : Fate) (fits : fate.Fits settings s)
      (taking : task.activity.call?.isSome = true)
      (outcome : task.outcome = some (.accepted (fate.result sender)))
      (gained : gain = fate.gain sender) : Status n sender s settings w task gain
  | aborted {task : Task} {gain : Gain} (taking : task.activity.call?.isSome = true)
      (outcome : task.outcome = some .aborted) :
      Status n sender s settings w task gain

namespace Status

open World (tasks_conclude nodes_count gain_conclude gain_conclude_same)

variable {n t : Nat} {sender : Address} {s : Script} {settings : Node} {w w' : World}
  {task : Task} {gain : Gain}

/-- A `Status` stays as long as all sessions are kept. -/
theorem keep (h : Status n sender s settings w task gain)
    (hsessions : ∀ r x, w.lasting? r = some x → w'.lasting? r = some x) :
    Status n sender s settings w' task gain := by
  cases h with
  | ready => exact .ready
  | reading outcome => exact .reading outcome
  | handling read kind session node attached message =>
    exact .handling read kind (hsessions _ _ session) node attached message
  | ended fate fits taking outcome gained => exact .ended fate fits taking outcome gained
  | aborted taking outcome => exact .aborted taking outcome

/-- A task that ends with the `result` of a fate has a `Status`, if its last step gains what is
missing from the fate's `gain`. -/
theorem of_fate {a : Accepting} {node after : Node} {v : World} {r : Except LinkError Unit}
    {cs : List Counted} {ds : List Message} {hs : List SessionEvent} (fate : Fate)
    (hnode : w.nodes[n]? = some node) (htask : w.tasks[t]? = some { activity := .accepting a })
    (htasks : v.tasks = w.tasks) (hafter : v.nodes[n]? = some after)
    (hgains : node.Gains after cs ds hs) (fits : fate.Fits node.settings s)
    (hresult : r = fate.result sender)
    (hgain : gain + ⟨Metrics.total cs, ds, hs⟩ = fate.gain sender) :
    ∃ task', (v.conclude t (.ended r)).tasks[t]? = some task' ∧
      Status n sender s node.settings (v.conclude t (.ended r)) task'
        (gain + Event.gain n ⟨.task t, w, v.conclude t (.ended r)⟩) := by
  subst hresult
  refine ⟨_, tasks_conclude _ htask htasks, .ended fate fits rfl rfl ?_⟩
  rw [gain_conclude _ _ _ hnode hafter hgains, hgain]

/-- The session that `sessionFor?` tells is one of node `n`, and not `detached`. -/
theorem exists_session {a : Accepting} {node : Node} {m : Message} {r : Nat}
    (hnode : w.nodes[n]? = some node) (hhome : w.Homely n) (h : a.sessionFor? node m = some r) :
    ∃ x, w.lasting? r = some x ∧ x.node = n ∧ x.detached = false := by
  refine hhome node hnode r ?_
  unfold Accepting.sessionFor? at h
  split at h
  · next hr =>
    cases h
    exact .inl (Table.mem_values_of_get? hr)
  · obtain ⟨id, -, hid⟩ := Option.bind_eq_some_iff.1 h
    exact .inr (Table.mem_values_of_get? hid)

/-- When `take` gets a frame, its message has an `Ending`, or is handled. -/
theorem of_taken {a : Accepting} {node : Node} {f : Frame} {size : Nat} {v : World}
    {q : Accepting.Progress × World} (hnode : w.nodes[n]? = some node) (ha : a.node = n)
    (hsender : a.sender = sender) (hhome : w.Homely n)
    (htask : w.tasks[t]? = some { activity := .accepting a })
    (hread : Frame.read node.config.service.maxFrameSize s = .frame f size)
    (aside : (w.count n (.frameReceived (UInt64.ofNat size))).Aside v)
    (h : a.Taken node f.intoMessage v q) :
    ∃ task', (q.2.conclude t q.1).tasks[t]? = some task' ∧
      Status n sender s node.settings (q.2.conclude t q.1) task'
        (.counted [.connectionAccepted] + Event.gain n ⟨.task t, w, q.2.conclude t q.1⟩) := by
  subst ha hsender
  obtain ⟨-, -, hdecode, hsize⟩ := Frame.read_eq_frame_iff.1 hread
  have htasks : v.tasks = w.tasks := aside.tasks
  obtain ⟨node', hnode', hgains, hregistry⟩ : ∃ node' : Node, v.nodes[a.node]? = some node' ∧
      node.Gains node' [.frameReceived (UInt64.ofNat size)] [] [] ∧
      node'.registry = node.registry := by
    refine ⟨_, ?_, node.gains_count _, rfl⟩
    rw [aside.nodes, nodes_count, if_pos rfl, hnode]
    rfl
  have hfits {ending : Ending} (h : ending.Fits node.app.deviceId f.intoMessage) :
      (Fate.received f size ending).Fits node.settings s := ⟨hread, hdecode, hsize, h⟩
  -- the frame is one part of what is gained, and what becomes of the message the other
  have hframe (x : Gain) : .counted [.connectionAccepted]
      + (.counted [.frameReceived (UInt64.ofNat size)] + x)
        = .counted [.connectionAccepted, .frameReceived (UInt64.ofNat size)] + x := by
    rw [← Gain.add_assoc, Gain.counted_add]
    rfl
  have hplain := hframe {}
  rw [Gain.add_empty] at hplain
  cases h with
  | unnamed kind id =>
    exact of_fate (.received f size .unnamed) hnode htask htasks hnode' hgains (hfits ⟨kind, id⟩)
      rfl hplain
  | own kind id =>
    exact of_fate (.received f size .own) hnode htask htasks hnode' hgains (hfits ⟨kind, id⟩)
      rfl hplain
  -- The device is noted, the fresh session enrolled, and the former one parted with, each with its
  -- own gain.
  | @foreign id device kind some_id ne =>
    have hmade : ∀ r, node'.registry.get? a.sender = some r → r < v.sessions.size := by
      intro r hr
      rw [aside.sessions]
      exact hhome.made hnode (hregistry ▸ hr)
    obtain ⟨former, hwelcome⟩ := World.nodes_welcome hnode' f.intoMessage hmade device
    have hall := (hgains.trans (node'.gains_note device a.sender)).trans
      ((node'.note device a.sender).gains_enroll a.sender f.intoMessage v.sessions.size former)
    refine of_fate (.received f size (.registered id v.sessions.size former)) hnode htask
      ((World.tasks_welcome ..).trans htasks) hwelcome hall (hfits ⟨kind, some_id, ne⟩) rfl ?_
    rw [some_id, Metrics.total_append]
    exact hframe ⟨_, [], _⟩
  | @routed r kind session =>
    obtain ⟨x, hx, hxnode, hattached⟩ := exists_session hnode hhome session
    have hlasting : v.lasting? r = some x := by
      rw [World.lasting?, aside.sessions]
      exact hx
    have hread : Frame.read node.settings.config.service.maxFrameSize s = .frame f size := hread
    refine ⟨_, tasks_conclude _ htask htasks, ?_⟩
    rw [gain_conclude _ _ _ hnode hnode' hgains, show (⟨_, [], []⟩ : Gain)
      = .counted [.frameReceived (UInt64.ofNat size)] from rfl, hplain, Gain.add_empty]
    exact .handling (d := { session := r, message := f.intoMessage }) hread kind hlasting hxnode
      hattached fun _ => rfl
  | unroutable kind session =>
    have hcounted : (v.count a.node .routingFailure).nodes[a.node]?
        = some { node' with metrics := node'.metrics.count .routingFailure } := by
      rw [nodes_count, if_pos rfl, hnode']
      rfl
    refine of_fate (.received f size .unroutable) hnode htask htasks hcounted
      (hgains.trans (node'.gains_count _)) (hfits kind) rfl ?_
    rw [Metrics.total_append]
    exact hframe (.counted [.routingFailure])

/-- From `reading` every step leads to another `Status`. -/
theorem of_reading {a : Accepting} {node : Node} {s' : Script} {intake : Intake} {deadline : Timer}
    {q : Accepting.Progress × World} (hnode : w.nodes[a.node]? = some node)
    (hsender : a.sender = sender) (hhome : w.Homely a.node)
    (htask : w.tasks[t]? = some { activity := .accepting a })
    (hstage : a.stage = .reading (.script s') intake deadline)
    (houtcome : intake.outcome s' = Frame.read node.config.service.maxFrameSize s)
    (h : a.Move node w q) :
    ∃ task', (q.2.conclude t q.1).tasks[t]? = some task' ∧
      Status a.node sender s node.settings (q.2.conclude t q.1) task'
        (.counted [.connectionAccepted] + Event.gain a.node ⟨.task t, w, q.2.conclude t q.1⟩) := by
  -- `Frame.read` is followed read by read: what one read of the script brings is what `outcome`
  -- looks at next. A frame can turn out bad in the midst of it or at its end.
  have hmisframed {v : World} {e : LinkError} (aside : (w.count a.node .framingError).Aside v)
      (hread : Frame.read node.config.service.maxFrameSize s = .error e)
      (framing : e.isFraming = true) :
      ∃ task', (v.conclude t (.ended (.error e))).tasks[t]? = some task' ∧
        Status a.node sender s node.settings (v.conclude t (.ended (.error e))) task'
          (.counted [.connectionAccepted]
            + Event.gain a.node ⟨.task t, w, v.conclude t (.ended (.error e))⟩) := by
    have hnodes : v.nodes[a.node]?
        = some { node with metrics := node.metrics.count .framingError } := by
      rw [aside.nodes, nodes_count, if_pos rfl, hnode]
      rfl
    exact of_fate (.misframed e) hnode htask aside.tasks hnodes (node.gains_count _)
      ⟨hread, framing⟩ rfl (Gain.counted_add [.connectionAccepted] [.framingError])
  cases h with
  | begun stage => cases hstage.symm.trans stage
  | @more source source' _ intake' _ bytes v stage read add aside =>
    cases hstage.symm.trans stage
    have hfst : (s'.read intake.reserve.room).1 = .data bytes := congrArg Prod.fst read
    have hbytes : s'.read intake.reserve.room = (.data bytes, (s'.read intake.reserve.room).2) :=
      Prod.ext hfst rfl
    obtain rfl : source' = .script (s'.read intake.reserve.room).2 :=
      (congrArg (·.2.1) read).symm
    rw [Intake.outcome_eq, hbytes] at houtcome
    simp only [add] at houtcome
    refine ⟨_, tasks_conclude _ htask aside.tasks, ?_⟩
    rw [gain_conclude_same _ _ _ aside.nodes, Gain.add_empty, hsender]
    exact .reading houtcome
  | aborted stage read aside => exact ⟨_, tasks_conclude _ htask aside.tasks, .aborted rfl rfl⟩
  | @overfull source _ _ bytes e v stage read add framing aside =>
    cases hstage.symm.trans stage
    have hbytes : s'.read intake.reserve.room = (.data bytes, (s'.read intake.reserve.room).2) :=
      Prod.ext read rfl
    rw [Intake.outcome_eq, hbytes] at houtcome
    simp only [add] at houtcome
    exact hmisframed aside houtcome.symm framing
  | timedOut stage read aside =>
    cases hstage.symm.trans stage
    have hpending : s'.read intake.reserve.room = (.pending, (s'.read intake.reserve.room).2) :=
      Prod.ext read rfl
    rw [Intake.outcome_eq, hpending] at houtcome
    exact of_fate .timedOut hnode htask aside.tasks (aside.nodes ▸ hnode) node.gains_refl
      houtcome.symm rfl (Gain.add_empty _)
  | @misframed source _ _ e v stage read finish framing aside =>
    cases hstage.symm.trans stage
    rw [Intake.outcome_of_isEnd read] at houtcome
    simp only [finish] at houtcome
    exact hmisframed aside houtcome.symm framing
  | @framed source _ _ f size v q stage read finish aside taken =>
    cases hstage.symm.trans stage
    rw [Intake.outcome_of_isEnd read] at houtcome
    simp only [finish] at houtcome
    exact of_taken hnode rfl hsender hhome htask houtcome.symm aside taken
  | handled stage => cases hstage.symm.trans stage

/-- From `handling` every step leads to another `Status`. -/
theorem of_handling {a : Accepting} {node : Node} {d : Handling} {f : Frame} {size : Nat}
    {q : Handling.Progress × World} {x : Session} (hnode : w.nodes[a.node]? = some node)
    (hsender : a.sender = sender) (htask : w.tasks[t]? = some { activity := .accepting a })
    (hread : Frame.read node.config.service.maxFrameSize s = .frame f size)
    (kind : f.intoMessage.kind ≠ .identity) (session : w.sessions[d.session]? = some x)
    (hxnode : x.node = a.node) (attached : x.detached = false)
    (message : d.stage = .ready → d.message = f.intoMessage) (h : d.Move x w q) :
    ∃ task', ((a.ofHandling q).2.conclude t (a.ofHandling q).1).tasks[t]? = some task' ∧
      Status a.node sender s node.settings ((a.ofHandling q).2.conclude t (a.ofHandling q).1) task'
        (.counted [.connectionAccepted, .frameReceived (UInt64.ofNat size)]
          + Event.gain a.node ⟨.task t, w, (a.ofHandling q).2.conclude t (a.ofHandling q).1⟩) := by
  subst hsender
  obtain ⟨-, -, hdecode, hsize⟩ := Frame.read_eq_frame_iff.1 hread
  -- what was read stands; only how the message ended is still open
  have hfits {ending : Ending} (h : ending.Fits node.app.deviceId f.intoMessage) :
      (Fate.received f size ending).Fits node.settings s := ⟨hread, hdecode, hsize, h⟩
  cases h with
  | @going d' v same begun _ aside =>
    have hlasting : v.lasting? d'.session = some x.lasting := by
      rw [same, World.lasting?, aside.sessions, session]
      rfl
    refine ⟨_, tasks_conclude _ htask aside.tasks, ?_⟩
    dsimp only [Accepting.ofHandling]
    rw [gain_conclude_same _ _ _ aside.nodes, Gain.add_empty]
    have hread : Frame.read node.settings.config.service.maxFrameSize s = .frame f size := hread
    exact .handling hread kind hlasting hxnode attached fun h => absurd h begun
  | detached h => rw [attached] at h; cases h
  | undecipherable ready _ sealed =>
    have hcounted : (w.count x.node .decryptionFailure).nodes[a.node]?
        = some { node with metrics := node.metrics.count .decryptionFailure } := by
      rw [nodes_count, if_pos hxnode, hnode]
      rfl
    exact of_fate (.received f size .undecipherable) hnode htask rfl hcounted (node.gains_count _)
      (hfits (message ready ▸ sealed)) rfl rfl
  | @delivered m v aside =>
    have htaken : (v.updateApp x.node fun app =>
        { app with delivered := app.delivered ++ [m] }).nodes[a.node]?
        = some { node with app := { node.app with delivered := node.app.delivered ++ [m] } } := by
      rw [World.nodes_updateApp, if_pos hxnode, aside.nodes, hnode]
      rfl
    exact of_fate (.received f size (.delivered m)) hnode htask aside.tasks htaken
      (node.gains_deliver m) (hfits kind) rfl rfl
  | abort aside => exact ⟨_, tasks_conclude _ htask aside.tasks, .aborted rfl rfl⟩

/-- Every step of the task leads from one `Status` to the next, with what it gains added. -/
theorem step (h : Status n sender s settings w task gain) (htask : w.tasks[t]? = some task)
    (hsettings : w.settings? n = some settings) (hhome : w.Homely n)
    (hstep : w.step t = some w') :
    ∃ task', w'.tasks[t]? = some task' ∧
      Status n sender s settings w' task' (gain + Event.gain n ⟨.task t, w, w'⟩) := by
  obtain ⟨node, hnode, rfl⟩ := Option.map_eq_some_iff.1 hsettings
  -- a task with an outcome takes no step
  have hended (o : Outcome) (ho : task.outcome = some o) : False := by
    simp [World.step, htask, ho] at hstep
  cases h with
  | ready =>
    obtain ⟨node', q, hnode', hmove, rfl⟩ := World.exists_move_of_step
      (World.underWay?_eq_some_iff.2 ⟨_, htask, rfl, rfl, rfl⟩) hstep
    cases hnode.symm.trans hnode'
    cases hmove with
    | @begun source deadline v stage aside =>
      cases stage
      have hcounted : v.nodes[n]?
          = some { node with metrics := node.metrics.count .connectionAccepted } := by
        rw [aside.nodes, nodes_count, if_pos rfl, hnode]
        rfl
      refine ⟨_, tasks_conclude _ htask aside.tasks, ?_⟩
      rw [gain_conclude _ _ _ hnode hcounted (node.gains_count _), Gain.empty_add]
      exact .reading (Intake.outcome_start _ _)
    | more stage | aborted stage | overfull stage | timedOut stage | misframed stage | framed stage
    | handled stage => cases stage
  | reading outcome =>
    obtain ⟨node', q, hnode', hmove, rfl⟩ := World.exists_move_of_step
      (World.underWay?_eq_some_iff.2 ⟨_, htask, rfl, rfl, rfl⟩) hstep
    cases hnode.symm.trans hnode'
    exact of_reading hnode rfl hhome htask rfl outcome hmove
  | handling read kind session hxnode attached message =>
    obtain ⟨node', q, hnode', hmove, rfl⟩ := World.exists_move_of_step
      (World.underWay?_eq_some_iff.2 ⟨_, htask, rfl, rfl, rfl⟩) hstep
    cases hnode.symm.trans hnode'
    cases hmove with
    | begun stage | more stage | aborted stage | overfull stage | timedOut stage | misframed stage
    | framed stage => cases stage
    | @handled d q stage hq =>
      cases stage
      obtain ⟨x, hx, hhandling⟩ := Handling.move_of_step hq
      obtain ⟨y, hy, rfl⟩ := Option.map_eq_some_iff.1 session
      cases hx.symm.trans hy
      exact of_handling hnode rfl htask read kind hx hxnode attached message hhandling
  | ended _ _ _ outcome => exact (hended _ outcome).elim
  | aborted _ outcome => exact (hended _ outcome).elim

end Status
end RadioLink

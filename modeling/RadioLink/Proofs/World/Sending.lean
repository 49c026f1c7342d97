import RadioLink.Proofs.Air
import RadioLink.Proofs.Frame.Outflow
import RadioLink.Proofs.World.Fates
import RadioLink.Proofs.World.History

/-!
# What a send writes

`written t events e` is what the steps of task `t` have written at the end `e`, read off
`Air.outgoing` before and after each of them. A send that succeeds has written its whole frame on
one stream and nothing elsewhere, and its node has counted as many bytes. `Posting` says so of every
moment: until it has a stream it has written nothing, and from then on

    Frame.encode s.message p = .ok (before ++ left)

where `before` is what it has written and `left` is `rest.remaining?`.
-/

namespace RadioLink

open World (Apart)

/-! ### What tasks write -/

/-- What an event adds to `Air.outgoing e`. -/
def Event.writes (e : LinkEnd) (event : Event) : Bytes :=
  (event.after.air.outgoing e).drop (event.before.air.outgoing e).length

/-- What the steps of task `t` among the `events` have written at the end `e`. -/
def written (t : Nat) (events : List Event) (e : LinkEnd) : Bytes :=
  (events.filter (·.cause = .task t)).flatMap (·.writes e)

theorem written_concat (t : Nat) (events : List Event) (event : Event) (e : LinkEnd) :
    written t (events ++ [event]) e
      = written t events e ++ if event.cause = .task t then event.writes e else [] := by
  unfold written
  rw [List.filter_append, List.flatMap_append]
  congr 1
  by_cases h : event.cause = .task t <;> simp [h]

namespace World

/-- The counter `bytesSent` of node `k`, or zero without such a node. -/
def bytesSent (w : World) (k : Nat) : UInt64 := (w.nodes[k]?.map (·.metrics.bytesSent)).getD 0

theorem bytesSent_of_outward {w w' : World} {k : Nat} (h : w'.outward? k = w.outward? k) :
    w'.bytesSent k = w.bytesSent k := by
  have := congrArg (fun m : Option Metrics => (m.map (·.bytesSent)).getD 0) h
  simp only [outward?, Option.map_map] at this
  exact this

/-- Nothing is sent from `w` to `w'`: `Air.outgoing` of every end and the `outward` counters of
every node are the same. -/
structure Mute (w w' : World) : Prop where
  outgoing : ∀ e, w'.air.outgoing e = w.air.outgoing e
  outward : ∀ k, w'.outward? k = w.outward? k
  tasks : w'.tasks = w.tasks

namespace Mute

variable {k n s : Nat} {u v w : World}

theorem refl : w.Mute w := ⟨fun _ => rfl, fun _ => rfl, rfl⟩

theorem trans (h : u.Mute v) (h' : v.Mute w) : u.Mute w where
  outgoing e := (h'.outgoing e).trans (h.outgoing e)
  outward k := (h'.outward k).trans (h.outward k)
  tasks := h'.tasks.trans h.tasks

theorem air (h : u.Mute v) {air : Air} (hair : ∀ e, air.outgoing e = v.air.outgoing e) :
    u.Mute { v with air } := h.trans ⟨hair, fun _ => rfl, rfl⟩

theorem drop (h : u.Mute v) (stream : LinkEnd) : u.Mute (v.drop stream) :=
  h.air fun _ => Air.outgoing_drop stream

theorem withTimer (h : u.Mute v) : u.Mute v.withTimer := { h with }

theorem cancelDiscovery (h : u.Mute v) (node : Node) : u.Mute (v.cancelDiscovery node) :=
  h.air fun _ => Air.outgoing_cancelDiscovery node.address

theorem updateSession (h : u.Mute v) (f : Session → Session) :
    u.Mute (v.updateSession s f) := { h with }

theorem count (h : u.Mute v) {c : Counted} (hc : ∀ m : Metrics, (m.count c).outward = m.outward) :
    u.Mute (v.count n c) :=
  h.trans ⟨fun _ => rfl, fun _ => map_nodes_updateNode _ _ _ fun _ => hc _, rfl⟩

theorem call (h : u.Mute v) (caller target : Address) (e : Endpoint) (limit : Nat) :
    u.Mute (v.call caller target e limit).2 := by
  have hconnect (stream : LinkEnd) := v.air.outgoing_connect stream caller target e
  unfold World.call
  split
  · next heq =>
    rw [heq] at hconnect
    exact h.air hconnect
  · next heq =>
    rw [heq] at hconnect
    exact (h.air hconnect).withTimer

theorem answer {c : Call} {r : Except LinkError LinkEnd} (h : u.Mute v)
    (hr : v.answer? c = some (r, w)) : u.Mute w := by
  unfold World.answer? at hr
  split at hr
  · cases hr
    exact h
  · split at hr
    · cases hr
      exact h.air fun _ => Air.outgoing_abandon c.link
    · cases hr

theorem retry {r : Retry} {q : Retry.Progress × World} (h : u.Mute v)
    (hs : r.step v = some q) : u.Mute q.2 := by
  -- after a failure the counters and a timer change, and not what any end has written
  have hfailure {v : World} (h : u.Mute v) (c : LinkConfig) :
      u.Mute (r.afterFailure c v).2 := by
    have hcount := h.count (n := r.node) (c := .connectFailure) fun _ => rfl
    unfold Retry.afterFailure
    dsimp only
    split
    · exact hcount.withTimer
    · exact hcount
  have hendpoint (c : LinkConfig) : u.Mute (r.endpoint c v).2 := by
    unfold Retry.endpoint
    split
    · exact h
    · exact { h with }
  obtain ⟨node, -, hstep⟩ := Retry.step_of_step hs
  have hplaced : u.Mute (r.placeCall node v).2 :=
    ((hendpoint node.config).count fun _ => rfl).call ..
  cases hstep with
  | spent | resumes => exact h
  | calls _ _ placed =>
    rw [placed] at hplaced
    exact hplaced
  | refused _ _ placed =>
    rw [placed] at hplaced
    exact hfailure hplaced node.config
  | connected _ answer => exact h.answer answer
  | failed _ answer => exact hfailure (h.answer answer) node.config

end Mute
end World

/-! ### The moves of a send -/

namespace Sending

/-- What a step of a send returns: the send to go on with, or whether it has succeeded. -/
inductive Progress where
  | going (next : Sending)
  | ended (ok : Bool)

/-- Whether a send has a stream, which is so in `.writing` only. -/
def Stage.isWriting : Stage → Bool
  | .writing .. => true
  | _ => false

/-- What one step of the send `s` through the session `x` can be; only `writes` writes anything, and
only `done` and `fails` count anything that goes out. -/
inductive Move (s : Sending) (x : Session) (w : World) : Progress × World → Prop where
  | waits {stage : Stage} {v : World} (was : s.stage.isWriting = false)
      (is : stage.isWriting = false) (mute : w.Mute v) :
      Move s x w (.going { s with stage }, v)
  | begins {stream : LinkEnd} {rest : Outflow} {deadline : Timer} {v : World}
      (was : s.stage.isWriting = false) (start : Outflow.start s.message s.payload = .ok rest)
      (mute : w.Mute v) :
      Move s x w (.going { s with stage := .writing stream rest deadline }, v)
  | writes {stream : LinkEnd} {rest : Outflow} {deadline : Timer}
      (stage : s.stage = .writing stream rest deadline) :
      Move s x w
        (.going { s with
            stage :=
              .writing stream (rest.take (w.air.write stream rest.pending).1.count) deadline },
          { w with air := (w.air.write stream rest.pending).2 })
  | goesOn {stream : LinkEnd} {rest rest' : Outflow} {deadline : Timer} {v : World}
      (stage : s.stage = .writing stream rest deadline)
      (next : rest.next = .load rest' ∨ rest.next = .flush rest' ∨ rest.next = .shutdown rest')
      (mute : w.Mute v) :
      Move s x w (.going { s with stage := .writing stream rest' deadline }, v)
  | done {stream : LinkEnd} {rest : Outflow} {deadline : Timer} {v : World}
      (stage : s.stage = .writing stream rest deadline) (next : rest.next = .done)
      (mute : w.Mute v) :
      Move s x w (.ended true, v.count x.node (.frameSent (UInt64.ofNat rest.written)))
  | fails {v : World} (outward : ∀ k, v.outward? k = w.outward? k) (tasks : v.tasks = w.tasks) :
      Move s x w (.ended false, v.count x.node .sendFailure)

end Sending

namespace World

/-- What `World.step` makes of the `Progress` of a send. -/
def concludeSending (w : World) (t : Nat) : Sending.Progress → World
  | .going s => w.become t (.sending s)
  | .ended ok => w.finish t (.sent ok)

variable {t : Nat} {s : Sending} {x : Session} {w w' : World}

/-- The world `w'` comes about by a `Move` of the send `s` of task `t`. -/
def Moves (t : Nat) (s : Sending) (x : Session) (w w' : World) : Prop :=
  ∃ q, s.Move x w q ∧ w' = q.2.concludeSending t q.1

theorem moves_fail {v : World} (houtward : ∀ k, v.outward? k = w.outward? k)
    (htasks : v.tasks = w.tasks) : Moves t s x w (v.finishSending t s x none) :=
  ⟨(.ended false, (v.unlock s.session).count x.node .sendFailure), .fails houtward htasks, rfl⟩

theorem moves_beginWriting {v : World} (node : Node) (stream : LinkEnd)
    (hs : s.stage.isWriting = false) (h : w.Mute v) :
    Moves t s x w (v.beginWriting t s x node stream) := by
  unfold beginWriting
  dsimp only
  split
  · exact moves_fail h.outward h.tasks
  · next rest hstart => exact ⟨_, .begins hs hstart (h.cancelDiscovery node).withTimer, rfl⟩

theorem moves_takeConnection {v : World} (node : Node) (hs : s.stage.isWriting = false)
    (h : w.Mute v) : Moves t s x w (v.takeConnection t s x node) := by
  unfold takeConnection
  dsimp only
  split
  · exact moves_beginWriting node _ hs (h.updateSession _)
  · exact ⟨_, .waits hs rfl (h.updateSession _), rfl⟩

theorem moves_of_writeStep {stream : LinkEnd} {rest : Outflow} {deadline : Timer}
    (hs : s.stage = .writing stream rest deadline)
    (h : s.WriteStep t x stream rest deadline w w') : Moves t s x w w' := by
  cases h with
  | takes _ write =>
    have hmove := Sending.Move.writes (x := x) (w := w) hs
    rw [write] at hmove
    exact ⟨_, hmove, rfl⟩
  | goesOn next => exact ⟨_, .goesOn hs (next.imp_right .inl) .refl, rfl⟩
  | shuts next =>
    exact ⟨_, .goesOn hs (.inr (.inr next)) (Mute.refl.air fun _ => Air.outgoing_shutdown stream),
      rfl⟩
  | breaks | tooSlow | fails => exact moves_fail (fun _ => rfl) rfl
  | done next => exact ⟨_, .done hs next ((Mute.refl.drop stream).updateSession _), rfl⟩

/-- Whatever `stepSending` returns comes about by a `Move`. -/
theorem moves_of_stepSending (h : w.stepSending t s = some w') :
    ∃ x node, w.sessions[s.session]? = some x ∧ w.nodes[x.node]? = some node ∧
      Moves t s x w w' := by
  obtain ⟨x, node, hx, hnode, hstep⟩ := Sending.step_of_stepSending h
  refine ⟨x, node, hx, hnode, ?_⟩
  have hwas {stage : Sending.Stage} (hstage : s.stage = stage) (his : stage.isWriting = false) :
      s.stage.isWriting = false := hstage ▸ his
  -- the stale stream is dropped, which writes nothing
  have hstale {v : World} (stale : Option LinkEnd) (h : w.Mute v) :
      w.Mute (stale.elim v v.drop) := by
    cases stale with
    | none => exact h
    | some e => exact h.drop e
  cases hstep with
  | locks stage =>
    exact moves_takeConnection node (hwas stage rfl) (Mute.refl.updateSession _)
  | queues stage => exact ⟨_, .waits (hwas stage rfl) rfl (Mute.refl.updateSession _), rfl⟩
  | follows stage => exact moves_takeConnection node (hwas stage rfl) .refl
  | dials stage step => exact ⟨_, .waits (hwas stage rfl) rfl (Mute.refl.retry step), rfl⟩
  | connected stage step =>
    exact moves_beginWriting node _ (hwas stage rfl) (hstale _ (Mute.refl.retry step))
  | @failed _ stale _ _ stage step =>
    have hmute := hstale stale (Mute.refl.retry step)
    exact moves_fail hmute.outward hmute.tasks
  | writes stage write => exact moves_of_writeStep stage write

end World

/-! ### One send from its beginning to its end -/

theorem Event.bytesSent_gain {k : Nat} {e : Event}
    (h : e.after.settings? k = e.before.settings? k) :
    (e.gain k).metrics.bytesSent = e.after.bytesSent k - e.before.bytesSent k := by
  unfold World.settings? at h
  unfold Event.gain World.bytesSent
  cases hbefore : e.before.nodes[k]? with
  | none =>
    cases hafter : e.after.nodes[k]? with
    | none => rfl
    | some after => simp [hbefore, hafter] at h
  | some before =>
    cases hafter : e.after.nodes[k]? with
    | none => simp [hbefore, hafter] at h
    | some after => rfl

/-- How far a task has come with the send `s` of the payload `p`, what it has written where, and how
many bytes its node has counted for it. -/
inductive Posting (s : Sending) (p : Option Bytes) : Task → (LinkEnd → Bytes) → UInt64 → Prop where
  | waiting {stage : Sending.Stage} {f : LinkEnd → Bytes} (idle : stage.isWriting = false)
      (nothing : ∀ e, f e = []) : Posting s p { activity := .sending { s with stage } } f 0
  | writing {stream : LinkEnd} {rest : Outflow} {deadline : Timer} {f : LinkEnd → Bytes}
      (before left : Bytes) (encode : Frame.encode s.message p = .ok (before ++ left))
      (remaining : rest.remaining? = some left) (size : rest.written = before.length)
      (writes : ∀ e, f e = if e = stream then before else []) :
      Posting s p { activity := .sending { s with stage := .writing stream rest deadline } } f 0
  | sent {task : Task} {frame : Bytes} {f : LinkEnd → Bytes} {size : UInt64} (stream : LinkEnd)
      (encode : Frame.encode s.message p = .ok frame) (outcome : task.outcome = some (.sent true))
      (writes : ∀ e, f e = if e = stream then frame else [])
      (count : size = UInt64.ofNat frame.length) : Posting s p task f size
  | failed {task : Task} {f : LinkEnd → Bytes} {size : UInt64}
      (outcome : task.outcome = some (.sent false)) : Posting s p task f size

namespace Posting

open World (Mute tasks_become tasks_finish)

variable {t : Nat} {s : Sending} {p : Option Bytes} {x : Session} {w w' : World} {task : Task}
  {f : LinkEnd → Bytes} {size : UInt64}

/-- A `Mute` change followed by `concludeSending` writes nothing and counts no `bytesSent`. -/
theorem of_mute {v : World} (h : w.Mute v) (g : Sending.Progress)
    (hsettings : (v.concludeSending t g).settings? x.node = w.settings? x.node) :
    (∀ e, Event.writes e ⟨.task t, w, v.concludeSending t g⟩ = []) ∧
      (Event.gain x.node ⟨.task t, w, v.concludeSending t g⟩).metrics.bytesSent = 0 := by
  have hair : (v.concludeSending t g).air = v.air := by cases g <;> rfl
  have hsent : (v.concludeSending t g).bytesSent x.node = v.bytesSent x.node := by cases g <;> rfl
  constructor
  · intro e
    show ((v.concludeSending t g).air.outgoing e).drop _ = []
    rw [hair, h.outgoing]
    exact List.drop_length
  · rw [Event.bytesSent_gain hsettings]
    show (v.concludeSending t g).bytesSent x.node - w.bytesSent x.node = 0
    rw [hsent, World.bytesSent_of_outward (h.outward x.node), UInt64.sub_self]

/-- From a stage without a stream, every `Move` leads to `waiting`, to `writing` with the whole
frame left, or to `failed`. -/
theorem of_waiting {stage : Sending.Stage} {q : Sending.Progress × World}
    (hpayload : s.payload = p.map .bytes) (idle : stage.isWriting = false)
    (nothing : ∀ e, f e = [])
    (htask : w.tasks[t]? = some { activity := .sending { s with stage } })
    (h : Sending.Move { s with stage } x w q)
    (hsettings : (q.2.concludeSending t q.1).settings? x.node = w.settings? x.node) :
    ∃ task', (q.2.concludeSending t q.1).tasks[t]? = some task' ∧ Posting s p task'
      (fun e => f e ++ Event.writes e ⟨.task t, w, q.2.concludeSending t q.1⟩)
      (Event.gain x.node ⟨.task t, w, q.2.concludeSending t q.1⟩).metrics.bytesSent := by
  cases h with
  | waits _ is mute =>
    obtain ⟨hwrites, hgain⟩ := of_mute mute _ hsettings
    refine ⟨_, tasks_become (mute.tasks ▸ htask), ?_⟩
    dsimp only
    rw [hgain]
    exact .waiting is fun e => by rw [nothing, hwrites, List.append_nil]
  | begins _ start mute =>
    obtain ⟨hwrites, hgain⟩ := of_mute mute _ hsettings
    have hstart : Outflow.start s.message (p.map .bytes) = .ok _ := hpayload ▸ start
    obtain ⟨hsize, frame, hencode, hremaining⟩ := Outflow.remaining?_start hstart
    refine ⟨_, tasks_become (mute.tasks ▸ htask), ?_⟩
    dsimp only
    rw [hgain]
    exact .writing [] frame hencode hremaining hsize fun e => by
      rw [nothing, hwrites]
      split <;> rfl
  | writes hstage | goesOn hstage | done hstage =>
    obtain rfl : stage = _ := hstage
    cases idle
  | fails _ tasks => exact ⟨_, tasks_finish (tasks ▸ htask), .failed rfl⟩

/-- When the stream takes `wrote.count` bytes, they go over from `left` to `before`. -/
theorem writing_take {stream : LinkEnd} {rest : Outflow} {deadline : Timer} {before left : Bytes}
    {wrote : Pipe.Written} {air : Air} (hwrite : w.air.write stream rest.pending = (wrote, air))
    (encode : Frame.encode s.message p = .ok (before ++ left))
    (remaining : rest.remaining? = some left) (size : rest.written = before.length)
    (writes : ∀ e, f e = if e = stream then before else []) :
    Posting s p
      { activity := .sending { s with stage := .writing stream (rest.take wrote.count) deadline } }
      (fun e => f e ++ (air.outgoing e).drop (w.air.outgoing e).length) 0 := by
  have hcount : wrote.count ≤ rest.pending.length := by
    simpa only [hwrite] using w.air.count_write_le stream rest.pending
  have hwritten (e : LinkEnd) := w.air.outgoing_write e stream rest.pending
  rw [hwrite] at hwritten
  obtain ⟨more, hmore⟩ := Outflow.prefix_of_remaining? remaining
  have htake : left.take wrote.count = rest.pending.take wrote.count := by
    rw [← hmore, List.take_append_of_le_length hcount]
  -- What was taken goes over from what is left of the frame to what is written.
  refine .writing (before ++ left.take wrote.count) (left.drop wrote.count) ?_
    (Outflow.remaining?_take hcount remaining) ?_ fun e => ?_
  · rw [List.append_assoc, List.take_append_drop]
    exact encode
  · rw [List.length_append, htake, List.length_take, Nat.min_eq_left hcount, ← size]
    rfl
  · rw [hwritten, List.drop_left, writes, htake]
    split <;> rfl

/-- An event that counts `.frameSent n` gains `n` of `bytesSent`. -/
theorem gain_frameSent {v : World} {node : Node} {n : UInt64} {o : Outcome}
    (hnode : w.nodes[x.node]? = some node) (mute : w.Mute v)
    (hsettings : ((v.count x.node (.frameSent n)).finish t o).settings? x.node
      = w.settings? x.node) :
    (Event.gain x.node
      ⟨.task t, w, (v.count x.node (.frameSent n)).finish t o⟩).metrics.bytesSent = n := by
  -- A node that has settings afterwards is still there.
  obtain ⟨after, hafter⟩ : ∃ after, v.nodes[x.node]? = some after := by
    rw [World.settings?, World.settings?, hnode] at hsettings
    refine Option.ne_none_iff_exists'.1 fun hnone => ?_
    simp [World.finish, World.updateTask, hnone] at hsettings
  have hbefore : w.bytesSent x.node = after.metrics.bytesSent := by
    rw [← World.bytesSent_of_outward (mute.outward x.node), World.bytesSent, hafter]
    rfl
  rw [Event.bytesSent_gain hsettings]
  show ((v.count x.node _).nodes[x.node]?.map (·.metrics.bytesSent)).getD 0
    - w.bytesSent x.node = _
  rw [World.nodes_count, if_pos rfl, hafter, hbefore]
  show after.metrics.bytesSent + n - after.metrics.bytesSent = n
  rw [UInt64.add_comm, UInt64.add_sub_cancel]

/-- From `.writing`, every `Move` leads to `writing`, to `sent` or to `failed`. -/
theorem of_writing {stream : LinkEnd} {rest : Outflow} {deadline : Timer} {before left : Bytes}
    {node : Node} {q : Sending.Progress × World} (hnode : w.nodes[x.node]? = some node)
    (encode : Frame.encode s.message p = .ok (before ++ left))
    (remaining : rest.remaining? = some left) (size : rest.written = before.length)
    (writes : ∀ e, f e = if e = stream then before else [])
    (htask : w.tasks[t]?
      = some { activity := .sending { s with stage := .writing stream rest deadline } })
    (h : Sending.Move { s with stage := .writing stream rest deadline } x w q)
    (hsettings : (q.2.concludeSending t q.1).settings? x.node = w.settings? x.node) :
    ∃ task', (q.2.concludeSending t q.1).tasks[t]? = some task' ∧ Posting s p task'
      (fun e => f e ++ Event.writes e ⟨.task t, w, q.2.concludeSending t q.1⟩)
      (Event.gain x.node ⟨.task t, w, q.2.concludeSending t q.1⟩).metrics.bytesSent := by
  cases h with
  | waits was | begins was => cases was
  | writes hstage =>
    cases hstage
    generalize hr : w.air.write stream rest.pending = r at hsettings ⊢
    have hgain : (Event.gain x.node ⟨.task t, w, World.become { w with air := r.2 } t (.sending
        { s with stage := .writing stream (rest.take r.1.count) deadline })⟩).metrics.bytesSent
        = 0 := by
      rw [Event.bytesSent_gain hsettings]
      exact UInt64.sub_self (w.bytesSent x.node)
    refine ⟨_, tasks_become htask, ?_⟩
    dsimp only [World.concludeSending] at hgain ⊢
    rw [hgain]
    exact writing_take hr encode remaining size writes
  | goesOn hstage next mute =>
    cases hstage
    obtain ⟨hwrites, hgain⟩ := of_mute mute _ hsettings
    obtain ⟨hremaining, hsize⟩ := Outflow.remaining?_next next remaining
    refine ⟨_, tasks_become (mute.tasks ▸ htask), ?_⟩
    dsimp only
    rw [hgain]
    exact .writing before left encode hremaining (hsize.trans size) fun e => by
      rw [hwrites, List.append_nil, writes]
  | @done _ _ _ v hstage next mute =>
    cases hstage
    obtain rfl : left = [] :=
      Option.some.inj (remaining.symm.trans (Outflow.remaining?_of_done next))
    rw [List.append_nil] at encode
    refine ⟨_, tasks_finish (mute.tasks ▸ htask), .sent stream encode rfl (fun e => ?_) ?_⟩
    · show f e ++ (v.air.outgoing e).drop _ = _
      rw [mute.outgoing, List.drop_length, List.append_nil, writes]
    · dsimp only [World.concludeSending] at hsettings ⊢
      rw [gain_frameSent hnode mute hsettings, size]
  | fails _ tasks => exact ⟨_, tasks_finish (tasks ▸ htask), .failed rfl⟩

/-- Every step of its task leads from one `Posting` to the next. -/
theorem step (hpayload : s.payload = p.map .bytes) (h : Posting s p task f size)
    (hlasting : w.lasting? s.session = some x) (htask : w.tasks[t]? = some task)
    (hstep : w.step t = some w') :
    ∃ task', w'.tasks[t]? = some task' ∧
      Posting s p task' (fun e => f e ++ Event.writes e ⟨.task t, w, w'⟩)
        (size + (Event.gain x.node ⟨.task t, w, w'⟩).metrics.bytesSent) := by
  have hsettings := (World.step_apart hstep).settings x.node
  obtain ⟨y, hy, rfl⟩ := Option.map_eq_some_iff.1 hlasting
  have hmoves {stage : Sending.Stage}
      (htask : w.tasks[t]? = some { activity := .sending { s with stage } }) :
      ∃ node q, w.nodes[y.node]? = some node ∧ Sending.Move { s with stage } y w q ∧
        w' = q.2.concludeSending t q.1 := by
    simp only [World.step, htask, Option.isSome_none, Bool.false_eq_true, if_false] at hstep
    obtain ⟨y', node, hy', hnode, q, hmove, rfl⟩ := World.moves_of_stepSending hstep
    cases hy.symm.trans hy'
    exact ⟨node, q, hnode, hmove, rfl⟩
  have hover (o : Outcome) (ho : task.outcome = some o) : False := by
    simp [World.step, htask, ho] at hstep
  cases h with
  | waiting idle nothing =>
    obtain ⟨node, q, -, hmove, rfl⟩ := hmoves htask
    rw [UInt64.zero_add]
    exact of_waiting (x := y) hpayload idle nothing htask hmove hsettings
  | writing before left encode remaining size writes =>
    obtain ⟨node, q, hnode, hmove, rfl⟩ := hmoves htask
    rw [UInt64.zero_add]
    exact of_writing (x := y) hnode encode remaining size writes htask hmove hsettings
  | sent _ _ outcome => exact (hover _ outcome).elim
  | failed outcome => exact (hover _ outcome).elim

end Posting

/-! ### A send among others -/

namespace World

/-- What somebody else may do while task `t` is at work: the task itself, the `lasting` part of all
sessions and the `settings` of all nodes stay. -/
structure KeepsTask (t : Nat) (w w' : World) : Prop where
  task : w'.tasks[t]? = w.tasks[t]?
  sessions : ∀ s x, w.lasting? s = some x → w'.lasting? s = some x
  settings : ∀ n, w'.settings? n = w.settings? n

variable {t : Nat} {w w' : World}

theorem Apart.keepsTask {u : Nat} {site : Option Nat} {task : Task} (h : Apart u site w w')
    (ht : t ≠ u) (htask : w.tasks[t]? = some task) : KeepsTask t w w' :=
  ⟨(h.tasks t task ht htask).trans htask.symm, h.sessions, h.settings⟩

/-- An event of a `History (KeepsTask t)` that is no step of task `t` satisfies `KeepsTask t`. -/
theorem keepsTask_of_happens {e : Event} {task : Task} (he : e.Happens (KeepsTask t))
    (hcause : e.cause ≠ .task t) (htask : e.before.tasks[t]? = some task) :
    KeepsTask t e.before e.after := by
  obtain ⟨cause, before, after⟩ := e
  cases cause with
  | task u => exact (step_apart he).keepsTask (fun h => hcause (h ▸ rfl)) htask
  | removal m a =>
    obtain rfl : after = before.removeBonded m a := he
    -- A removal is no task's step, so it does for one of any other task.
    have hapart : Apart (t + 1) (some m) before (before.removeBonded m a) :=
      Apart.refl.removeBonded a
    exact hapart.keepsTask (Nat.ne_of_lt (Nat.lt_succ_self t)) htask
  | other => exact he

theorem History.posting {events : List Event} {s : Sending} {p : Option Bytes} {x : Session}
    (hpayload : s.payload = p.map .bytes) (hidle : s.stage.isWriting = false)
    (hsession : w.lasting? s.session = some x)
    (htask : w.tasks[t]? = some { activity := .sending s })
    (h : History (KeepsTask t) w events w') :
    ∃ task, w'.tasks[t]? = some task ∧
      Posting s p task (written t events) (share x.node t events).metrics.bytesSent := by
  suffices hall : w'.lasting? s.session = some x ∧ ∃ task, w'.tasks[t]? = some task ∧
      Posting s p task (written t events) (share x.node t events).metrics.bytesSent from hall.2
  induction h with
  | start => exact ⟨hsession, _, htask, .waiting hidle fun _ => rfl⟩
  | @next events e _ happens ih =>
    obtain ⟨hsession, task, htask, hposting⟩ := ih
    by_cases hcause : e.cause = .task t
    · obtain ⟨cause, before, after⟩ := e
      obtain rfl : cause = .task t := hcause
      obtain ⟨task', htask', hnext⟩ := hposting.step hpayload hsession htask happens
      have hwritten : written t (events ++ [⟨.task t, before, after⟩])
          = fun stream => written t events stream
            ++ Event.writes stream ⟨.task t, before, after⟩ := by
        funext stream
        rw [written_concat, if_pos rfl]
      rw [share_concat, if_pos rfl, hwritten]
      exact ⟨(step_apart happens).sessions _ _ hsession, task', htask', hnext⟩
    · have hsame := keepsTask_of_happens happens hcause htask
      have hwritten : written t (events ++ [e]) = written t events := by
        funext stream
        rw [written_concat, if_neg hcause, List.append_nil]
      rw [share_concat, if_neg hcause, hwritten]
      exact ⟨hsame.sessions _ _ hsession, task, hsame.task.trans htask, hposting⟩

end World
end RadioLink

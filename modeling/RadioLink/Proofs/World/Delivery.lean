import RadioLink.Proofs.Crypto.Envelope
import RadioLink.Proofs.World.Sending

/-!
# What is sent is delivered

A message `m` that was sent, as it is or sealed (`Sending.Says`), reaches the application at the
other end: `delivered` grows by `m` alone, with the length of its payload for `payloadSize`, and
`bytesReceived` by as many bytes as the sender's `bytesSent`. Reading its frame takes a bounded
number of steps and never has to wait (`Arrival.step`), so nothing but the frame decides what
happens, whatever other tasks do in between.
-/

namespace RadioLink

open World (History KeepsTask nodes_count)

/-! ### What is asked for -/

/-- The send that is asked for with `m`: `Sending.ofMessage`, or what `encryptedSending?` returns
for the owner of `secret`. For the latter `agree` has to be symmetric and `decrypt` to invert
`encrypt`. -/
inductive Sending.Says (suite : Suite) (secret : X25519.Key) (session : Nat) (m : Message) :
    Sending → Prop where
  | plain : Says suite secret session m (.ofMessage session m)
  | sealed {w : World} {s : Sending} (same : w.suite = suite)
      (asked : (w.encryptedSending? session m (suite.publicKey secret)).1 = some s)
      (agreement : suite.agree (w.entropy.key w.draws) (suite.publicKey secret)
        = suite.agree secret (suite.publicKey (w.entropy.key w.draws)))
      (inverse : ∀ key nonce text,
        suite.decrypt key nonce (suite.encrypt key nonce text) = some text) :
      Says suite secret session m s

namespace Sending.Says

variable {suite : Suite} {secret : X25519.Key} {session : Nat} {m : Message} {s : Sending}

theorem exists_sealed {w : World} {key : X25519.Key}
    (h : (w.encryptedSending? session m key).1 = some s) :
    s = ⟨session, Envelope.sealFor w.suite (w.entropy.key w.draws) (w.entropy.nonce w.draws) key
      m.withoutPayload, m.payload.map .bytes, .ready⟩ := by
  unfold World.encryptedSending? at h
  split at h
  · cases h
  · split at h
    · cases h
    · exact (Option.some.inj h).symm

/-- Either way the send is `.ready`, and its payload is that of `m`. -/
theorem parts (h : Says suite secret session m s) :
    s.session = session ∧ s.payload = m.payload.map .bytes ∧ s.stage = .ready := by
  cases h with
  | plain => exact ⟨rfl, rfl, rfl⟩
  | sealed _ asked =>
    obtain rfl := exists_sealed asked
    exact ⟨rfl, rfl, rfl⟩

/-- Either way `Frame.decode` reads its frame as a message that `openWith` opens as `m`. -/
theorem decode_frame (h : Says suite secret session m s)
    (hk : Text.allBlank m.kind.name = false) (hidentity : m.kind.name ≠ identityName)
    (hencrypted : m.kind.name ≠ encryptedName) {frame : Bytes}
    (hframe : Frame.encode s.message m.payload = .ok frame) :
    ∃ f, Frame.decode frame = .ok f ∧ f.intoMessage.kind ≠ .identity ∧
      Handling.opened (Envelope.openWith suite secret) f.intoMessage
        = .ok (m.payload.elim m m.setPayload) := by
  -- what `decode` returns is what went out, the message or its envelope, with the payload beside it
  obtain ⟨hfree, rfl⟩ := Frame.encode_eq_ok_iff.1 hframe
  have hcanonical := MessageKind.canonical_of_name_ne hidentity hencrypted
  have hdecode {y : Message} (hc : y.kind.Canonical) (hy : Text.allBlank y.kind.name = false) :
      Frame.decode (Frame.lead m.payload ++ y.wire) = .ok ⟨m.payload, y.withoutPayload⟩ := by
    rw [Frame.decode_lead_append_wire hfree, Message.ofBytes_wire hc hy]
    rfl
  have hinto (y : Message) : (Frame.mk m.payload y.withoutPayload).intoMessage
      = m.payload.elim y.withoutPayload y.setPayload := by
    cases m.payload <;> rfl
  have hkind (y : Message) : (m.payload.elim y.withoutPayload y.setPayload).kind = y.kind := by
    cases m.payload <;> rfl
  cases h with
  | plain =>
    have hplain : (Frame.mk m.payload m.withoutPayload).intoMessage
        = m.payload.elim m m.setPayload := by
      obtain ⟨id, kind, body, size, transfer, payload⟩ := m
      cases payload <;> rfl
    refine ⟨_, hdecode hcanonical hk, ?_, ?_⟩
    · rw [hinto, hkind]
      exact fun heq => hidentity (heq ▸ rfl)
    · have hopened : ¬ (Frame.mk m.payload m.withoutPayload).intoMessage.kind = .encrypted := by
        rw [hinto, hkind]
        exact fun heq => hencrypted (heq ▸ rfl)
      exact (if_neg hopened).trans (congrArg Except.ok hplain)
  | @sealed w s same asked agreement inverse =>
    obtain rfl := exists_sealed asked
    subst same
    -- nothing else matters of the envelope `y` than its type and what it opens to
    generalize hy : Envelope.sealFor w.suite (w.entropy.key w.draws) (w.entropy.nonce w.draws)
      (w.suite.publicKey secret) m.withoutPayload = y at hdecode ⊢
    have hsealed : y.kind = .encrypted := hy ▸ rfl
    have hopen : Envelope.openWith w.suite secret y = .ok m.withoutPayload := by
      rw [← hy, Envelope.openWith_sealFor agreement inverse]
      exact Message.ofBytes_toJson hcanonical hk
    have hc : y.kind.Canonical := hsealed ▸ MessageKind.canonical_encrypted
    refine ⟨_, hdecode hc (by rw [hsealed]; decide), ?_, ?_⟩
    · rw [hinto, hkind, hsealed]
      exact nofun
    · -- a payload beside an envelope is not looked at when it is opened
      have hkeeps : Envelope.openWith w.suite secret
          (m.payload.elim y.withoutPayload y.setPayload).withoutPayload
          = Envelope.openWith w.suite secret y := by
        cases m.payload <;> rfl
      rw [Handling.opened, if_pos (by rw [hinto, hkind, hsealed]), hinto, hkeeps, hopen]
      obtain ⟨id, kind, body, size, transfer, payload⟩ := m
      cases payload <;> rfl

end Sending.Says

/-! ### What is received -/

namespace World

/-- Node `n` has registered a session of its own for the address `a`, and its application is there.
-/
def Hosts (w : World) (n : Nat) (a : Address) : Prop :=
  ∃ r x, w.registered? n a = some r ∧ w.lasting? r = some x ∧ x.node = n ∧ x.detached = false

variable {n t : Nat} {a : Address} {w w' : World}

theorem Hosts.keep (h : w.Hosts n a)
    (hsessions : ∀ s x, w.lasting? s = some x → w'.lasting? s = some x)
    (hstanding : w'.standing? n = w.standing? n) : w'.Hosts n a := by
  obtain ⟨r, x, hr, hx, hnode, hattached⟩ := h
  exact ⟨r, x, (registered?_eq_of_standing hstanding a).trans hr, hsessions r x hx, hnode,
    hattached⟩

theorem step_accepting {a : Accepting} (htask : w.tasks[t]? = some { activity := .accepting a }) :
    w.step t = (a.step w).map fun q => q.2.conclude t q.1 := by
  simp only [step, htask, Option.isSome_none, Bool.false_eq_true, if_false, Activity.step,
    stepAccepting]
  rcases a.step w with _ | ⟨_ | _ | _, v⟩ <;> rfl

end World

/-- The outcome of the task that hands `m` to an application, and what that adds to `delivered`. -/
def Application.handed (app : Application) (m : Message) : Outcome × List Message :=
  if app.faulty = some .deliver then (.aborted, []) else (.accepted (.ok ()), [m])

/-- What the frame holds is no `.identity`, is `opened` as `m`, and has nothing to be fetched for
`m`. -/
structure Frame.Brings (f : Frame) (settings : Node) (m : Message) : Prop where
  kind : f.intoMessage.kind ≠ .identity
  opened : Handling.opened settings.app.decrypt f.intoMessage = .ok m
  transfer : m.payload = none → m.transfer = none

/-- How far a task has come with a connection whose frame `Brings` the message, what its node has
gained, and a bound on the steps that are left. -/
inductive Arrival (n : Nat) (sender : Address) (s : Script) (settings : Node) (m : Message)
    (f : Frame) (size : Nat) (w : World) : Task → Gain → Nat → Prop where
  | ready : Arrival n sender s settings m f size w
      { activity := .accepting ⟨n, sender, .ready (.script s)⟩ } {} (s.fuel + 3)
  | reading {s' : Script} {intake : Intake} {deadline : Timer}
      (outcome : intake.outcome s' = .frame f size) : Arrival n sender s settings m f size w
        { activity := .accepting ⟨n, sender, .reading (.script s') intake deadline⟩ }
        (.counted [.connectionAccepted]) (s'.fuel + 2)
  | handling {r : Nat} {x : Session} (session : w.lasting? r = some x) (node : x.node = n)
      (attached : x.detached = false) : Arrival n sender s settings m f size w
        { activity := .accepting ⟨n, sender, .handling { session := r, message := f.intoMessage }⟩ }
        (.counted [.connectionAccepted, .frameReceived (UInt64.ofNat size)]) 1
  | finished {task : Task} {o : Outcome} {ds : List Message}
      (handed : settings.app.handed m = (o, ds))
      (outcome : task.outcome = some o) : Arrival n sender s settings m f size w task
        ⟨Metrics.total [.connectionAccepted, .frameReceived (UInt64.ofNat size)], ds, []⟩ 0

/-- A message that is `opened` with nothing to be fetched goes to `deliver` at once. -/
theorem Handling.begin_of_opened {d : Handling} {x : Session} {node : Node} {w : World}
    {m : Message}
    (attached : x.detached = false) (hopened : opened node.app.decrypt d.message = .ok m)
    (htransfer : m.payload = none → m.transfer = none) :
    d.begin x node w = deliver m x.node node w := by
  unfold begin
  rw [if_neg (by simp [attached]), hopened]
  dsimp only
  split
  · next hpayload htransfer' =>
    rw [htransfer hpayload] at htransfer'
    cases htransfer'
  · rfl

namespace Accepting

variable {a : Accepting} {node : Node} {w : World} {f : Frame} {size : Nat}

/-- A message that is no `.identity` goes to the session that is registered for its sender. -/
theorem take_of_registered {m : Message} {r : Nat} (hkind : m.kind ≠ .identity)
    (hr : node.registry.get? a.sender = some r) :
    a.take node m w = (.going { a with stage := .handling { session := r, message := m } }, w) := by
  have hroute : m.route = .session := by
    cases h : m.route with
    | identity => exact absurd (route_eq_identity_iff.1 h) hkind
    | session => rfl
  simp only [take, hroute, sessionFor?, hr]

/-- Where `Intake.outcome` is a frame, a step either reads on, with less `fuel` left, or has read
it. -/
theorem step_of_outcome {s : Script} {intake : Intake} {deadline : Timer}
    (hnode : w.nodes[a.node]? = some node) (hstage : a.stage = .reading (.script s) intake deadline)
    (houtcome : intake.outcome s = .frame f size) :
    (∃ s' intake', s'.fuel < s.fuel ∧ intake'.outcome s' = .frame f size ∧
      a.step w = some (.going { a with stage := .reading (.script s') intake' deadline }, w)) ∨
    a.step w = some
      (a.take node f.intoMessage (w.count a.node (.frameReceived (UInt64.ofNat size)))) := by
  have hread := s.reading_read intake.room_reserve_pos
  rw [Intake.outcome_eq] at houtcome
  unfold step
  simp only [hnode, hstage, World.readInbound]
  generalize s.read intake.reserve.room = q at hread houtcome
  cases hread with
  | @data bytes s' _ _ _ hfuel =>
    dsimp only at houtcome ⊢
    cases hadd : intake.reserve.add bytes with
    | error e =>
      rw [hadd] at houtcome
      cases houtcome
    | ok intake' =>
      rw [hadd] at houtcome
      exact .inl ⟨s', intake', hfuel, houtcome, rfl⟩
  | @ended r s' hend =>
    right
    -- To whoever reads a frame, a fault is the end of the stream.
    cases r with
    | ended | fault =>
      dsimp only at houtcome ⊢
      rw [finishReading, Intake.frame_finish_iff.1 houtcome]
      rfl
    | data | pending | abort => cases hend
  | pending => cases houtcome
  | abort => cases houtcome

end Accepting

namespace Arrival

open Accepting (ofHandling)
open World (tasks_conclude gain_conclude)

variable {n t : Nat} {sender : Address} {s : Script} {settings : Node} {m : Message} {f : Frame}
  {size : Nat} {w : World} {task : Task} {gain : Gain} {left : Nat}

theorem keep {w' : World} (h : Arrival n sender s settings m f size w task gain left)
    (hsessions : ∀ r x, w.lasting? r = some x → w'.lasting? r = some x) :
    Arrival n sender s settings m f size w' task gain left := by
  cases h with
  | ready => exact .ready
  | reading outcome => exact .reading outcome
  | handling session node attached => exact .handling (hsessions _ _ session) node attached
  | finished handed outcome => exact .finished handed outcome

/-- The next step of task `t` is possible, leads to another `Arrival` with fewer steps `left`, and
leaves the `standing` of node `n`. -/
def Advances (n t : Nat) (sender : Address) (s : Script) (settings : Node) (m : Message) (f : Frame)
    (size : Nat) (w : World) (gain : Gain) (left : Nat) : Prop :=
  ∃ w' task' left', w.step t = some w' ∧ w'.tasks[t]? = some task' ∧
    w'.standing? n = w.standing? n ∧ left' < left ∧
    Arrival n sender s settings m f size w' task' (gain + Event.gain n ⟨.task t, w, w'⟩) left'

variable {node after : Node} {cs : List Counted} {ds : List Message}

theorem advances {a : Accepting} {p : Accepting.Progress} {v : World} {task' : Task} {left' : Nat}
    (hnode : w.nodes[n]? = some node) (htask : w.tasks[t]? = some { activity := .accepting a })
    (hstep : a.step w = some (p, v)) (htask' : (v.conclude t p).tasks[t]? = some task')
    (hafter : v.nodes[n]? = some after) (hgains : node.Gains after cs ds [])
    (hstanding : v.standing? n = w.standing? n) (hlt : left' < left)
    (h : Arrival n sender s settings m f size (v.conclude t p) task'
      (gain + ⟨Metrics.total cs, ds, []⟩) left') :
    Advances n t sender s settings m f size w gain left := by
  refine ⟨v.conclude t p, task', left', ?_, htask', ?_, hlt, ?_⟩
  · rw [World.step_accepting htask, hstep, Option.map_some]
  · rw [World.standing_conclude, hstanding]
  · rw [gain_conclude _ _ _ hnode hafter hgains]
    exact h

/-- What is counted leaves the `standing` of node `n`. -/
theorem counted {v : World} {c : Counted} (hnode : w.nodes[n]? = some node)
    (aside : (w.count n c).Aside v) : v.standing? n = w.standing? n ∧
      v.nodes[n]? = some { node with metrics := node.metrics.count c } := by
  refine ⟨(World.standing_of_aside aside).trans (World.standing_count n c), ?_⟩
  rw [aside.nodes, nodes_count, if_pos rfl, hnode]
  rfl

theorem advances_ready (hnode : w.nodes[n]? = some node)
    (hread : Frame.read node.config.service.maxFrameSize s = .frame f size)
    (htask : w.tasks[t]? = some { activity := .accepting ⟨n, sender, .ready (.script s)⟩ }) :
    Advances n t sender s node.settings m f size w {} (s.fuel + 3) := by
  have aside : (w.count n .connectionAccepted).Aside
      ((w.count n .connectionAccepted).cancelDiscovery node).withTimer :=
    (World.Aside.refl.cancelDiscovery node).withTimer
  obtain ⟨hstanding, hafter⟩ := counted hnode aside
  have hstep : Accepting.step ⟨n, sender, .ready (.script s)⟩ w = some
      (.going ⟨n, sender, .reading (.script s) (.start node.config.service.maxFrameSize)
        (((w.count n .connectionAccepted).cancelDiscovery node).timer
          node.config.listener.readTimeout)⟩,
        ((w.count n .connectionAccepted).cancelDiscovery node).withTimer) := by
    simp only [Accepting.step, hnode]
  refine advances hnode htask hstep (tasks_conclude _ htask aside.tasks) hafter
    (node.gains_count _) hstanding (Nat.lt_succ_self (s.fuel + 2)) ?_
  rw [Gain.empty_add]
  exact .reading hread

/-- From `reading` a step reads on, or leads to `handling` with the session that is registered. -/
theorem advances_reading {s' : Script} {intake : Intake} {deadline : Timer}
    (hnode : w.nodes[n]? = some node) (hkind : f.intoMessage.kind ≠ .identity)
    (hhosts : w.Hosts n sender) (outcome : intake.outcome s' = .frame f size)
    (htask : w.tasks[t]?
      = some { activity := .accepting ⟨n, sender, .reading (.script s') intake deadline⟩ }) :
    Advances n t sender s node.settings m f size w (.counted [.connectionAccepted])
      (s'.fuel + 2) := by
  rcases Accepting.step_of_outcome (a := ⟨n, sender, .reading (.script s') intake deadline⟩) hnode
    rfl outcome with ⟨s'', intake', hfuel, houtcome, hstep⟩ | hstep
  · refine advances hnode htask hstep (tasks_conclude _ htask rfl) hnode node.gains_refl rfl
      (Nat.add_lt_add_right hfuel 2) ?_
    rw [show (⟨Metrics.total [], [], []⟩ : Gain) = {} from rfl, Gain.add_empty]
    exact .reading houtcome
  · obtain ⟨r, x, hr, hx, hxnode, hattached⟩ := hhosts
    rw [World.registered?, hnode, Option.bind_some] at hr
    rw [Accepting.take_of_registered hkind hr] at hstep
    obtain ⟨hstanding, hafter⟩ := counted (c := .frameReceived (UInt64.ofNat size)) hnode .refl
    have hgain : Gain.counted [.connectionAccepted]
        + ⟨Metrics.total [.frameReceived (UInt64.ofNat size)], [], []⟩
          = .counted [.connectionAccepted, .frameReceived (UInt64.ofNat size)] :=
      Gain.counted_add [.connectionAccepted] [.frameReceived (UInt64.ofNat size)]
    refine advances hnode htask hstep (tasks_conclude _ htask rfl) hafter (node.gains_count _)
      hstanding (Nat.le_add_left 2 _) ?_
    rw [hgain]
    exact .handling (x := x) hx hxnode hattached

/-- From `handling` a step hands the message to the application, and gives the task its outcome. -/
theorem advances_handling {r : Nat} {x : Session} (hnode : w.nodes[x.node]? = some node)
    (hbrings : f.Brings node.settings m) (hx : w.sessions[r]? = some x)
    (attached : x.detached = false)
    (htask : w.tasks[t]? = some {
      activity := .accepting
        ⟨x.node, sender, .handling { session := r, message := f.intoMessage }⟩ }) :
    Advances x.node t sender s node.settings m f size w
      (.counted [.connectionAccepted, .frameReceived (UInt64.ofNat size)]) 1 := by
  have hbegin : Handling.begin { session := r, message := f.intoMessage } x node w
      = Handling.deliver m x.node node w :=
    Handling.begin_of_opened attached hbrings.opened hbrings.transfer
  have hstep : Accepting.step
      ⟨x.node, sender, .handling { session := r, message := f.intoMessage }⟩ w
        = some (ofHandling ⟨x.node, sender, .handling { session := r, message := f.intoMessage }⟩
            (Handling.deliver m x.node node w)) := by
    simp only [Accepting.step, Handling.step, hnode, hx, hbegin, Option.map_some]
  have hgain (ds : List Message) : Gain.counted [.connectionAccepted,
      .frameReceived (UInt64.ofNat size)] + ⟨Metrics.total [], ds, []⟩
        = ⟨Metrics.total [.connectionAccepted, .frameReceived (UInt64.ofNat size)], ds, []⟩ :=
    Gain.ext (Metrics.add_empty _) rfl rfl
  by_cases hfaulty : node.app.faulty = some .deliver
  · have hhanded : node.settings.app.handed m = (.aborted, []) := if_pos hfaulty
    rw [Handling.deliver, if_pos hfaulty] at hstep
    refine advances hnode htask hstep (tasks_conclude _ htask rfl) hnode node.gains_refl rfl
      Nat.one_pos ?_
    rw [hgain]
    exact .finished hhanded rfl
  · have hhanded : node.settings.app.handed m = (.accepted (.ok ()), [m]) := if_neg hfaulty
    have hafter : (w.updateApp x.node fun app =>
        { app with delivered := app.delivered ++ [m] }).nodes[x.node]?
        = some { node with app := { node.app with delivered := node.app.delivered ++ [m] } } := by
      rw [World.nodes_updateApp, if_pos rfl, hnode]
      rfl
    rw [Handling.deliver, if_neg hfaulty] at hstep
    refine advances hnode htask hstep (tasks_conclude _ htask rfl) hafter (node.gains_deliver m)
      (World.standing_updateNode fun _ => rfl) Nat.one_pos ?_
    rw [hgain]
    exact .finished hhanded rfl

/-- Without an outcome a task with an `Arrival` always `Advances`. -/
theorem step (hread : Frame.read settings.config.service.maxFrameSize s = .frame f size)
    (hbrings : f.Brings settings m)
    (hsettings : w.settings? n = some settings) (hhosts : w.Hosts n sender)
    (htask : w.tasks[t]? = some task) (hrunning : task.outcome = none)
    (h : Arrival n sender s settings m f size w task gain left) :
    Advances n t sender s settings m f size w gain left := by
  obtain ⟨node, hnode, rfl⟩ := Option.map_eq_some_iff.1 hsettings
  cases h with
  | ready => exact advances_ready hnode hread htask
  | reading outcome => exact advances_reading hnode hbrings.kind hhosts outcome htask
  | handling session hxnode attached =>
    obtain ⟨x, hx, rfl⟩ := Option.map_eq_some_iff.1 session
    obtain rfl : x.node = n := hxnode
    exact advances_handling hnode hbrings hx attached htask
  | finished _ outcome => cases hrunning.symm.trans outcome

end Arrival

/-! ### From one end to the other -/

namespace World

variable {n t : Nat} {sender : Address} {s : Script} {settings : Node} {m : Message} {f : Frame}
  {size : Nat} {w w' : World}

/-- Task `t` has yet to take in the script `s`, and node `n` `Hosts` the sender. -/
structure Awaits (w : World) (n t : Nat) (sender : Address) (s : Script) (settings : Node) :
    Prop where
  task : w.tasks[t]? = some { activity := .accepting ⟨n, sender, .ready (.script s)⟩ }
  settings : w.settings? n = some settings
  hosts : w.Hosts n sender

/-- As long as node `n` `Hosts` the sender at each step of task `t`, its `Arrival` is known after
every event. -/
theorem History.arrival {events : List Event}
    (hread : Frame.read settings.config.service.maxFrameSize s = .frame f size)
    (hbrings : f.Brings settings m)
    (hawaits : w.Awaits n t sender s settings) (h : History (KeepsTask t) w events w')
    (hkept : ∀ e ∈ events, e.cause = .task t ∨ e.after.Hosts n sender) :
    (w'.settings? n = some settings ∧ w'.Hosts n sender) ∧
    ∃ task left, w'.tasks[t]? = some task ∧
      Arrival n sender s settings m f size w' task (share n t events) left ∧
      events.countP (·.cause = .task t) + left ≤ s.fuel + 3 := by
  -- Each step of the task itself takes something of `left`; steps of others leave it.
  induction h with
  | start =>
    exact ⟨⟨hawaits.settings, hawaits.hosts⟩, _, _, hawaits.task, .ready, by simp⟩
  | @next events e _ happens ih =>
    obtain ⟨⟨hsettings, hhosts⟩, task, left, htask, harrival, hcount⟩ :=
      ih fun e he => hkept e (List.mem_append_left _ he)
    rw [share_concat, List.countP_append]
    by_cases hcause : e.cause = .task t
    · obtain ⟨cause, before, after⟩ := e
      obtain rfl : cause = .task t := hcause
      have hstep : before.step t = some after := happens
      have hrunning : task.outcome = none := by
        cases ho : task.outcome with
        | none => rfl
        | some o => simp [step, htask, ho] at hstep
      have hapart := step_apart hstep
      obtain ⟨w'', task', left', hstep', htask', hstanding, hlt, hnext⟩ :=
        harrival.step hread hbrings hsettings hhosts htask hrunning
      cases hstep.symm.trans hstep'
      refine ⟨⟨(hapart.settings n).trans hsettings,
        hhosts.keep hapart.sessions hstanding⟩, task', left', htask', ?_, ?_⟩
      · rw [if_pos rfl]
        exact hnext
      · simp only [List.countP_singleton, decide_true, if_true]
        omega
    · have hsame := keepsTask_of_happens happens hcause htask
      have hhosts' := (hkept e (List.mem_append_right _ List.mem_cons_self)).resolve_left hcause
      refine ⟨⟨(hsame.settings n).trans hsettings, hhosts'⟩, task, left,
        hsame.task.trans htask, ?_, ?_⟩
      · rw [if_neg hcause]
        exact harrival.keep hsame.sessions
      · simpa [hcause] using hcount

/-- Such a task takes no more than `s.fuel + 3` steps, never waits, and ends with what
`Application.handed` says. -/
theorem History.deliver {events : List Event}
    (hread : Frame.read settings.config.service.maxFrameSize s = .frame f size)
    (hbrings : f.Brings settings m)
    (hawaits : w.Awaits n t sender s settings) (h : History (KeepsTask t) w events w')
    (hkept : ∀ e ∈ events, e.cause = .task t ∨ e.after.Hosts n sender) :
    (w'.outcome? t = none → (w'.step t).isSome = true) ∧
    events.countP (·.cause = .task t) ≤ s.fuel + 3 ∧
    ∀ o, w'.outcome? t = some o → (o, (share n t events).delivered) = settings.app.handed m ∧
      (share n t events).metrics.bytesReceived = UInt64.ofNat size := by
  obtain ⟨⟨hsettings', hhosts'⟩, task, left, htask, harrival, hcount⟩ :=
    h.arrival hread hbrings hawaits hkept
  have hresult : w'.outcome? t = task.outcome := by rw [outcome?, htask, Option.bind_some]
  rw [hresult]
  refine ⟨fun hnone => ?_, by omega, fun o ho => ?_⟩
  · obtain ⟨next, -, -, hstep, -⟩ :=
      harrival.step hread hbrings hsettings' hhosts' htask hnone
    rw [hstep]
    rfl
  · generalize share n t events = gain at harrival ⊢
    cases harrival with
    | ready | reading | handling => cases ho
    | finished handed outcome =>
      cases ho.symm.trans outcome
      exact ⟨handed.symm, UInt64.zero_add _⟩

/-- **What is sent is delivered.** Let the task of a send that `Says` the message `m` have the
outcome `.sent true`. It has written on one `stream` only. Let a node have an application with the
secret, a session registered for the sender, and a `maxFrameSize` that admits the frame; let a
script have what was written for its content, in any chunks. The task that takes it in comes to its
end by itself; whatever others do, as long as the node `Hosts` the sender, its `step` is always
possible; it takes no more steps than the chunks, their bytes and three more; `delivered` is `m`
alone, with the length of its payload for `payloadSize`; and `bytesReceived` grows by as much as the
`bytesSent` of the sender. -/
theorem delivered_as_sent {suite : Suite} {secret : X25519.Key} {session : Nat} {send : Sending}
    {x : Session} {events : List Event} (hkind : Text.allBlank m.kind.name = false)
    (hidentity : m.kind.name ≠ identityName) (hencrypted : m.kind.name ≠ encryptedName)
    (htransfer : m.payload = none → m.transfer = none) (hasked : send.Says suite secret session m)
    (hsession : w.sessions[session]? = some x)
    (htask : w.tasks[t]? = some { activity := .sending send })
    (h : History (KeepsTask t) w events w') (hsent : w'.outcome? t = some (.sent true)) :
    ∃ stream, (∀ e, e ≠ stream → written t events e = []) ∧
    ∀ (n u : Nat) (sender : Address) (s : Script) (settings : Node) (v : World),
      s.content = written t events stream → s.ends = true →
      settings.app.decrypt = Envelope.openWith suite secret →
      (written t events stream).length ≤ settings.config.service.maxFrameSize →
      v.Awaits n u sender s settings →
      (∃ arrivals v' o, History (KeepsTask u) v arrivals v' ∧ (∀ e ∈ arrivals, e.cause = .task u) ∧
        v'.outcome? u = some o) ∧
      ∀ arrivals v', History (KeepsTask u) v arrivals v' →
        (∀ e ∈ arrivals, e.cause = .task u ∨ e.after.Hosts n sender) →
        (v'.outcome? u = none → (v'.step u).isSome = true) ∧
        arrivals.countP (·.cause = .task u) ≤ s.chunks.length + s.chunks.flatten.length + 3 ∧
        ∀ o, v'.outcome? u = some o →
          (o, (share n u arrivals).delivered)
              = settings.app.handed (m.payload.elim m m.setPayload) ∧
            (share n u arrivals).metrics.bytesReceived
              = (share x.node t events).metrics.bytesSent := by
  obtain ⟨rfl, hpayload, hstage⟩ := hasked.parts
  have hlasting : w.lasting? send.session = some x.lasting := by
    rw [lasting?, hsession]
    rfl
  obtain ⟨task, htask', hposting⟩ := h.posting hpayload (by rw [hstage]; rfl) hlasting htask
  have houtcome : task.outcome = some (.sent true) := by
    rw [outcome?, htask'] at hsent
    exact hsent
  have hnode : x.lasting.node = x.node := rfl
  rw [hnode] at hposting
  generalize (share x.node t events).metrics.bytesSent = sent at hposting ⊢
  generalize written t events = wrote at hposting ⊢
  cases hposting with
  | waiting | writing => cases houtcome
  | failed outcome => cases houtcome.symm.trans outcome
  | @sent _ frame _ _ stream encode _ writes count =>
    refine ⟨stream, fun e he => by rw [writes, if_neg he], ?_⟩
    -- From here on only the bytes of the frame matter, not how they were sent.
    obtain ⟨f, hdecode, hnotidentity, hopened⟩ :=
      hasked.decode_frame hkind hidentity hencrypted encode
    have hwritten : wrote stream = frame := by rw [writes, if_pos rfl]
    rw [hwritten, count]
    intro n u sender s settings v hcontent hends hdecrypt hle hawaits
    subst hcontent
    have hread := Frame.read_eq_frame_iff.2 ⟨hends, hle, hdecode, rfl⟩
    have hbrings : f.Brings settings (m.payload.elim m m.setPayload) := by
      refine ⟨hnotidentity, hdecrypt ▸ hopened, fun hnone => ?_⟩
      cases hp : m.payload with
      | none => exact htransfer hp
      | some p => simp [hp, Message.setPayload] at hnone
    have hall (arrivals : List Event) (v' : World) (h : History (KeepsTask u) v arrivals v')
        (hkept : ∀ e ∈ arrivals, e.cause = .task u ∨ e.after.Hosts n sender) :=
      h.deliver hread hbrings hawaits hkept
    refine ⟨History.exists_outcome (s.fuel + 3) (fun arrivals v' h hown => ?_)
      (fun arrivals v' h hown => ?_), hall⟩
    · obtain ⟨-, hcount, -⟩ := hall arrivals v' h fun e he => .inl (hown e he)
      have hlength : arrivals.countP (·.cause = .task u) = arrivals.length :=
        List.countP_eq_length.2 fun e he => decide_eq_true (hown e he)
      exact hlength ▸ hcount
    · exact (hall arrivals v' h fun e he => .inl (hown e he)).1

/-- A sealed message with a payload, over a connection that was held, to a node that admits just a
frame of that size. -/
theorem delivered_as_sent_sealed :
    let a : Address := ⟨#v[2, 0, 0, 0, 0, 1]⟩
    let b : Address := ⟨#v[2, 0, 0, 0, 0, 2]⟩
    let secret : X25519.Key := Vector.replicate 32 7
    let m : Message := { Message.ofKind 5 (.ofName "x") with payload := some [1, 2, 3] }
    let once : X25519.Key := Vector.replicate 32 1
    let nonce : SecretBox.Nonce := Vector.replicate 24 2
    let envelope := Envelope.sealFor .standard once nonce (X25519.publicKey secret) m.withoutPayload
    let w : World :=
      { entropy := ⟨fun _ => 0, fun _ => once, fun _ => nonce⟩
        nodes := #[{ address := a, config := {},
                     app := { deviceId := "p", secret := once,
                              announcement := .ofKind 1 .identity } }]
        sessions := #[{ node := 0, peer := ⟨b, none⟩, held := some ⟨0, .caller⟩ }]
        air := { links := #[⟨{ address := a }, { address := b }, .accepted⟩] }
        tasks := #[{ activity := .sending ⟨0, envelope, some (.bytes [1, 2, 3]), .ready⟩ }] }
    let node (limit : Nat) : Node :=
      { address := b, config := { service := { maxFrameSize := limit } },
        app := { deviceId := "q", secret, announcement := .ofKind 2 .identity },
        registry := (∅ : Table Address Nat).insert a 0 }
    let v (frame : Bytes) : World :=
      { nodes := #[node frame.length], sessions := #[.ofPeer 0 ⟨a, none⟩]
        tasks := #[{ activity := .accepting ⟨0, a, .ready (.script ⟨[frame], .ended⟩)⟩ }] }
    ∃ events w' stream arrivals v', w.replay? (List.replicate 9 (.task 0)) = some (events, w') ∧
      History (KeepsTask 0) (v (written 0 events stream)) arrivals v' ∧
      v'.outcome? 0 = some (.accepted (.ok ())) ∧
      (share 0 0 arrivals).delivered = [m.setPayload [1, 2, 3]] ∧
      (share 0 0 arrivals).metrics.bytesReceived = (share 0 0 events).metrics.bytesSent := by
  intro a b secret m once nonce envelope w node v
  have hrun : (w.replay? (List.replicate 9 (.task 0))).map
      (fun r => decide (r.2.outcome? 0 = some (.sent true))) = some true := by decide +kernel
  obtain ⟨⟨events, w'⟩, hreplay, hend⟩ := Option.map_eq_some_iff.1 hrun
  have hsent : w'.outcome? 0 = some (.sent true) := of_decide_eq_true hend
  have hasked : Sending.Says .standard secret 0 m ⟨0, envelope, some (.bytes [1, 2, 3]), .ready⟩ :=
    .sealed (w := w) rfl rfl (by decide +kernel) SecretBox.decrypt_encrypt
  have hinline : m.payload = none → m.transfer = none := fun _ => rfl
  obtain ⟨stream, -, hreceived⟩ := delivered_as_sent (by decide) (by decide) (by decide) hinline
    hasked rfl rfl (History.start.append_replay hreplay) hsent
  have hhosts (frame : Bytes) : (v frame).Hosts 0 a :=
    ⟨0, .ofPeer 0 ⟨a, none⟩, by simp [registered?, v, node], rfl, rfl, rfl⟩
  have hcontent (frame : Bytes) : Script.content ⟨[frame], .ended⟩ = frame := by
    by_cases h : frame = [] <;> simp [Script.content, h]
  obtain ⟨⟨arrivals, v', o, harrivals, hown, ho⟩, hall⟩ := hreceived 0 0 a ⟨[_], .ended⟩ _ (v _)
    (hcontent _) (by simp [Script.ends]) rfl (Nat.le_refl _) ⟨rfl, rfl, hhosts _⟩
  obtain ⟨-, -, hover⟩ := hall arrivals v' harrivals fun e he => .inl (hown e he)
  obtain ⟨hhanded, hbytes⟩ := hover o ho
  have htaken : (o, (share 0 0 arrivals).delivered)
      = (.accepted (.ok ()), [m.setPayload [1, 2, 3]]) := hhanded
  obtain ⟨rfl, hdelivered⟩ := Prod.mk.inj htaken
  exact ⟨events, w', stream, arrivals, v', hreplay, harrivals, ho, hdelivered, hbytes⟩

end World
end RadioLink

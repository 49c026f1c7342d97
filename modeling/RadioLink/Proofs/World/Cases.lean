import RadioLink.World.Announcing
import RadioLink.World.Listening
import RadioLink.World.Peers

/-!
# The cases of a step

An inductive relation with one constructor for each way through a step function: `Retry.Step` for
`Retry.step`, `Sending.Step` and `Sending.WriteStep` for `World.stepSending` and
`World.stepWriting`, `Announcing.Step` for `Announcing.step`, and `Listening.Step`,
`Inspecting.Step`, `Serving.Step` and `Capturing.Step` for the functions of `World`. A constructor
says what the step finds, and its index what it returns. What every step keeps is shown by the
cases of these relations. What becomes of the task, where the step function leaves that to another
one, is in `exists_of_stepConnecting` and the like: it goes on, or has an outcome.
-/

namespace RadioLink

/-! ### Connecting -/

namespace Retry

/-- The attempt that `r` is at: it is counted, and the call made to its `endpoint`. -/
def placeCall (r : Retry) (node : Node) (w : World) : Except LinkError Call × World :=
  ((r.endpoint node.config w).2.count r.node .connectAttempt).call node.address r.target
    (r.endpoint node.config w).1 node.config.session.connectTimeout

/-- What one step of `r` can be, for its `node`. -/
inductive Step (r : Retry) (node : Node) (w : World) : Progress × World → Prop where
  | spent (stage : r.stage = .ready) (most : node.config.session.connectAttempts < r.attempt) :
      Step r node w (.failed (.attemptsExhausted node.config.session.connectAttempts), w)
  | calls {call : Call} {v : World} (stage : r.stage = .ready)
      (most : r.attempt ≤ node.config.session.connectAttempts)
      (placed : r.placeCall node w = (.ok call, v)) :
      Step r node w (.going { r with stage := .calling call }, v)
  | refused {fault : LinkError} {v : World} (stage : r.stage = .ready)
      (most : r.attempt ≤ node.config.session.connectAttempts)
      (placed : r.placeCall node w = (.error fault, v)) :
      Step r node w (r.afterFailure node.config v)
  | connected {call : Call} {stream : LinkEnd} {v : World} (stage : r.stage = .calling call)
      (answer : w.answer? call = some (.ok stream, v)) : Step r node w (.connected stream, v)
  | failed {call : Call} {e : LinkError} {v : World} (stage : r.stage = .calling call)
      (answer : w.answer? call = some (.error e, v)) : Step r node w (r.afterFailure node.config v)
  | resumes {timer : Timer} (stage : r.stage = .pausing timer) (due : w.isDue timer = true) :
      Step r node w (.going { r with stage := .ready }, w)

/-- Whatever `Retry.step` returns is one of the `Step`s, for the node of `r`. -/
theorem step_of_step {r : Retry} {w : World} {q : Progress × World} (h : r.step w = some q) :
    ∃ node, w.nodes[r.node]? = some node ∧ r.Step node w q := by
  unfold step at h
  split at h
  · cases h
  next node hnode =>
  refine ⟨node, hnode, ?_⟩
  dsimp only at h
  split at h
  · next hstage =>
    split at h
    · next hmost =>
      split at h
      · next heq =>
        obtain rfl := Option.some.inj h
        exact .calls hstage hmost heq
      · next heq =>
        obtain rfl := Option.some.inj h
        exact .refused hstage hmost heq
    · next hmost =>
      obtain rfl := Option.some.inj h
      exact .spent hstage (Nat.lt_of_not_le hmost)
  · next hstage =>
    split at h
    · cases h
    · next heq =>
      obtain rfl := Option.some.inj h
      exact .connected hstage heq
    · next heq =>
      obtain rfl := Option.some.inj h
      exact .failed hstage heq
  · next hstage =>
    split at h
    · next hdue =>
      obtain rfl := Option.some.inj h
      exact .resumes hstage hdue
    · cases h

end Retry

/-! ### Sending -/

namespace Sending

/-- What a step can make of a send that is `.writing stream rest deadline`. -/
inductive WriteStep (t : Nat) (d : Sending) (x : Session) (stream : LinkEnd) (rest : Outflow)
    (deadline : Timer) (w : World) : World → Prop where
  | takes {count : Nat} {air : Air} (next : rest.next = .write)
      (write : w.air.write stream rest.pending = (.taken count, air)) :
      WriteStep t d x stream rest deadline w (({ w with air } : World).become t
        (.sending { d with stage := .writing stream (rest.take count) deadline }))
  | breaks {air : Air} (next : rest.next = .write)
      (write : w.air.write stream rest.pending = (.broken, air)) :
      WriteStep t d x stream rest deadline w
        ((({ w with air } : World).drop stream).finishSending t d x none)
  /-- The next piece is loaded, or the writer flushed. -/
  | goesOn {rest' : Outflow} (next : rest.next = .load rest' ∨ rest.next = .flush rest') :
      WriteStep t d x stream rest deadline w
        (w.become t (.sending { d with stage := .writing stream rest' deadline }))
  | shuts {rest' : Outflow} (next : rest.next = .shutdown rest') :
      WriteStep t d x stream rest deadline w
        (({ w with air := w.air.shutdown stream } : World).become t
          (.sending { d with stage := .writing stream rest' deadline }))
  /-- The pipe is full or the payload not there yet, and it is too late to wait on. -/
  | tooSlow (waits : rest.next = .wait ∨
        rest.next = .write ∧ (w.air.write stream rest.pending).1 = .full)
      (due : w.isDue deadline = true) :
      WriteStep t d x stream rest deadline w ((w.drop stream).finishSending t d x none)
  /-- The payload cannot be read on. -/
  | fails (next : rest.next = .abort ∨ ∃ fault, rest.next = .fault fault) :
      WriteStep t d x stream rest deadline w ((w.drop stream).finishSending t d x none)
  | done (next : rest.next = .done) :
      WriteStep t d x stream rest deadline w
        ((w.drop stream).finishSending t d x (some rest.written))

/-- What a step of a send can be, with the session `x` on `node`. -/
inductive Step (t : Nat) (d : Sending) (x : Session) (node : Node) (w : World) : World → Prop where
  /-- Who asks first has the session at once. -/
  | locks (stage : d.stage = .ready) (free : x.holder = none) :
      Step t d x node w ((w.updateSession d.session fun x =>
        { x with holder := some t }).takeConnection t d x node)
  | queues {holder : Nat} (stage : d.stage = .ready) (locked : x.holder = some holder) :
      Step t d x node w ((w.updateSession d.session fun x =>
        { x with waiting := x.waiting ++ [t] }).become t (.sending { d with stage := .queued }))
  | follows (stage : d.stage = .queued) (locked : x.holder = some t) :
      Step t d x node w (w.takeConnection t d x node)
  | dials {retry retry' : Retry} {stale : Option LinkEnd} {v : World}
      (stage : d.stage = .connecting retry stale) (step : retry.step w = some (.going retry', v)) :
      Step t d x node w (v.become t (.sending { d with stage := .connecting retry' stale }))
  | connected {retry : Retry} {stale : Option LinkEnd} {stream : LinkEnd} {v : World}
      (stage : d.stage = .connecting retry stale)
      (step : retry.step w = some (.connected stream, v)) :
      Step t d x node w ((stale.elim v v.drop).beginWriting t d x node stream)
  | failed {retry : Retry} {stale : Option LinkEnd} {e : LinkError} {v : World}
      (stage : d.stage = .connecting retry stale) (step : retry.step w = some (.failed e, v)) :
      Step t d x node w ((stale.elim v v.drop).finishSending t d x none)
  | writes {stream : LinkEnd} {rest : Outflow} {deadline : Timer} {u : World}
      (stage : d.stage = .writing stream rest deadline)
      (write : d.WriteStep t x stream rest deadline w u) : Step t d x node w u

variable {t : Nat} {d : Sending} {x : Session} {stream : LinkEnd} {rest : Outflow}
  {deadline : Timer} {w u : World}

/-- Whatever `stepWriting` returns is one of the `WriteStep`s. -/
theorem writeStep_of_stepWriting (h : w.stepWriting t d x stream rest deadline = some u) :
    d.WriteStep t x stream rest deadline w u := by
  have hwait (h : (if w.isDue deadline then some ((w.drop stream).finishSending t d x none)
      else none) = some u) (hwaits : rest.next = .wait ∨
        rest.next = .write ∧ (w.air.write stream rest.pending).1 = .full) :
      d.WriteStep t x stream rest deadline w u := by
    split at h
    · next hdue =>
      obtain rfl := Option.some.inj h
      exact .tooSlow hwaits hdue
    · cases h
  unfold World.stepWriting at h
  dsimp only at h
  split at h
  · next hnext =>
    split at h
    · next hwrite =>
      obtain rfl := Option.some.inj h
      exact .takes hnext hwrite
    · next hwrite => exact hwait h (.inr ⟨hnext, congrArg Prod.fst hwrite⟩)
    · next hwrite =>
      obtain rfl := Option.some.inj h
      exact .breaks hnext hwrite
  · next hnext =>
    obtain rfl := Option.some.inj h
    exact .goesOn (.inl hnext)
  · next hnext =>
    obtain rfl := Option.some.inj h
    exact .goesOn (.inr hnext)
  · next hnext =>
    obtain rfl := Option.some.inj h
    exact .shuts hnext
  · next hnext => exact hwait h (.inl hnext)
  · next hnext =>
    obtain rfl := Option.some.inj h
    exact .fails (.inl hnext)
  · next fault hnext =>
    obtain rfl := Option.some.inj h
    exact .fails (.inr ⟨fault, hnext⟩)
  · next hnext =>
    obtain rfl := Option.some.inj h
    exact .done hnext

/-- Whatever `stepSending` returns is one of the `Step`s, for the session of the send. -/
theorem step_of_stepSending (h : w.stepSending t d = some u) :
    ∃ x node, w.sessions[d.session]? = some x ∧ w.nodes[x.node]? = some node ∧
      d.Step t x node w u := by
  unfold World.stepSending at h
  split at h
  · cases h
  next x hx =>
  split at h
  · cases h
  next node hnode =>
  refine ⟨x, node, hx, hnode, ?_⟩
  dsimp only at h
  split at h
  · next hstage =>
    split at h
    · next hfree =>
      obtain rfl := Option.some.inj h
      exact .locks hstage hfree
    · next hlocked =>
      obtain rfl := Option.some.inj h
      exact .queues hstage hlocked
  · next hstage =>
    split at h
    · next hlocked =>
      obtain rfl := Option.some.inj h
      exact .follows hstage hlocked
    · cases h
  · next retry stale hstage =>
    split at h
    · cases h
    · next hstep =>
      obtain rfl := Option.some.inj h
      exact .dials hstage hstep
    · next hstep =>
      obtain rfl := Option.some.inj h
      exact .connected hstage hstep
    · next hstep =>
      obtain rfl := Option.some.inj h
      exact .failed hstage hstep
  · next hstage => exact .writes hstage (writeStep_of_stepWriting h)

end Sending

/-! ### Announcing -/

namespace Announcing

/-- The attempt that `a` is at: it is counted, and the call made. -/
def placeCall (a : Announcing) (node : Node) (w : World) : Except LinkError Call × World :=
  (w.count a.node .connectAttempt).call node.address a.target (.service node.config.service.uuid)
    node.config.session.connectTimeout

/-- What one step of `a` can be, for its `node`. -/
inductive Step (a : Announcing) (node : Node) (w : World) : Progress × World → Prop where
  /-- There are no attempts left, or the radios are not bonded any more. -/
  | barred (stage : a.stage = .ready) (barred : ¬ (a.attempt ≤ node.config.announce.attempts ∧
        w.air.isBonded node.address a.target = true)) : Step a node w (.ended false, w)
  | calls {call : Call} {v : World} (stage : a.stage = .ready)
      (most : a.attempt ≤ node.config.announce.attempts)
      (bonded : w.air.isBonded node.address a.target = true)
      (placed : a.placeCall node w = (.ok call, v)) :
      Step a node w (.going { a with stage := .calling call }, v)
  | refused {fault : LinkError} {v : World} (stage : a.stage = .ready)
      (most : a.attempt ≤ node.config.announce.attempts)
      (bonded : w.air.isBonded node.address a.target = true)
      (placed : a.placeCall node w = (.error fault, v)) :
      Step a node w (a.afterFailure node.config.announce v)
  | reached {call : Call} {stream : LinkEnd} {v : World} (stage : a.stage = .calling call)
      (answer : w.answer? call = some (.ok stream, v)) : Step a node w (a.sendOver node stream v)
  | failed {call : Call} {e : LinkError} {v : World} (stage : a.stage = .calling call)
      (answer : w.answer? call = some (.error e, v)) :
      Step a node w (a.afterFailure node.config.announce v)
  | sent {task : Nat} (stage : a.stage = .sending task)
      (outcome : w.outcome? task = some (.sent true)) :
      Step a node w (.ended true, w.count a.node .announcementSent)
  | unsent {task : Nat} {o : Outcome} (stage : a.stage = .sending task)
      (outcome : w.outcome? task = some o) (ne : o ≠ .sent true) : Step a node w (.ended false, w)
  | resumes {timer : Timer} (stage : a.stage = .pausing timer) (due : w.isDue timer = true) :
      Step a node w (.going { a with stage := .ready }, w)

/-- Whatever `Announcing.step` returns is one of the `Step`s, for the node of `a`. -/
theorem step_of_step {a : Announcing} {w : World} {q : Progress × World} (h : a.step w = some q) :
    ∃ node, w.nodes[a.node]? = some node ∧ a.Step node w q := by
  unfold step at h
  split at h
  · cases h
  next node hnode =>
  refine ⟨node, hnode, ?_⟩
  dsimp only at h
  split at h
  · next hstage =>
    split at h
    · next hgate =>
      split at h
      · next heq =>
        obtain rfl := Option.some.inj h
        exact .calls hstage hgate.1 hgate.2 heq
      · next heq =>
        obtain rfl := Option.some.inj h
        exact .refused hstage hgate.1 hgate.2 heq
    · next hbarred =>
      obtain rfl := Option.some.inj h
      exact .barred hstage hbarred
  · next hstage =>
    split at h
    · cases h
    · next heq =>
      obtain rfl := Option.some.inj h
      exact .reached hstage heq
    · next heq =>
      obtain rfl := Option.some.inj h
      exact .failed hstage heq
  · next hstage =>
    split at h
    · cases h
    · next heq =>
      obtain rfl := Option.some.inj h
      exact .sent hstage heq
    · next o hne heq =>
      obtain rfl := Option.some.inj h
      exact .unsent hstage heq fun ho => hne (ho ▸ rfl)
  · next hstage =>
    split at h
    · next hdue =>
      obtain rfl := Option.some.inj h
      exact .resumes hstage hdue
    · cases h

end Announcing

/-! ### Listening -/

namespace Listening

/-- What one step of the task `t` of `l` can be, for its `node`. -/
inductive Step (t : Nat) (l : Listening) (node : Node) (w : World) : World → Prop where
  | inactive (stage : l.stage = .ready) (idle : node.active = false) :
      Step t l node w (w.finish t .done)
  | radioOff (stage : l.stage = .ready) (off : (w.air.radio node.address).enabled = false) :
      Step t l node w
        ((w.updateNode l.node fun node => { node with active := false }).finish t .done)
  | opens {v : World} {id : Nat} {air : Air} (stage : l.stage = .ready)
      (active : node.active = true) (enabled : (w.air.radio node.address).enabled = true)
      (notices : w.noticesStop t node = (false, v))
      (listen : v.air.listen node.address (.service node.config.service.uuid) = (.ok id, air)) :
      Step t l node w
        (({ v with air } : World).become t (.listening { l with stage := .waiting id }))
  | refused {v : World} {fault : LinkError} {air : Air} (stage : l.stage = .ready)
      (active : node.active = true) (enabled : (w.air.radio node.address).enabled = true)
      (notices : w.noticesStop t node = (false, v))
      (listen : v.air.listen node.address (.service node.config.service.uuid)
        = (.error fault, air)) :
      Step t l node w (({ v with air } : World).pauseListening t l node)
  | takes {v : World} {id : Nat} {stream : LinkEnd} {air : Air} {sender : Address}
      (stage : l.stage = .waiting id) (accept : w.air.accept id = (.connected stream, air))
      (notices : w.noticesStop t node = (false, v)) (remote : air.remote? stream = some sender) :
      Step t l node w (({ v with air } : World).handOver t l id stream sender)
  | fails {v : World} {id : Nat} {fault : LinkError} {air : Air} (stage : l.stage = .waiting id)
      (accept : w.air.accept id = (.error fault, air))
      (notices : w.noticesStop t node = (false, v)) :
      Step t l node w ((({ v with air } : World).closeListener id).pauseListening t l node)
  /-- It is told to stop before it looks at what has come to its listener. -/
  | shuts {v : World} {id : Nat} (stage : l.stage = .waiting id)
      (notices : w.noticesStop t node = (true, v)) :
      Step t l node w ((v.closeListener id).finish t .done)
  /-- It is told to stop while nothing comes. -/
  | shutsIdle {id : Nat} (stage : l.stage = .waiting id)
      (told : World.isListening t node = false) :
      Step t l node w ((w.closeListener id).finish t .done)
  | dealt {r : Nat} (stage : l.stage = .handling r) (ended : (w.outcome? r).isSome = true) :
      Step t l node w (w.become t (.listening { l with stage := .ready }))
  | recovers {v : World} {timer : Timer} (stage : l.stage = .pausing timer)
      (due : w.isDue timer = true) (notices : w.noticesStop t node = (false, v)) :
      Step t l node w (v.become t (.listening { l with stage := .ready }))
  /-- It is told to stop when it would open a listener, or has paused for long enough. -/
  | stops {v : World} (stage : l.stage = .ready ∨ ∃ timer, l.stage = .pausing timer)
      (notices : w.noticesStop t node = (true, v)) : Step t l node w (v.finish t .done)
  /-- It is told to stop while it pauses. -/
  | stopsIdle {timer : Timer} (stage : l.stage = .pausing timer)
      (told : World.isListening t node = false) : Step t l node w (w.finish t .done)

variable {t : Nat} {l : Listening} {node : Node} {w u : World}

theorem step_of_beginListening (hstage : l.stage = .ready) :
    l.Step t node w (w.beginListening t l node) := by
  unfold World.beginListening
  split
  · next hidle => exact .inactive hstage (by simpa using hidle)
  next hactive =>
  have hactive : node.active = true := by simpa using hactive
  split
  · next hoff => exact .radioOff hstage (by simpa using hoff)
  next hon =>
  have hon : (w.air.radio node.address).enabled = true := by simpa using hon
  split
  · next hnotices => exact .stops (.inl hstage) hnotices
  · next hnotices =>
    split
    · next hlisten => exact .opens hstage hactive hon hnotices hlisten
    · next hlisten => exact .refused hstage hactive hon hnotices hlisten

theorem step_of_stepWaiting {id : Nat} (hstage : l.stage = .waiting id)
    (h : w.stepWaiting t l node id = some u) : l.Step t node w u := by
  unfold World.stepWaiting at h
  split at h
  · split at h
    · cases h
    · next htold =>
      obtain rfl := Option.some.inj h
      exact .shutsIdle hstage (by simpa using htold)
  · next haccept =>
    split at h
    · next hnotices =>
      obtain rfl := Option.some.inj h
      exact .shuts hstage hnotices
    · next hnotices =>
      obtain rfl := Option.some.inj h
      exact .fails hstage haccept hnotices
  · next haccept =>
    split at h
    · next hnotices =>
      obtain rfl := Option.some.inj h
      exact .shuts hstage hnotices
    · next hnotices =>
      obtain ⟨sender, hremote, rfl⟩ := Option.map_eq_some_iff.1 h
      exact .takes hstage haccept hnotices hremote

/-- Whatever `stepListening` returns is one of the `Step`s, for the node of `l`. -/
theorem step_of_stepListening (h : w.stepListening t l = some u) :
    ∃ node, w.nodes[l.node]? = some node ∧ l.Step t node w u := by
  unfold World.stepListening at h
  split at h
  · cases h
  next node hnode =>
  refine ⟨node, hnode, ?_⟩
  dsimp only at h
  split at h
  · next hstage =>
    obtain rfl := Option.some.inj h
    exact step_of_beginListening hstage
  · next hstage => exact step_of_stepWaiting hstage h
  · next hstage =>
    split at h
    · next hended =>
      obtain rfl := Option.some.inj h
      exact .dealt hstage hended
    · cases h
  · next timer hstage =>
    split at h
    · next hdue =>
      split at h
      · next hnotices =>
        obtain rfl := Option.some.inj h
        exact .stops (.inr ⟨timer, hstage⟩) hnotices
      · next hnotices =>
        obtain rfl := Option.some.inj h
        exact .recovers hstage hdue hnotices
    · split at h
      · cases h
      · next htold =>
        obtain rfl := Option.some.inj h
        exact .stopsIdle hstage (by simpa using htold)

end Listening

/-! ### Asking whether a session holds a connection -/

namespace Inspecting

/-- What a step of `i` can be for task `t`, with its session `x`. -/
inductive Step (t : Nat) (i : Inspecting) (x : Session) (w : World) : World → Prop where
  | follows (queued : i.queued = true) (turn : x.holder = some t) :
      Step t i x w ((w.unlock i.session).finish t (.holds x.held.isSome))
  | looks (free : x.holder = none) : Step t i x w (w.finish t (.holds x.held.isSome))
  | queues {holder : Nat} (busy : x.holder = some holder) :
      Step t i x w
        ((w.updateSession i.session fun x => { x with waiting := x.waiting ++ [t] }).become t
          (.inspecting { i with queued := true }))

/-- Whatever `stepInspecting` returns is one of the `Step`s, for the session of `i`. -/
theorem step_of_stepInspecting {t : Nat} {i : Inspecting} {w u : World}
    (h : w.stepInspecting t i = some u) :
    ∃ x, w.sessions[i.session]? = some x ∧ i.Step t x w u := by
  unfold World.stepInspecting at h
  split at h
  · cases h
  next x hx =>
  refine ⟨x, hx, ?_⟩
  split at h
  · next hqueued =>
    split at h
    · next hturn =>
      obtain rfl := Option.some.inj h
      exact .follows hqueued hturn
    · cases h
  · split at h
    · next hfree =>
      obtain rfl := Option.some.inj h
      exact .looks hfree
    · next hbusy =>
      obtain rfl := Option.some.inj h
      exact .queues hbusy

end Inspecting

/-! ### Peers without a node -/

namespace Serving

/-- What a step of `s` can be for task `t`. -/
inductive Step (t : Nat) (s : Serving) (w : World) : World → Prop where
  | connected {stream : LinkEnd} {air : Air} (idle : s.stream = none)
      (accept : w.air.accept s.listener = (.connected stream, air)) :
      Step t s w (({ w with air } : World).become t (.serving { s with stream := some stream }))
  | fails {fault : LinkError} {air : Air} (idle : s.stream = none)
      (accept : w.air.accept s.listener = (.error fault, air)) :
      Step t s w (({ w with air := air.closeListener s.listener } : World).finish t .done)
  | shuts {stream : LinkEnd} (serves : s.stream = some stream) :
      Step t s w (({ w with
        air := ((w.air.shutdown stream).drop stream).closeListener s.listener } : World).finish
          t .done)
  | takes {stream : LinkEnd} {count : Nat} {air : Air} (serves : s.stream = some stream)
      (write : w.air.write stream s.content = (.taken count, air)) :
      Step t s w (({ w with air } : World).become t
        (.serving { s with content := s.content.drop count }))
  | breaks {stream : LinkEnd} {air : Air} (serves : s.stream = some stream)
      (write : w.air.write stream s.content = (.broken, air)) :
      Step t s w
        (({ w with air := (air.drop stream).closeListener s.listener } : World).finish t .done)

/-- Whatever `stepServing` returns is one of the `Step`s. -/
theorem step_of_stepServing {t : Nat} {s : Serving} {w u : World}
    (h : w.stepServing t s = some u) : s.Step t w u := by
  unfold World.stepServing at h
  dsimp only at h
  split at h
  · next hidle =>
    split at h
    · cases h
    · next haccept =>
      obtain rfl := Option.some.inj h
      exact .connected hidle haccept
    · next haccept =>
      obtain rfl := Option.some.inj h
      exact .fails hidle haccept
  · next hserves =>
    split at h
    · split at h
      · cases h
      · obtain rfl := Option.some.inj h
        exact .shuts hserves
    · split at h
      · next hwrite =>
        obtain rfl := Option.some.inj h
        exact .takes hserves hwrite
      · cases h
      · next hwrite =>
        obtain rfl := Option.some.inj h
        exact .breaks hserves hwrite

end Serving

namespace Capturing

/-- What a step of `c` can be for task `t`. -/
inductive Step (t : Nat) (c : Capturing) (w : World) : World → Prop where
  | connected {stream : LinkEnd} {air : Air} (idle : c.reading = none)
      (accept : w.air.accept c.listener = (.connected stream, air)) :
      Step t c w (({ w with air } : World).become t
        (.capturing { c with reading := some (stream, []) }))
  | fails {fault : LinkError} {air : Air} (idle : c.reading = none)
      (accept : w.air.accept c.listener = (.error fault, air)) :
      Step t c w (({ w with air := air.closeListener c.listener } : World).finish t .done)
  | reads {stream : LinkEnd} {pieces : List Bytes} {bytes : Bytes} {air : Air}
      (reading : c.reading = some (stream, pieces))
      (read : w.air.read stream World.captureSize = (.data bytes, air)) :
      Step t c w (({ w with air } : World).become t
        (.capturing { c with reading := some (stream, bytes :: pieces) }))
  /-- It keeps what the connection has brought. -/
  | keeps {stream : LinkEnd} {pieces : List Bytes} {sender : Address}
      {result : ReadResult} {air : Air} (reading : c.reading = some (stream, pieces))
      (read : w.air.read stream World.captureSize = (result, air))
      (remote : air.remote? stream = some sender) :
      Step t c w (({ w with
          air := air.drop stream
          sinks := w.sinks.modify c.sink
            (· ++ [(sender, pieces.reverse.flatten)]) } : World).become t
        (.capturing { c with reading := none }))

/-- Whatever `stepCapturing` returns is one of the `Step`s. -/
theorem step_of_stepCapturing {t : Nat} {c : Capturing} {w u : World}
    (h : w.stepCapturing t c = some u) : c.Step t w u := by
  unfold World.stepCapturing at h
  split at h
  · next hidle =>
    split at h
    · cases h
    · next haccept =>
      obtain rfl := Option.some.inj h
      exact .connected hidle haccept
    · next haccept =>
      obtain rfl := Option.some.inj h
      exact .fails hidle haccept
  · next hreading =>
    split at h
    · cases h
    · next hread =>
      obtain rfl := Option.some.inj h
      exact .reads hreading hread
    · next hread =>
      split at h
      · cases h
      · next hremote =>
        obtain rfl := Option.some.inj h
        exact .keeps hreading hread hremote

end Capturing

/-! ### Going on and ending -/

namespace World

variable {t : Nat} {w u : World}

theorem exists_of_stepConnecting {r : Retry} (h : w.stepConnecting t r = some u) :
    (∃ r' v, r.step w = some (.going r', v) ∧ u = v.become t (.connecting r')) ∨
      ∃ q o, r.step w = some q ∧ u = q.2.finish t o := by
  unfold stepConnecting at h
  split at h
  · cases h
  · next heq => exact .inl ⟨_, _, heq, (Option.some.inj h).symm⟩
  all_goals
    next heq => exact .inr ⟨_, _, heq, (Option.some.inj h).symm⟩

theorem exists_of_stepHandling {d : Handling} (h : w.stepHandling t d = some u) :
    (∃ d' v, d.step w = some (.going d', v) ∧ u = v.become t (.handling d')) ∨
      ∃ q o, d.step w = some q ∧ u = q.2.finish t o := by
  unfold stepHandling at h
  split at h
  · cases h
  · next heq => exact .inl ⟨_, _, heq, (Option.some.inj h).symm⟩
  all_goals
    next heq => exact .inr ⟨_, _, heq, (Option.some.inj h).symm⟩

theorem exists_of_stepAccepting {a : Accepting} (h : w.stepAccepting t a = some u) :
    (∃ a' v, a.step w = some (.going a', v) ∧ u = v.become t (.accepting a')) ∨
      ∃ q o, a.step w = some q ∧ u = q.2.finish t o := by
  unfold stepAccepting at h
  split at h
  · cases h
  · next heq => exact .inl ⟨_, _, heq, (Option.some.inj h).symm⟩
  all_goals
    next heq => exact .inr ⟨_, _, heq, (Option.some.inj h).symm⟩

theorem exists_of_stepAnnouncing {a : Announcing} (h : w.stepAnnouncing t a = some u) :
    (∃ a' v, a.step w = some (.going a', v) ∧ u = v.become t (.announcing a')) ∨
      ∃ q o, a.step w = some q ∧ u = q.2.finish t o := by
  unfold stepAnnouncing at h
  split at h
  · cases h
  · next heq => exact .inl ⟨_, _, heq, (Option.some.inj h).symm⟩
  all_goals
    next heq => exact .inr ⟨_, _, heq, (Option.some.inj h).symm⟩

end World
end RadioLink

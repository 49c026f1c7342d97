import RadioLink.World.Connecting

/-!
# Sending

A session sends one frame at a time, and one frame over a connection. A send first gets the
session's connection to itself (`Session.holder`), waiting its turn if it has to. Then it uses the
connection that the session holds, if that is still usable, or connects with retries. When the frame
is out, or something has gone wrong, the connection is closed and the next send has its turn.
-/

namespace RadioLink

namespace World

/-- Gives the connection of the session `s` to the task that has waited longest. -/
def unlock (w : World) (s : Nat) : World :=
  w.updateSession s fun x =>
    match x.waiting with
    | [] => { x with holder := none }
    | t :: rest => { x with holder := some t, waiting := rest }

/-- Drops the connection that the session `s` holds, unless a task has it to itself. -/
def release (w : World) (s : Nat) : World :=
  match w.sessions[s]? with
  | none => w
  | some x =>
    match x.holder, x.held with
    | none, some e => (w.updateSession s fun x => { x with held := none }).drop e
    | _, _ => w

/-- Ends a send, with the `size` of the frame if it is out. The next send has its turn. -/
def finishSending (w : World) (t : Nat) (s : Sending) (x : Session) (size : Option Nat) : World :=
  let w := w.unlock s.session
  match size with
  | some size => (w.count x.node (.frameSent (UInt64.ofNat size))).finish t (.sent true)
  | none => (w.count x.node .sendFailure).finish t (.sent false)

/-- Begins to write the frame of `s` on `stream`. -/
def beginWriting (w : World) (t : Nat) (s : Sending) (x : Session) (node : Node)
    (stream : LinkEnd) : World :=
  let w := w.cancelDiscovery node
  match Outflow.start s.message s.payload with
  | .error _ => (w.drop stream).finishSending t s x none
  | .ok rest =>
    let deadline := w.timer node.config.session.writeTimeout
    w.withTimer.become t (.sending { s with stage := .writing stream rest deadline })

/-- Takes the connection out of the session `x`, whose turn it is, and uses it or makes a new one.
-/
def takeConnection (w : World) (t : Nat) (s : Sending) (x : Session) (node : Node) : World :=
  let w := w.updateSession s.session fun x => { x with held := none }
  match x.held.filter w.air.isUsable with
  | some stream => w.beginWriting t s x node stream
  | none =>
    w.become t
      (.sending { s with stage := .connecting (Retry.start x.node x.peer.address) x.held })

/-- One step of writing a frame, unless it has to wait. -/
def stepWriting (w : World) (t : Nat) (s : Sending) (x : Session) (stream : LinkEnd)
    (rest : Outflow) (deadline : Timer) : Option World :=
  let go (w : World) (rest : Outflow) : World :=
    w.become t (.sending { s with stage := .writing stream rest deadline })
  let fail (w : World) : World := (w.drop stream).finishSending t s x none
  let wait : Option World := if w.isDue deadline then some (fail w) else none
  match rest.next with
  | .write =>
    match w.air.write stream rest.pending with
    | (.taken count, air) => some (go { w with air } (rest.take count))
    | (.full, _) => wait
    | (.broken, air) => some (fail { w with air })
  | .load rest => some (go w rest)
  | .flush rest => some (go w rest)
  | .shutdown rest => some (go { w with air := w.air.shutdown stream } rest)
  | .wait => wait
  | .abort => some (fail w)
  | .fault _ => some (fail w)
  | .done => some ((w.drop stream).finishSending t s x (some rest.written))

/-- One step of a send, unless it has to wait. -/
def stepSending (w : World) (t : Nat) (s : Sending) : Option World :=
  match w.sessions[s.session]? with
  | none => none
  | some x =>
    match w.nodes[x.node]? with
    | none => none
    | some node =>
      match s.stage with
      | .ready =>
        match x.holder with
        | none =>
          let w := w.updateSession s.session fun x => { x with holder := some t }
          some (w.takeConnection t s x node)
        | some _ =>
          let w := w.updateSession s.session fun x => { x with waiting := x.waiting ++ [t] }
          some (w.become t (.sending { s with stage := .queued }))
      | .queued => if x.holder = some t then some (w.takeConnection t s x node) else none
      | .connecting retry stale =>
        match retry.step w with
        | none => none
        | some (.going retry, w) =>
          some (w.become t (.sending { s with stage := .connecting retry stale }))
        | some (.connected stream, w) =>
          let w := stale.elim w w.drop
          some (w.beginWriting t s x node stream)
        | some (.failed _, w) =>
          let w := stale.elim w w.drop
          some (w.finishSending t s x none)
      | .writing stream rest deadline => w.stepWriting t s x stream rest deadline

/-- One step of asking a session whether it holds a connection, unless a task has it to itself. -/
def stepInspecting (w : World) (t : Nat) (i : Inspecting) : Option World :=
  match w.sessions[i.session]? with
  | none => none
  | some x =>
    if i.queued then
      if x.holder = some t then
        some ((w.unlock i.session).finish t (.holds x.held.isSome))
      else none
    else
      match x.holder with
      | none => some (w.finish t (.holds x.held.isSome))
      | some _ =>
        let w := w.updateSession i.session fun x => { x with waiting := x.waiting ++ [t] }
        some (w.become t (.inspecting { i with queued := true }))

end World

/-! ### Asking for a send -/

/-- The send of `m` through a session; a payload attached to it goes ahead of it. -/
def Sending.ofMessage (session : Nat) (m : Message) : Sending where
  session := session
  message := m.withoutPayload
  payload := m.payload.map .bytes

/-- The send of `m` through a session, encrypted for the owner of `key`. Only the message is
encrypted. There is nothing to send once the application of the session's node is gone. -/
def World.encryptedSending? (w : World) (session : Nat) (m : Message) (key : X25519.Key) :
    Option Sending × World :=
  match w.sessions[session]? with
  | none => (none, w)
  | some x =>
    if x.detached then (none, w)
    else
      let message :=
        Envelope.sealFor w.suite (w.entropy.key w.draws) (w.entropy.nonce w.draws) key
          m.withoutPayload
      (some ⟨session, message, m.payload.map .bytes, .ready⟩, { w with draws := w.draws + 1 })

end RadioLink

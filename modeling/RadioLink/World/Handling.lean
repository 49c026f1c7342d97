import RadioLink.World.Registry

/-!
# Handling inbound messages

An encrypted message is opened first (`opened`), and dropped if that fails. A payload that is served
separately is fetched from the peer of the session; if that fails, for whatever reason, the message
is delivered without it. Every other message is delivered once.
-/

namespace RadioLink

namespace Handling

/-- How handling a message goes on after a step. -/
inductive Progress where
  | going (next : Handling)
  /-- The message has been delivered or dropped. -/
  | done
  /-- The task is aborted. -/
  | abort

/-- Hands `m` to the application of the node `n`. -/
def deliver (m : Message) (n : Nat) (node : Node) (w : World) : Progress × World :=
  if node.app.faulty = some .deliver then (.abort, w)
  else (.done, w.updateApp n fun app => { app with delivered := app.delivered ++ [m] })

/-- What `decrypt` makes of a message of the type `.encrypted`, and any other message as it is. A
payload beside the message is kept away from `decrypt` and attached to what it makes. -/
def opened (decrypt : Decryption) (m : Message) : Except LinkError Message :=
  if m.kind = .encrypted then
    match decrypt m.withoutPayload with
    | .error e => .error e
    | .ok inner => .ok (m.payload.elim inner inner.setPayload)
  else .ok m

/-- Begins to fetch a payload over `stream`, unless it is declared to be too large. -/
def beginFetch (h : Handling) (n : Nat) (node : Node) (stream : LinkEnd) (w : World) :
    Progress × World :=
  let limit := node.config.service.maxFrameSize
  let deadline := w.timer node.config.session.payloadTimeout
  let fetch (size : Nat) (exact : Bool) : Progress × World :=
    (.going { h with stage := .fetching { stream, size, exact, deadline } }, w.withTimer)
  match h.message.payloadSize with
  | none => fetch limit false
  | some size =>
    match Frame.checkPayloadSize size limit with
    | .error _ => deliver h.message n node (w.drop stream)
    | .ok size => fetch size true

/-- The first step: the message is opened, and its payload called for. -/
def begin (h : Handling) (x : Session) (node : Node) (w : World) : Progress × World :=
  if x.detached then (.done, w)
  else
    match opened node.app.decrypt h.message with
    | .error _ => (.done, w.count x.node .decryptionFailure)
    | .ok m =>
      match m.payload, m.transfer with
      | none, some transfer =>
        let w := w.cancelDiscovery node
        match w.call node.address x.peer.address (.channel transfer.channel.toNat)
            node.config.session.connectTimeout with
        | (.error _, w) => deliver m x.node node w
        | (.ok call, w) => (.going { h with message := m, stage := .calling call }, w)
      | _, _ => deliver m x.node node w

/-- One step of fetching a payload, unless it has to wait. -/
def stepFetch (h : Handling) (n : Nat) (node : Node) (f : Fetch) (w : World) :
    Option (Progress × World) :=
  let whole (w : World) : Progress × World :=
    deliver (h.message.setPayload f.pieces.reverse.flatten) n node (w.drop f.stream)
  let without (w : World) : Progress × World := deliver h.message n node (w.drop f.stream)
  if f.received = f.size then some (whole w)
  else
    match w.air.read f.stream (f.size - f.received) with
    | (.data bytes, air) =>
      let f := { f with pieces := bytes :: f.pieces, received := f.received + bytes.length }
      some (.going { h with stage := .fetching f }, { w with air })
    | (.ended, air) => some (if f.exact then without { w with air } else whole { w with air })
    | (.fault _, air) => some (without { w with air })
    | (.abort, air) => some (.abort, { w with air }.drop f.stream)
    | (.pending, _) => if w.isDue f.deadline then some (without w) else none

/-- One step of handling a message, unless it has to wait. -/
def step (h : Handling) (w : World) : Option (Progress × World) :=
  match w.sessions[h.session]? with
  | none => none
  | some x =>
    match w.nodes[x.node]? with
    | none => none
    | some node =>
      match h.stage with
      | .ready => some (h.begin x node w)
      | .calling call =>
        match w.answer? call with
        | none => none
        | some (.error _, w) => some (deliver h.message x.node node w)
        | some (.ok stream, w) => some (h.beginFetch x.node node stream w)
      | .fetching fetch => h.stepFetch x.node node fetch w

end Handling

/-- `Handling.step` for the task `t`. -/
def World.stepHandling (w : World) (t : Nat) (h : Handling) : Option World :=
  match h.step w with
  | none => none
  | some (.going h, w) => some (w.become t (.handling h))
  | some (.done, w) => some (w.finish t .done)
  | some (.abort, w) => some (w.finish t .aborted)

end RadioLink

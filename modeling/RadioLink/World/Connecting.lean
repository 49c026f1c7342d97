import RadioLink.World.Basic

/-!
# Connecting

An attempt to connect waits to be accepted, but not for ever (`World.call`, `World.answer?`). With
retries, the first attempts look up the service and the later ones try a channel; after each that
fails there is a pause, `SessionConfig.backoffFor`, which grows from one to the next, but none after
the last. Whatever goes wrong, only the number of attempts is reported in the end.
-/

namespace RadioLink

namespace World

/-- Makes an attempt to connect that has `limit` to be accepted. -/
def call (w : World) (caller target : Address) (e : Endpoint) (limit : Nat) :
    Except LinkError Call × World :=
  match w.air.connect caller target e with
  | (.error fault, air) => (.error fault, { w with air })
  | (.ok link, air) => (.ok ⟨link, w.timer limit⟩, { w with air }.withTimer)

/-- What has become of the attempt `c`, unless it still waits. If it comes to nothing in time it is
given up. -/
def answer? (w : World) (c : Call) : Option (Except LinkError LinkEnd × World) :=
  match w.air.answer? c.link with
  | some r => some (r, w)
  | none =>
    if w.isDue c.deadline then some (.error .timeout, { w with air := w.air.abandon c.link })
    else none

/-- The channel of `fallbackChannels` that a draw gives when looking up the service has failed. -/
def fallbackChannel (draw : Nat) : Nat :=
  fallbackChannels.1 + draw % (fallbackChannels.2 - fallbackChannels.1 + 1)

/-- Draws a number. -/
def drawNumber (w : World) : Nat × World :=
  (w.entropy.number w.draws, { w with draws := w.draws + 1 })

end World

namespace Retry

/-- How connecting with retries goes on after a step. -/
inductive Progress where
  | going (next : Retry)
  | connected (stream : LinkEnd)
  | failed (error : LinkError)

/-- The first of the attempts of `node` to connect to `target`. -/
def start (node : Nat) (target : Address) : Retry := ⟨node, target, 1, .ready⟩

/-- Where the attempt is made. -/
def endpoint (r : Retry) (c : LinkConfig) (w : World) : Endpoint × World :=
  if r.attempt ≤ c.session.serviceLookupAttempts then (.service c.service.uuid, w)
  else
    let (n, w) := w.drawNumber
    (.channel (World.fallbackChannel n), w)

/-- Goes on after an attempt that has failed. -/
def afterFailure (r : Retry) (c : LinkConfig) (w : World) : Progress × World :=
  let w := w.count r.node .connectFailure
  if r.attempt < c.session.connectAttempts then
    (.going ⟨r.node, r.target, r.attempt + 1,
        .pausing (w.timer (c.session.backoffFor r.attempt))⟩, w.withTimer)
  else (.failed (.attemptsExhausted c.session.connectAttempts), w)

/-- One step of connecting with retries, unless it has to wait. -/
def step (r : Retry) (w : World) : Option (Progress × World) :=
  match w.nodes[r.node]? with
  | none => none
  | some node =>
    let c := node.config
    match r.stage with
    | .ready =>
      if r.attempt ≤ c.session.connectAttempts then
        let (e, w) := r.endpoint c w
        let w := w.count r.node .connectAttempt
        match w.call node.address r.target e c.session.connectTimeout with
        | (.ok call, w) => some (.going { r with stage := .calling call }, w)
        | (.error _, w) => some (r.afterFailure c w)
      else some (.failed (.attemptsExhausted c.session.connectAttempts), w)
    | .calling call =>
      match w.answer? call with
      | none => none
      | some (.ok stream, w) => some (.connected stream, w)
      | some (.error _, w) => some (r.afterFailure c w)
    | .pausing timer =>
      if w.isDue timer then some (.going { r with stage := .ready }, w) else none

end Retry

/-- `Retry.step` for the task `t`. -/
def World.stepConnecting (w : World) (t : Nat) (r : Retry) : Option World :=
  match r.step w with
  | none => none
  | some (.going r, w) => some (w.become t (.connecting r))
  | some (.connected stream, w) => some (w.finish t (.connected (.ok stream)))
  | some (.failed e, w) => some (w.finish t (.connected (.error e)))

end RadioLink

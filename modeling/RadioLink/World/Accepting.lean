import RadioLink.World.Handling

/-!
# Taking connections in

An inbound connection carries one frame. It is read to its end and decoded, within `readTimeout`,
and the connection is closed. An announcement registers a session for the peer (`takeIdentity`),
unless the device hears itself. Any other message goes to the session registered for the sender's
address, or else to the session that the application uses for the device it comes from
(`sessionFor?`).
-/

namespace RadioLink

/-- Reads at most `size` bytes from an inbound connection. -/
def World.readInbound (w : World) (size : Nat) : Inbound → ReadResult × Inbound × World
  | .link e =>
    let (r, air) := w.air.read e size
    (r, .link e, { w with air })
  | .script s =>
    let (r, s) := s.read size
    (r, .script s, w)

/-- Lets go of an inbound connection. -/
def World.dropInbound (w : World) : Inbound → World
  | .link e => w.drop e
  | .script _ => w

namespace Accepting

/-- How taking a connection in goes on after a step. -/
inductive Progress where
  | going (next : Accepting)
  | ended (result : Except LinkError Unit)
  /-- The task is aborted. -/
  | abort

/-- What a step of handling the message makes of `a`. -/
def ofHandling (a : Accepting) : Handling.Progress × World → Progress × World
  | (.going h, w) => (.going { a with stage := .handling h }, w)
  | (.done, w) => (.ended (.ok ()), w)
  | (.abort, w) => (.abort, w)

/-- Takes in the announcement `m`: a fresh session for its device, unless that is the node's own. -/
def takeIdentity (a : Accepting) (node : Node) (m : Message) (w : World) :
    Except LinkError Unit × World :=
  match m.deviceId? with
  | none => (.error (.malformedFrame .noDeviceId), w)
  | some id =>
    if id = node.app.deviceId then (.ok (), w)
    else (.ok (), w.welcome a.node m a.sender (node.app.resolve (some id) a.sender))

/-- The session that the message `m` from `a.sender` goes to. -/
def sessionFor? (a : Accepting) (node : Node) (m : Message) : Option Nat :=
  match node.registry.get? a.sender with
  | some s => some s
  | none => (node.app.resolve m.deviceId? a.sender).bind node.app.current.get?

/-- Takes in the message `m`, by its route. -/
def take (a : Accepting) (node : Node) (m : Message) (w : World) : Progress × World :=
  match m.route with
  | .identity =>
    let (r, w) := a.takeIdentity node m w
    (.ended r, w)
  | .session =>
    match a.sessionFor? node m with
    | some session => (.going { a with stage := .handling { session, message := m } }, w)
    | none =>
      (.ended (.error (.routing (.noSession m.kind.name a.sender))),
        w.count a.node .routingFailure)

/-- Ends with an error in reading the frame, which is counted if it `isFraming`. -/
def refuse (a : Accepting) (e : LinkError) (w : World) : Progress × World :=
  (.ended (.error e), if e.isFraming then w.count a.node .framingError else w)

/-- Goes on when the connection has ended. -/
def finishReading (a : Accepting) (node : Node) (intake : Intake) (w : World) :
    Progress × World :=
  match intake.finish with
  | .error e => a.refuse e w
  | .ok (frame, size) =>
    a.take node frame.intoMessage (w.count a.node (.frameReceived (UInt64.ofNat size)))

/-- One step of taking a connection in, unless it has to wait. -/
def step (a : Accepting) (w : World) : Option (Progress × World) :=
  match w.nodes[a.node]? with
  | none => none
  | some node =>
    match a.stage with
    | .ready source =>
      let w := (w.count a.node .connectionAccepted).cancelDiscovery node
      let intake := Intake.start node.config.service.maxFrameSize
      let deadline := w.timer node.config.listener.readTimeout
      some (.going { a with stage := .reading source intake deadline }, w.withTimer)
    | .reading source intake deadline =>
      let intake := intake.reserve
      match w.readInbound intake.room source with
      | (.data bytes, source, w) =>
        match intake.add bytes with
        | .ok intake => some (.going { a with stage := .reading source intake deadline }, w)
        | .error e => some (a.refuse e (w.dropInbound source))
      | (.pending, source, w) =>
        if w.isDue deadline then some (a.refuse .timeout (w.dropInbound source)) else none
      | (.abort, source, w) => some (.abort, w.dropInbound source)
      | (_, source, w) => some (a.finishReading node intake (w.dropInbound source))
    | .handling h => (h.step w).map a.ofHandling

end Accepting

/-- `Accepting.step` for the task `t`. -/
def World.stepAccepting (w : World) (t : Nat) (a : Accepting) : Option World :=
  match a.step w with
  | none => none
  | some (.going a, w) => some (w.become t (.accepting a))
  | some (.ended r, w) => some (w.finish t (.accepted r))
  | some (.abort, w) => some (w.finish t .aborted)

end RadioLink

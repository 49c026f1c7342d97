import RadioLink.World.Registry

/-!
# Announcing

A node says who it is to each of its peers, once. It tries to connect a few times with a pause in
between, and before each attempt makes sure that the peer is still bonded with its radio. Over the
first connection that comes about it sends `Application.announcement`; whatever happens then, it
does not try again.
-/

namespace RadioLink

namespace Announcing

/-- How announcing goes on after a step. -/
inductive Progress where
  | going (next : Announcing)
  | ended (sent : Bool)
  /-- The task is aborted. -/
  | abort

/-- Goes on after an attempt that has failed. -/
def afterFailure (a : Announcing) (c : AnnounceConfig) (w : World) : Progress × World :=
  let w := w.count a.node .connectFailure
  if a.attempt < c.attempts then
    (.going { a with attempt := a.attempt + 1, stage := .pausing (w.timer c.retryBackoff) },
      w.withTimer)
  else (.ended false, w)

/-- Sends the announcement over `stream`, through a session that nobody else knows of. -/
def sendOver (a : Announcing) (node : Node) (stream : LinkEnd) (w : World) : Progress × World :=
  if node.app.faulty = some .announce then (.abort, w.drop stream)
  else
    let session := w.sessions.size
    let w := w.addSession { Session.ofPeer a.node ⟨a.target, none⟩ with held := some stream }
    let task := w.tasks.size
    (.going { a with stage := .sending task },
      w.spawn (.sending (.ofMessage session node.app.announcement)))

/-- One step of announcing, unless it has to wait. -/
def step (a : Announcing) (w : World) : Option (Progress × World) :=
  match w.nodes[a.node]? with
  | none => none
  | some node =>
    let c := node.config
    match a.stage with
    | .ready =>
      if a.attempt ≤ c.announce.attempts ∧ w.air.isBonded node.address a.target then
        let w := w.count a.node .connectAttempt
        match w.call node.address a.target (.service c.service.uuid) c.session.connectTimeout with
        | (.ok call, w) => some (.going { a with stage := .calling call }, w)
        | (.error _, w) => some (a.afterFailure c.announce w)
      else some (.ended false, w)
    | .calling call =>
      match w.answer? call with
      | none => none
      | some (.ok stream, w) => some (a.sendOver node stream w)
      | some (.error _, w) => some (a.afterFailure c.announce w)
    | .sending task =>
      match w.outcome? task with
      | none => none
      | some (.sent true) => some (.ended true, w.count a.node .announcementSent)
      | some _ => some (.ended false, w)
    | .pausing timer => if w.isDue timer then some (.going { a with stage := .ready }, w) else none

end Announcing

/-- `Announcing.step` for the task `t`. -/
def World.stepAnnouncing (w : World) (t : Nat) (a : Announcing) : Option World :=
  match a.step w with
  | none => none
  | some (.going a, w) => some (w.become t (.announcing a))
  | some (.ended sent, w) => some (w.finish t (.sent sent))
  | some (.abort, w) => some (w.finish t .aborted)

end RadioLink

import RadioLink.Air.Basic
import RadioLink.Frame.Intake
import RadioLink.Frame.Outflow

/-!
# Activities

What a task still has to do, with all that it needs to go on: each kind of `Activity` has stages,
and waits in some of them for a connection, for a timer, or for another task. Nodes, sessions and
tasks are known by their numbers.
-/

namespace RadioLink

/-- When something that waits gives up waiting. Of two timers that are `due` at the same time the
one set first, by `serial`, goes off first. -/
structure Timer where
  due : Nat
  serial : Nat
  deriving DecidableEq, Repr

/-- An attempt to connect that waits to be accepted, until `deadline`. -/
structure Call where
  link : Nat
  deadline : Timer

/-- How far an attempt has come. -/
inductive Retry.Stage where
  | ready
  | calling (call : Call)
  | pausing (timer : Timer)

/-- Connecting with retries, for a node. -/
structure Retry where
  node : Nat
  target : Address
  /-- The attempt to be made next, or being made. -/
  attempt : Nat
  stage : Retry.Stage

/-- How far a send has come. -/
inductive Sending.Stage where
  /-- Has not asked for the session's connection yet. -/
  | ready
  /-- Waits for another send to be done. -/
  | queued
  /-- Connects. A held connection that was not usable any more is kept meanwhile. -/
  | connecting (retry : Retry) (stale : Option LinkEnd)
  | writing (stream : LinkEnd) (rest : Outflow) (deadline : Timer)

/-- Sending one frame through a session. -/
structure Sending where
  session : Nat
  message : Message
  payload : Option Payload
  stage : Sending.Stage := .ready

/-- A payload being fetched. -/
structure Fetch where
  stream : LinkEnd
  /-- How many bytes to take at most. -/
  size : Nat
  /-- Whether fewer are too few. -/
  exact : Bool
  /-- The pieces received, the last one first. -/
  pieces : List Bytes := []
  received : Nat := 0
  deadline : Timer

/-- How far the handling of a message has come. -/
inductive Handling.Stage where
  | ready
  | calling (call : Call)
  | fetching (fetch : Fetch)

/-- Handling one inbound message for a session. -/
structure Handling where
  session : Nat
  message : Message
  stage : Handling.Stage := .ready

/-- What a frame is read from. -/
inductive Inbound where
  | link (stream : LinkEnd)
  | script (source : Script)

/-- How far an inbound connection has come. -/
inductive Accepting.Stage where
  | ready (source : Inbound)
  | reading (source : Inbound) (intake : Intake) (deadline : Timer)
  | handling (handling : Handling)

/-- Taking in one connection. -/
structure Accepting where
  node : Nat
  sender : Address
  stage : Accepting.Stage

/-- How far an announcement has come. -/
inductive Announcing.Stage where
  | ready
  | calling (call : Call)
  /-- Waits for a task that sends. -/
  | sending (task : Nat)
  | pausing (timer : Timer)

/-- Announcing a node to one peer. -/
structure Announcing where
  node : Nat
  target : Address
  attempt : Nat := 1
  stage : Announcing.Stage := .ready

/-- What a node that listens is doing. -/
inductive Listening.Stage where
  | ready
  /-- Waits for a connection. -/
  | waiting (listener : Nat)
  /-- Waits for a task that takes a connection in. -/
  | handling (task : Nat)
  | pausing (timer : Timer)

/-- Taking connections in, one after the other. -/
structure Listening where
  node : Nat
  stage : Listening.Stage := .ready

/-- Serving some bytes to whoever connects first. -/
structure Serving where
  listener : Nat
  content : Bytes
  /-- Whether the connection is kept open afterwards. -/
  hold : Bool
  stream : Option LinkEnd := none

/-- Reading every connection to its end, and keeping what it brings. -/
structure Capturing where
  listener : Nat
  sink : Nat
  /-- The connection being read, and the pieces received, the last one first. -/
  reading : Option (LinkEnd × List Bytes) := none

/-- Asking a session whether it holds a connection. -/
structure Inspecting where
  session : Nat
  /-- Whether it waits for a send to be done. -/
  queued : Bool := false

/-- What a task still has to do. -/
inductive Activity where
  | sending (s : Sending)
  | handling (h : Handling)
  | accepting (a : Accepting)
  | announcing (a : Announcing)
  | listening (l : Listening)
  | connecting (r : Retry)
  | inspecting (i : Inspecting)
  | serving (s : Serving)
  | capturing (c : Capturing)

/-- How a task has ended. -/
inductive Outcome where
  | sent (ok : Bool)
  | accepted (result : Except LinkError Unit)
  | connected (result : Except LinkError LinkEnd)
  | holds (connection : Bool)
  | done
  | aborted

/-- Something that is under way, or was. -/
structure Task where
  activity : Activity
  outcome : Option Outcome := none
  /-- Whether it is to be aborted. -/
  cancelled : Bool := false

end RadioLink

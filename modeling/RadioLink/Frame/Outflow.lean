import RadioLink.Frame.Basic
import RadioLink.Stream.Script

/-!
# Sending a frame out

A frame is written piece by piece: its payload, which is at hand or comes from a stream, the
delimiter, and the message; then the writer is flushed and shut down, which ends the frame.
`Outflow.start` checks a payload at hand first and refuses it before a byte is written. One from a
stream is passed on as it comes and not looked at.
-/

namespace RadioLink

/-- A payload to be sent. -/
inductive Payload where
  | bytes (content : Bytes)
  | stream (source : Script)

/-- What the payload is shown as: the number of its bytes, if that is known. -/
def Payload.shown : Payload → String
  | .bytes content => "Bytes(" ++ toString content.length ++ ")"
  | .stream _ => "Stream(..)"

/-- What comes after the piece being written. -/
inductive Outflow.Stage where
  /-- The rest of a streamed payload. -/
  | source (source : Script)
  | delimiter
  | message
  | flush
  | shutdown
  | done

/-- A frame on its way out. -/
structure Outflow where
  /-- The bytes of the message. -/
  message : Bytes
  /-- What has not been taken yet of the piece being written. -/
  pending : Bytes
  stage : Outflow.Stage
  /-- The number of bytes taken by the writer. -/
  written : Nat

namespace Outflow

/-- The most bytes that are read from a payload's stream at once. -/
def chunk : Nat := 8192

/-- The frame of `message` and a payload, of which nothing has been sent. -/
def start (message : Message) : Option Payload → Except LinkError Outflow
  | none => .ok ⟨message.wire, [], .message, 0⟩
  | some (.stream source) => .ok ⟨message.wire, [], .source source, 0⟩
  | some (.bytes content) =>
    match Frame.checkPayload content with
    | .error e => .error e
    | .ok () => .ok ⟨message.wire, content, .delimiter, 0⟩

/-- What has to be done next to send a frame. -/
inductive Step where
  /-- Write what is pending. -/
  | write
  /-- Nothing: the next piece is at hand. -/
  | load (next : Outflow)
  | flush (next : Outflow)
  | shutdown (next : Outflow)
  /-- Wait for the payload's stream. -/
  | wait
  /-- Abort the task, as the payload's stream does. -/
  | abort
  /-- Give up, as the payload's stream has failed. -/
  | fault (fault : StreamFault)
  | done

/-- What has to be done next. A streamed payload is flushed where it ends. -/
def next (o : Outflow) : Step :=
  if o.pending ≠ [] then .write
  else
    match o.stage with
    | .source source =>
      match source.read chunk with
      | (.data bytes, source) => .load { o with pending := bytes, stage := .source source }
      | (.ended, _) => .flush { o with stage := .delimiter }
      | (.pending, _) => .wait
      | (.abort, _) => .abort
      | (.fault f, _) => .fault f
    | .delimiter => .load { o with pending := Delimiter.bytes, stage := .message }
    | .message => .load { o with pending := o.message, stage := .flush }
    | .flush => .flush { o with stage := .shutdown }
    | .shutdown => .shutdown { o with stage := .done }
    | .done => .done

/-- The frame after the writer has taken `count` of the pending bytes. -/
def take (count : Nat) (o : Outflow) : Outflow :=
  { o with pending := o.pending.drop count, written := o.written + count }

/-- A bound on the number of steps that a frame takes. -/
def steps (o : Outflow) : Nat :=
  match o.stage with
  | .source source => 2 * (source.chunks.length + source.chunks.flatten.length) + 10
  | _ => 10

end Outflow

/-- How writing a frame turns out. -/
inductive WriteOutcome where
  | written (size : Nat)
  | error (error : LinkError)
  /-- The payload's stream never ends. -/
  | silent
  /-- The writing task is aborted. -/
  | abort

/-- Writes the frame to `sink`, in at most `fuel` steps. -/
def Outflow.run (fuel : Nat) (o : Outflow) (sink : Sink) : WriteOutcome × Sink :=
  match fuel with
  | 0 => (.silent, sink)
  | fuel + 1 =>
    match o.next with
    | .write =>
      match sink.write o.pending with
      | (.ok (), sink) => run fuel (o.take o.pending.length) sink
      | (.error f, sink) => (.error (.stream f), sink)
    | .load o => run fuel o sink
    | .flush o => run fuel o sink.flush
    | .shutdown o =>
      match sink.shutdown with
      | (.ok (), sink) => run fuel o sink
      | (.error f, sink) => (.error (.stream f), sink)
    | .wait => (.silent, sink)
    | .abort => (.abort, sink)
    | .fault f => (.error (.stream f), sink)
    | .done => (.written o.written, sink)

/-- Writes the frame of `message` and `payload` to `sink`. -/
def Frame.write (message : Message) (payload : Option Payload) (sink : Sink) :
    WriteOutcome × Sink :=
  match Outflow.start message payload with
  | .error e => (.error e, sink)
  | .ok o => o.run o.steps sink

end RadioLink

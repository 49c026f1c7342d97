import RadioLink.Bytes
import RadioLink.Stream.Fault

/-!
# Scripted streams

A `Script` is a stream whose whole behaviour is known beforehand: the chunks it yields one read at a
time and how it ends. A `Sink` is something to write to, with how much it takes before it fails.
They stand for a peer when one end of a link is looked at alone.
-/

namespace RadioLink

/-- How a scripted stream ends. -/
inductive Script.Ending where
  | ended
  /-- Reading never answers. -/
  | silent
  /-- Reading aborts the task that reads. -/
  | abort
  | fault (fault : StreamFault)
  deriving DecidableEq, Repr

/-- What a stream yields, chunk by chunk, and how it ends. -/
structure Script where
  chunks : List Bytes
  ending : Script.Ending := .ended
  deriving DecidableEq, Repr

/-- What one read brings. -/
inductive ReadResult where
  /-- At least one byte, unless there was no room for any. -/
  | data (bytes : Bytes)
  | ended
  /-- Nothing yet. -/
  | pending
  | abort
  | fault (fault : StreamFault)
  deriving DecidableEq, Repr

namespace Script

/-- Reads into a buffer of `size` bytes: one chunk, or as much of it as fits. An empty chunk reads
as the end. -/
def read (size : Nat) (s : Script) : ReadResult × Script :=
  match s.chunks with
  | [] =>
    match s.ending with
    | .ended => (.ended, s)
    | .silent => (.pending, s)
    | .abort => (.abort, s)
    | .fault f => (.fault f, s)
  | [] :: rest => (.ended, { s with chunks := rest })
  | chunk :: rest =>
    if chunk.length ≤ size then (.data chunk, { s with chunks := rest })
    else (.data (chunk.take size), { s with chunks := chunk.drop size :: rest })

/-- All that the stream yields up to its end. -/
def content (s : Script) : Bytes := (s.chunks.takeWhile (· ≠ [])).flatten

end Script

/-- Something to write to: it takes `room` bytes, or any number, and then fails. -/
structure Sink where
  room : Option Nat
  /-- The fault of writing beyond the room. -/
  fault : StreamFault
  /-- The fault of shutting down, if that fails. -/
  shutdownFault : Option StreamFault
  /-- The pieces taken, the last one first. -/
  pieces : List Bytes := []
  flushed : Bool := false
  shut : Bool := false

namespace Sink

/-- All bytes taken. -/
def taken (s : Sink) : Bytes := s.pieces.reverse.flatten

/-- Writes all of the bytes, or what there is room for. -/
def write (bytes : Bytes) (s : Sink) : Except StreamFault Unit × Sink :=
  match s.room with
  | none => (.ok (), { s with pieces := bytes :: s.pieces })
  | some room =>
    if bytes.length ≤ room then
      (.ok (), { s with pieces := bytes :: s.pieces, room := some (room - bytes.length) })
    else (.error s.fault, { s with pieces := bytes.take room :: s.pieces, room := some 0 })

/-- Marks the bytes written so far as passed on. -/
def flush (s : Sink) : Sink := { s with flushed := true }

/-- Ends the writing. -/
def shutdown (s : Sink) : Except StreamFault Unit × Sink :=
  match s.shutdownFault with
  | none => (.ok (), { s with shut := true })
  | some f => (.error f, s)

end Sink
end RadioLink

import RadioLink.Frame.Codec
import RadioLink.Stream.Script

/-!
# Taking a frame in

A frame is read until its stream ends, in whatever way that happens: a fault of the stream counts as
its end. After each read the size is checked (`Intake.add`).

The buffer grows by doubling, and `Intake.reserve` makes room for at least `Intake.chunk` bytes
before each read, so a read may bring more than that once the buffer has grown.
-/

namespace RadioLink

/-- A frame on its way in. -/
structure Intake where
  limit : Nat
  /-- The pieces received, the last one first. -/
  pieces : List Bytes
  /-- The number of bytes received. -/
  size : Nat
  /-- The number of bytes that the buffer can hold. -/
  capacity : Nat

namespace Intake

/-- The room there is at least before a read. -/
def chunk : Nat := 8192

/-- Nothing received yet. -/
def start (limit : Nat) : Intake := ⟨limit, [], 0, chunk⟩

/-- Makes room before a read. -/
def reserve (r : Intake) : Intake :=
  if r.capacity - r.size < chunk then
    { r with capacity := max (2 * r.capacity) (r.size + chunk) }
  else r

/-- The number of bytes that a read may bring. -/
def room (r : Intake) : Nat := r.capacity - r.size

/-- All bytes received. -/
def received (r : Intake) : Bytes := r.pieces.reverse.flatten

/-- Takes in the bytes that a read has brought, unless that makes too many. -/
def add (r : Intake) (bytes : Bytes) : Except LinkError Intake :=
  let size := r.size + bytes.length
  match Codec.checkSize ⟨r.limit⟩ size with
  | .error e => .error e
  | .ok () => .ok { r with pieces := bytes :: r.pieces, size }

/-- The frame received, and its size. -/
def finish (r : Intake) : Except LinkError (Frame × Nat) :=
  match (Codec.decodeEnd ⟨r.limit⟩ r.received).1 with
  | .error e => .error e
  | .ok none => .error .emptyFrame
  | .ok (some f) => .ok (f, r.size)

end Intake

/-- How reading a frame turns out. -/
inductive ReadOutcome where
  | frame (frame : Frame) (size : Nat)
  | error (error : LinkError)
  /-- The stream never ends. -/
  | silent
  /-- The reading task is aborted. -/
  | abort

/-- Reads a frame from `s`, with as many reads as `fuel` says. -/
def Intake.run (fuel : Nat) (r : Intake) (s : Script) : ReadOutcome :=
  match fuel with
  | 0 => .silent
  | fuel + 1 =>
    let r := r.reserve
    match s.read r.room with
    | (.pending, _) => .silent
    | (.abort, _) => .abort
    | (.ended, _) | (.fault _, _) =>
      match r.finish with
      | .ok (f, n) => .frame f n
      | .error e => .error e
    | (.data bytes, s) =>
      match r.add bytes with
      | .error e => .error e
      | .ok r => run fuel r s

/-- Reads a frame of at most `limit` bytes from `s`. -/
def Frame.read (limit : Nat) (s : Script) : ReadOutcome :=
  (Intake.start limit).run (s.chunks.length + s.chunks.flatten.length + 1) s

end RadioLink

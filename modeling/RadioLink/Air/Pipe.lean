import RadioLink.Bytes
import RadioLink.Stream.Script

/-!
# Pipes

One direction of a link. A pipe holds what has been written and not yet read, up to `capacity`; a
write takes as much as there is room for. Once a pipe is `closed` nothing more can be written, and
reading ends after what it still holds; once it has a `fault`, reading fails after that. To write
nothing, or to read into no room, is done at once whatever the pipe holds.
-/

namespace RadioLink

/-- One direction of a link. -/
structure Pipe where
  content : Bytes := []
  closed : Bool := false
  /-- Why reading fails after what the pipe still holds, if it does. -/
  fault : Option StreamFault := none
  deriving DecidableEq, Repr

namespace Pipe

/-- The number of bytes that a pipe can hold. -/
def capacity : Nat := 65536

/-- What one `write` brings about. -/
inductive Written where
  | taken (count : Nat)
  /-- The pipe is full. -/
  | full
  /-- The pipe is closed. -/
  | broken
  deriving DecidableEq, Repr

/-- Writes as many of the bytes as there is room for. -/
def write (bytes : Bytes) (p : Pipe) : Written × Pipe :=
  let room := capacity - p.content.length
  if bytes = [] then (.taken 0, p)
  else if p.closed then (.broken, p)
  else if room = 0 then (.full, p)
  else (.taken (min bytes.length room), { p with content := p.content ++ bytes.take room })

/-- Reads at most `size` bytes. -/
def read (size : Nat) (p : Pipe) : ReadResult × Pipe :=
  if size = 0 then (.data [], p)
  else if p.content ≠ [] then
    (.data (p.content.take size), { p with content := p.content.drop size })
  else
    match p.fault with
    | some f => (.fault f, p)
    | none => if p.closed then (.ended, p) else (.pending, p)

/-- Ends the writing. -/
def close (p : Pipe) : Pipe := { p with closed := true }

/-- Makes reading fail with `fault` after what is still there. -/
def disrupt (fault : StreamFault) (p : Pipe) : Pipe := { p with fault := some fault }

end Pipe
end RadioLink

import RadioLink.Air.Basic

/-!
# Reading and writing at the ends of links

A link is two pipes, one for each direction: what the end at a side has written is in the `outgoing`
pipe of its half. Letting go of an end closes both: the other end reads what is still there, and can
write no more. What an end writes may be disrupted on the way: then the other end fails to read on.
-/

namespace RadioLink

namespace Link

/-- Writes at the side `s` as much as there is room for. An end that writes into a closed pipe is no
longer usable. -/
def write (l : Link) (s : Side) (bytes : Bytes) : Pipe.Written × Link :=
  let h := l.half s
  match h.outgoing.write bytes with
  | (.broken, p) => (.broken, l.setHalf { h with outgoing := p, usable := false } s)
  | (r, p) => (r, l.setHalf { h with outgoing := p } s)

/-- Reads at the side `s` at most `size` bytes. An end that has read to the end is no longer usable.
-/
def read (l : Link) (s : Side) (size : Nat) : ReadResult × Link :=
  let peer := l.half s.other
  let (r, p) := peer.outgoing.read size
  let l := l.setHalf { peer with outgoing := p } s.other
  match r with
  | .ended => (r, l.setHalf { l.half s with usable := false } s)
  | _ => (r, l)

/-- Ends the writing at the side `s`. -/
def shutdown (l : Link) (s : Side) : Link :=
  let h := l.half s
  l.setHalf { h with outgoing := h.outgoing.close, usable := false } s

/-- Lets go of one end, which closes both pipes. -/
def drop (l : Link) : Link :=
  { l with
    caller := { l.caller with outgoing := l.caller.outgoing.close }
    callee := { l.callee with outgoing := l.callee.outgoing.close } }

/-- Disrupts what the side `s` has written. -/
def disrupt (l : Link) (s : Side) (fault : StreamFault) : Link :=
  let h := l.half s
  l.setHalf { h with outgoing := h.outgoing.disrupt fault } s

end Link

namespace Air

/-- `Link.write` at the end `e`; `broken` where there is no link. -/
def write (air : Air) (e : LinkEnd) (bytes : Bytes) : Pipe.Written × Air :=
  match air.links[e.link]? with
  | none => (.broken, air)
  | some l =>
    let (r, l) := l.write e.side bytes
    (r, air.updateLink e.link fun _ => l)

/-- `Link.read` at the end `e`; `ended` where there is no link. -/
def read (air : Air) (e : LinkEnd) (size : Nat) : ReadResult × Air :=
  match air.links[e.link]? with
  | none => (.ended, air)
  | some l =>
    let (r, l) := l.read e.side size
    (r, air.updateLink e.link fun _ => l)

/-- Ends the writing at `e`. -/
def shutdown (air : Air) (e : LinkEnd) : Air := air.updateLink e.link (·.shutdown e.side)

/-- Lets go of `e`. -/
def drop (air : Air) (e : LinkEnd) : Air := air.updateLink e.link Link.drop

/-- Disrupts what `e` has written. -/
def disrupt (air : Air) (e : LinkEnd) (fault : StreamFault) : Air :=
  air.updateLink e.link (·.disrupt e.side fault)

/-- Whether `e` still seems good for another frame. -/
def isUsable (air : Air) (e : LinkEnd) : Bool :=
  (air.links[e.link]?).any fun l => (l.half e.side).usable

/-- The address at the other end of the link of `e`. -/
def remote? (air : Air) (e : LinkEnd) : Option Address :=
  (air.links[e.link]?).map fun l => (l.half e.side.other).address

/-- Gives up the attempt that is `link`. If it has been accepted already, its end is let go. -/
def abandon (air : Air) (link : Nat) : Air :=
  air.updateLink link fun l =>
    match l.phase with
    | .waiting => { l with phase := .abandoned }
    | .accepted => l.drop
    | _ => l

end Air
end RadioLink

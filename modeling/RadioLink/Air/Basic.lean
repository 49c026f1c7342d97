import RadioLink.Air.Pipe
import RadioLink.Endpoint
import RadioLink.Error
import RadioLink.Table

/-!
# The air

All radios in reach of one another, the listeners they have opened, and the links between them. A
radio is known by its address; one that nobody has switched on yet is off and has no bonds. A
listener hands out the links to its endpoint in the order in which they came. Its endpoint is
registered with its radio, in `Radio.endpoints`, until the listener goes away, another one is opened
there, or the radio is switched off.
-/

namespace RadioLink

/-- A radio. -/
structure Radio where
  enabled : Bool := false
  /-- The radios it is bonded with, in order. -/
  bonded : List Address := []
  /-- The endpoints that can be reached, each with the number of its listener. -/
  endpoints : List (Endpoint × Nat) := []
  /-- How many of the next attempts to connect are to fail. -/
  faults : Nat := 0
  /-- Every attempt to connect so far, by callee and endpoint. -/
  attempts : List (Address × Endpoint) := []
  /-- How often looking for devices has been cancelled. -/
  cancels : Nat := 0

/-- What was opened at `endpoint` of the radio `owner`. -/
structure Listener where
  owner : Address
  endpoint : Endpoint
  /-- The links that nobody has accepted yet, the oldest first. -/
  queue : List Nat := []

/-- One of the two ends of a link. -/
inductive Side where
  | caller | callee
  deriving DecidableEq, Repr

/-- The other one. -/
def Side.other : Side → Side
  | .caller => .callee
  | .callee => .caller

/-- What one end of a link owns. -/
structure Link.Half where
  address : Address
  /-- What this end has written. -/
  outgoing : Pipe := {}
  /-- Whether this end still seems good for another frame. -/
  usable : Bool := true
  deriving DecidableEq, Repr

/-- How far a link has come. -/
inductive Link.Phase where
  /-- Waits in the queue of a listener. -/
  | waiting
  /-- The caller has given up waiting. -/
  | abandoned
  /-- The listener has gone away. -/
  | refused
  | accepted
  deriving DecidableEq, Repr

/-- A connection between two radios. -/
structure Link where
  caller : Link.Half
  callee : Link.Half
  phase : Link.Phase := .waiting
  deriving DecidableEq, Repr

/-- One end of some link. -/
structure LinkEnd where
  link : Nat
  side : Side
  deriving DecidableEq, Repr

namespace Link

/-- What the end at a side owns. -/
def half (l : Link) : Side → Half
  | .caller => l.caller
  | .callee => l.callee

/-- Gives the end at a side something else to own. -/
def setHalf (l : Link) (h : Half) : Side → Link
  | .caller => { l with caller := h }
  | .callee => { l with callee := h }

end Link

/-- All radios in reach of one another. -/
structure Air where
  radios : Table Address Radio := ∅
  /-- The listeners that have not gone away. -/
  listeners : Table Nat Listener := ∅
  links : Array Link := #[]
  /-- The number of listeners that anybody has tried to open. -/
  opened : Nat := 0

namespace Air

/-- The radio at `a`; one that nobody has switched on is `{}`. -/
def radio (air : Air) (a : Address) : Radio := (air.radios.get? a).getD {}

/-- Changes the radio at `a`. -/
def updateRadio (air : Air) (a : Address) (f : Radio → Radio) : Air :=
  { air with radios := air.radios.insert a (f (air.radio a)) }

/-- Changes link `i`. -/
def updateLink (air : Air) (i : Nat) (f : Link → Link) : Air :=
  { air with links := air.links.modify i f }

/-- The most links that may wait for a listener. -/
def backlog : Nat := 16

@[simp] theorem radio_updateRadio (air : Air) (a b : Address) (f : Radio → Radio) :
    (air.updateRadio a f).radio b = if a = b then f (air.radio a) else air.radio b := by
  by_cases h : a = b <;> simp [updateRadio, radio, h]

end Air
end RadioLink

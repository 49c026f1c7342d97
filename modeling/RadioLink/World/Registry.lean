import RadioLink.World.Sending

/-!
# The registry of sessions

A node has at most one session for each address, in `Node.registry`. The application hears of a new
session first and of the one it replaces afterwards, so a device is never without a session in
between. A session that is replaced or removed drops the connection it holds.
-/

namespace RadioLink

/-- The session of `node` with `peer`, which connects when something is sent. -/
def Session.ofPeer (node : Nat) (peer : Peer) : Session where
  node := node
  peer := peer

/-- What the peer is shown as. -/
def Peer.shown (p : Peer) : String :=
  let octets := ", ".intercalate (p.address.octets.toList.map toString)
  let id :=
    match p.deviceId with
    | none => "None"
    | some id => "Some(" ++ Text.quote id ++ ")"
  "PeerIdentity \x7b address: BtAddress([" ++ octets ++ "]), device_id: " ++ id ++ " \x7d"

/-- What the session is shown as. -/
def Session.shown (s : Session) : String :=
  "OutboundSession \x7b peer: " ++ s.peer.shown ++ ", .. \x7d"

namespace World

/-- Adds a session. Its number is the number of sessions there were. -/
def addSession (w : World) (s : Session) : World :=
  { w with sessions := w.sessions.push s }

/-- The session registered with the node `n` for `a`. -/
def registered? (w : World) (n : Nat) (a : Address) : Option Nat :=
  w.nodes[n]?.bind (·.registry.get? a)

/-- The address of the peer of the session `s`. -/
def peerAddress? (w : World) (s : Nat) : Option Address := w.sessions[s]?.map (·.peer.address)

/-- Parts with `s`, a session of the node `n` that is no longer registered. -/
def evict (w : World) (n : Nat) (s : Nat) : World :=
  match w.peerAddress? s with
  | none => w
  | some a => ((w.release s).count n .sessionLost).updateApp n (·.lose a s)

/-- Registers the session `s` of the node `n` for `a`, in place of the one there. The very session
that is there is refused. -/
def register (w : World) (n : Nat) (a : Address) (identity : Message) (s : Nat) :
    Except LinkError Unit × World :=
  match w.peerAddress? s with
  | none => (.ok (), w)
  | some peer =>
    let former := w.registered? n a
    if former = some s then (.error (.registry .duplicateSession), w)
    else
      let w := w.updateNode n fun node => { node with registry := node.registry.insert a s }
      let w := (w.count n .sessionAccepted).updateApp n (·.accept identity peer s)
      match former with
      | none => (.ok (), w)
      | some old => (.ok (), w.evict n old)

/-- Removes the session registered with the node `n` for `a`, if there is one. -/
def unregister (w : World) (n : Nat) (a : Address) : Option Nat × World :=
  match w.registered? n a with
  | none => (none, w)
  | some s =>
    let w := w.updateNode n fun node => { node with registry := node.registry.erase a }
    (some s, w.evict n s)

/-- Registers with the node `n` a fresh session for the peer at `a` that has announced itself, and
notes where the `device` was reached if it is known. -/
def welcome (w : World) (n : Nat) (identity : Message) (a : Address) (device : Option String) :
    World :=
  let w :=
    match device with
    | none => w
    | some id => w.updateApp n (·.bind id a)
  let s := w.sessions.size
  ((w.addSession (.ofPeer n ⟨a, identity.deviceId?⟩)).register n a identity s).2

/-- Whether the session `s` is registered or in use at some node. -/
def isReferred (w : World) (s : Nat) : Bool :=
  w.nodes.any fun node => node.registry.values.contains s || node.app.current.values.contains s

/-- Drops the connection of the session `s` if nobody refers to it any more. -/
def forget (w : World) (s : Nat) : World := if w.isReferred s then w else w.release s

end World
end RadioLink

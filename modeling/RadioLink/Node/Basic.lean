import RadioLink.Config.Limits
import RadioLink.Crypto.Envelope
import RadioLink.Metrics
import RadioLink.Table

/-!
# Nodes

A device that takes part in a link: its settings, the application that uses the link, the sessions
it has with its peers, and the peers it announces itself to. Sessions and tasks are known by their
numbers in a `World`.
-/

namespace RadioLink

/-- What an application is asked to do. -/
inductive Callback where
  /-- To say who the device is. -/
  | announce
  /-- To take a message. -/
  | deliver
  deriving DecidableEq, Repr

/-- What an application hears about the sessions of its device. -/
inductive SessionEvent where
  | accepted (deviceId : String) (address : Address) (session : Nat)
  | lost (address : Address) (session : Nat)
  deriving DecidableEq, Repr

/-- How an application decrypts a message of the type `.encrypted`. The payload beside the message
is taken off before. -/
abbrev Decryption := Message → Except LinkError Message

/-- The application on a device. -/
structure Application where
  deviceId : String
  secret : X25519.Key
  /-- The message in which the device says who it is. -/
  announcement : Message
  /-- `Envelope.openWith`, unless the application brings its own. -/
  decrypt : Decryption := Envelope.openWith .standard secret
  /-- What it fails to do, which aborts the task that asks it to. -/
  faulty : Option Callback := none
  /-- The devices it knows, and where they were last reached. -/
  known : Table String (Option Address) := ∅
  /-- The session it uses for each device. -/
  current : Table String Nat := ∅
  /-- The messages it has taken. -/
  delivered : List Message := []
  /-- What it has heard of its sessions. -/
  events : List SessionEvent := []

namespace Application

/-- Whether the device is known. -/
def knows (app : Application) (deviceId : String) : Bool := (app.known.get? deviceId).isSome

/-- The known device that was last reached at `a`, the first by its identifier. -/
def deviceAt? (app : Application) (a : Address) : Option String :=
  (app.known.entries.find? fun e => e.2 = some a).map (·.1)

/-- The device that a message names as its sender, if it is known, or else `deviceAt? sender`. -/
def resolve (app : Application) (named : Option String) (sender : Address) : Option String :=
  match named.filter app.knows with
  | some id => some id
  | none => app.deviceAt? sender

/-- Notes that a device was reached at `a`, if it is known. -/
def bind (app : Application) (deviceId : String) (a : Address) : Application :=
  if app.knows deviceId then { app with known := app.known.insert deviceId (some a) } else app

/-- Hears of a new session, which becomes the `current` one of the device that announced itself. -/
def accept (app : Application) (identity : Message) (a : Address) (session : Nat) : Application :=
  let id := identity.deviceId?.getD ""
  { app with
    current := app.current.insert id session
    events := app.events ++ [.accepted id a session] }

/-- Hears that a session is gone. -/
def lose (app : Application) (a : Address) (session : Nat) : Application :=
  { app with
    current := app.current.discard (· = session)
    events := app.events ++ [.lost a session] }

end Application

/-- A device that takes part in a link. -/
structure Node where
  address : Address
  config : LinkConfig
  app : Application
  metrics : Metrics := {}
  /-- The session with the peer at each address. -/
  registry : Table Address Nat := ∅
  /-- Whether connections are to be taken in. -/
  active : Bool := false
  /-- The peers to announce to, in order. -/
  bonded : List Address := []
  /-- The task that takes connections in. -/
  listening : Option Nat := none

/-- A node at the address of a radio, unless `config` has problems. -/
def Node.create (dirs : LogPath.Directories) (address : Address) (config : LinkConfig)
    (app : Application) : Except LinkError Node :=
  match config.check dirs with
  | .error e => .error e
  | .ok () => .ok { address, config, app }

/-- The name of the backend that a node runs. -/
def Node.backendName : String := "BluetoothLinkProvider"

end RadioLink

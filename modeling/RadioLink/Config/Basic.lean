import RadioLink.Config.LogPath
import RadioLink.Frame.Basic
import RadioLink.Uuid

/-!
# Configuration

The settings of a link, `LinkConfig`: the service it listens under, how its sessions connect, how it
announces itself, how it takes connections in, and what it logs. Times are in milliseconds.
-/

namespace RadioLink

/-- The service under which every device listens. -/
def serviceUuid : Uuid :=
  ⟨#v[0x69, 0xfd, 0xa3, 0x04, 0xda, 0x91, 0x47, 0x7b, 0xb9, 0x88, 0x28, 0xd4, 0x9c, 0xa9, 0x9c,
      0xf5]⟩

/-- The name of that service. -/
def serviceName : String := "KDE Connect"

/-- The lowest and the highest channel that are tried when looking up the service has failed. -/
def fallbackChannels : Nat × Nat := (2, 29)

/-- The service to listen under, and the largest frame to take in. -/
structure ServiceConfig where
  uuid : Uuid := serviceUuid
  name : String := serviceName
  maxFrameSize : Nat := Frame.defaultLimit
  deriving DecidableEq

/-- How a session connects and sends. -/
structure SessionConfig where
  /-- How often a send tries to connect. -/
  connectAttempts : Nat := 6
  /-- How many of these attempts look up the service; the later ones try a channel. -/
  serviceLookupAttempts : Nat := 2
  connectTimeout : Nat := 10000
  writeTimeout : Nat := 30000
  payloadTimeout : Nat := 30000
  /-- The pause after the first failed attempt. -/
  retryBackoff : Nat := 200
  /-- The longest pause between two attempts. -/
  maxRetryBackoff : Nat := 2000
  deriving DecidableEq

/-- How a device announces itself to each peer. -/
structure AnnounceConfig where
  attempts : Nat := 3
  /-- The pause between two attempts. -/
  retryBackoff : Nat := 500
  deriving DecidableEq

/-- How connections are taken in. -/
structure ListenerConfig where
  /-- How long a whole frame may take. -/
  readTimeout : Nat := 30000
  /-- The pause after listening has failed. -/
  errorBackoff : Nat := 1000
  deriving DecidableEq

/-- How much is logged. -/
inductive LogLevel where
  | error | warn | info | debug | trace
  deriving DecidableEq, Repr

/-- What is logged, and where. -/
structure LoggingConfig where
  appName : String := "rfcomm-link"
  logLevel : LogLevel := .info
  logToConsole : Bool := true
  logToFile : Bool := false
  logFilePath : Option String := none
  jsonFormat : Bool := false
  deriving DecidableEq

/-- All settings of a link. -/
structure LinkConfig where
  service : ServiceConfig := {}
  session : SessionConfig := {}
  announce : AnnounceConfig := {}
  listener : ListenerConfig := {}
  logging : LoggingConfig := {}
  deriving DecidableEq

/-- The pause after a failed attempt, counted from one: `retryBackoff` for each attempt so far, up
to `maxRetryBackoff`. -/
def SessionConfig.backoffFor (c : SessionConfig) (attempt : Nat) : Nat :=
  min (c.retryBackoff * attempt) c.maxRetryBackoff

namespace LogLevel

/-- The levels, the most severe first. -/
def all : List LogLevel := [.error, .warn, .info, .debug, .trace]

/-- The name of the level. -/
def name : LogLevel → String
  | .error => "error"
  | .warn => "warn"
  | .info => "info"
  | .debug => "debug"
  | .trace => "trace"

/-- A letter of the ASCII alphabet as a small one. -/
def lower (c : Char) : Char :=
  if 'A' ≤ c ∧ c ≤ 'Z' then Char.ofNat (c.toNat + 32) else c

/-- The number that `cs` stands for, possibly after a plus sign. -/
def number? (cs : List Char) : Option Nat :=
  let ds := if cs.head? = some '+' then cs.tail else cs
  if ds ≠ [] ∧ ds.all (fun c => '0' ≤ c && c ≤ '9') then
    some (ds.foldl (fun n c => n * 10 + (c.toNat - 48)) 0)
  else none

/-- The level that `s` names, in letters of either case or by its place in `all` counted from one.
-/
def ofString? (s : String) : Option LogLevel :=
  match number? s.toList with
  | some n => if n = 0 then none else all[n - 1]?
  | none => all.find? fun l => l.name.toList = s.toList.map lower

end LogLevel
end RadioLink

import RadioLink.Config.Basic
import RadioLink.Schema.Datum

/-!
# Reading a configuration

A configuration is a `Record` of records. A section that is there has to have all its members, apart
from the path of the log file; a section that is not there has its standard settings.
-/

namespace RadioLink

open Schema

/-- A member whose value is read by `read` and put into the record by `put`. -/
def Schema.Member.ofReader (name : String) (read : Datum → Except Fault α) (put : α → σ → σ)
    (optional : Bool := false) : Member σ where
  name := name
  optional := optional
  set _ d s :=
    match read d with
    | .ok a => .ok (put a s)
    | .error f => .error f

/-- A member that is a record itself and may be left out. -/
def Schema.Member.ofRecord (name : String) (r : Record α) (put : α → σ → σ) : Member σ where
  name := name
  optional := true
  set dialect d s :=
    match r.ofDatum dialect d with
    | .ok a => .ok (put a s)
    | .error f => .error f

/-- The octets of an identifier, `count` of them behind `acc`, which is reversed. -/
def Uuid.octetsOf (acc : List UInt8) : (count : Nat) → List Datum → Except Schema.Fault (List UInt8)
  | 0, _ => .ok acc.reverse
  | _ + 1, [] => .error (.wrongLength 16 "a UUID string")
  | count + 1, d :: rest =>
    match d.u8 with
    | .ok n => octetsOf (UInt8.ofNat n :: acc) count rest
    | .error f => .error f

/-- An identifier: a text, or where the dialect has `octets` a list of them. -/
def Uuid.ofDatum (dialect : Dialect) : Datum → Except Schema.Fault Uuid
  | .string s =>
    match Uuid.ofString s with
    | .ok u => .ok u
    | .error f => .error (.refused ("UUID parsing failed: " ++ f.message))
  | .sequence elements =>
    if dialect.octets then
      match octetsOf [] 16 elements with
      | .ok bs => .ok ((Uuid.ofList? bs).getD Uuid.nil)
      | .error f => .error f
    else .error (.wrongType .sequence "a UUID string")
  | d => .error (.wrongType d.found "a UUID string")

/-- A level by its name. -/
def LogLevel.ofDatum (d : Datum) : Except Fault LogLevel :=
  match d.text with
  | .error f => .error f
  | .ok s =>
    match LogLevel.ofString? s with
    | some l => .ok l
    | none => .error (.refused ("Unknown log level '" ++ s ++ "'"))

/-- The service section. -/
def ServiceConfig.record : Record ServiceConfig where
  name := "ServiceConfig"
  start := {}
  members :=
    [{ name := "uuid"
       set dialect d s :=
        match Uuid.ofDatum dialect d with
        | .ok u => .ok { s with uuid := u }
        | .error f => .error f },
     .ofReader "name" Datum.text fun x s => { s with name := x },
     .ofReader "max_frame_size" Datum.usize fun x s => { s with maxFrameSize := x }]

/-- The session section. -/
def SessionConfig.record : Record SessionConfig where
  name := "SessionConfig"
  start := {}
  members :=
    [.ofReader "connect_attempts" Datum.u32 fun x s => { s with connectAttempts := x },
     .ofReader "service_lookup_attempts" Datum.u32 fun x s =>
      { s with serviceLookupAttempts := x },
     .ofReader "connect_timeout" Datum.u64 fun x s => { s with connectTimeout := x },
     .ofReader "write_timeout" Datum.u64 fun x s => { s with writeTimeout := x },
     .ofReader "payload_timeout" Datum.u64 fun x s => { s with payloadTimeout := x },
     .ofReader "retry_backoff" Datum.u64 fun x s => { s with retryBackoff := x },
     .ofReader "max_retry_backoff" Datum.u64 fun x s => { s with maxRetryBackoff := x }]

/-- The announcer's section. -/
def AnnounceConfig.record : Record AnnounceConfig where
  name := "AnnounceConfig"
  start := {}
  members :=
    [.ofReader "attempts" Datum.u32 fun x s => { s with attempts := x },
     .ofReader "retry_backoff" Datum.u64 fun x s => { s with retryBackoff := x }]

/-- The listener's section. -/
def ListenerConfig.record : Record ListenerConfig where
  name := "ListenerConfig"
  start := {}
  members :=
    [.ofReader "read_timeout" Datum.u64 fun x s => { s with readTimeout := x },
     .ofReader "error_backoff" Datum.u64 fun x s => { s with errorBackoff := x }]

/-- The logging section. -/
def LoggingConfig.record : Record LoggingConfig where
  name := "LoggingConfig"
  start := {}
  members :=
    [.ofReader "app_name" Datum.text fun x s => { s with appName := x },
     .ofReader "log_level" LogLevel.ofDatum fun x s => { s with logLevel := x },
     .ofReader "log_to_console" Datum.boolean fun x s => { s with logToConsole := x },
     .ofReader "log_to_file" Datum.boolean fun x s => { s with logToFile := x },
     .ofReader "log_file_path" Datum.text? (fun x s => { s with logFilePath := x }) true,
     .ofReader "json_format" Datum.boolean fun x s => { s with jsonFormat := x }]

/-- A whole configuration. -/
def LinkConfig.record : Record LinkConfig where
  name := "LinkConfig"
  start := {}
  members :=
    [.ofRecord "service" ServiceConfig.record fun x s => { s with service := x },
     .ofRecord "session" SessionConfig.record fun x s => { s with session := x },
     .ofRecord "announce" AnnounceConfig.record fun x s => { s with announce := x },
     .ofRecord "listener" ListenerConfig.record fun x s => { s with listener := x },
     .ofRecord "logging" LoggingConfig.record fun x s => { s with logging := x }]

namespace LinkConfig

/-- The sections of `c` and their members, each by name with its value. -/
def sections (c : LinkConfig) : List (String × List (String × Datum)) :=
  let n (x : Nat) : Datum := .integer x
  [("service",
    [("uuid", .string (toString c.service.uuid)), ("name", .string c.service.name),
     ("max_frame_size", n c.service.maxFrameSize)]),
   ("session",
    [("connect_attempts", n c.session.connectAttempts),
     ("service_lookup_attempts", n c.session.serviceLookupAttempts),
     ("connect_timeout", n c.session.connectTimeout),
     ("write_timeout", n c.session.writeTimeout),
     ("payload_timeout", n c.session.payloadTimeout),
     ("retry_backoff", n c.session.retryBackoff),
     ("max_retry_backoff", n c.session.maxRetryBackoff)]),
   ("announce",
    [("attempts", n c.announce.attempts), ("retry_backoff", n c.announce.retryBackoff)]),
   ("listener",
    [("read_timeout", n c.listener.readTimeout), ("error_backoff", n c.listener.errorBackoff)]),
   ("logging",
    [("app_name", .string c.logging.appName), ("log_level", .string c.logging.logLevel.name),
     ("log_to_console", .bool c.logging.logToConsole),
     ("log_to_file", .bool c.logging.logToFile),
     ("log_file_path", (c.logging.logFilePath.map Datum.string).getD .null),
     ("json_format", .bool c.logging.jsonFormat)])]

/-- Puts an entry at its place among entries in the order of their names, replacing one of the same
name. -/
def putEntry (name : String) (value : α) : List (String × α) → List (String × α)
  | [] => [(name, value)]
  | e :: rest =>
    if name < e.1 then (name, value) :: e :: rest
    else if name = e.1 then (name, value) :: rest
    else e :: putEntry name value rest

/-- Entries in the order of their names. -/
def sortEntries (entries : List (String × α)) : List (String × α) :=
  entries.foldl (fun acc e => putEntry e.1 e.2 acc) []

/-- `changes` laid over `c`: members that a section gives replace its own; anything but a table
replaces the section. -/
def overlay (c : LinkConfig) (changes : List (String × Datum)) : Datum :=
  let base := sortEntries (c.sections.map fun s => (s.1, sortEntries s.2))
  let lay (acc : List (String × Datum)) (change : String × Datum) :=
    let section? := (base.find? fun s => s.1 = change.1).map (·.2)
    let value :=
      match section?, change.2 with
      | some own, .table fields =>
        .table (fields.foldl (fun own f => putEntry f.1 f.2 own) own)
      | none, .table fields => .table (sortEntries fields)
      | _, d => d
    putEntry change.1 value acc
  .table (changes.foldl lay (base.map fun s => (s.1, .table s.2)))

/-- How a configuration is read from a tree of values: floating-point values are shown with
exponents, a list has no surplus elements, and an identifier is a text. -/
def treeDialect : Dialect := ⟨.compact, false, false⟩

/-- The configuration that `overlay` describes. -/
def withChanges (c : LinkConfig) (changes : List (String × Datum)) :
    Except LinkError LinkConfig :=
  match record.ofDatum treeDialect (c.overlay changes) with
  | .ok c => .ok c
  | .error f => .error (.serialization (.schema f))

/-- The written value of a setting. -/
def valueText : Datum → Option String
  | .bool b => some (if b then "true" else "false")
  | .integer n => some (toString n)
  | .string s => some (Text.quote s)
  | _ => none

/-- A section with its name in brackets and a line for each setting that has a `valueText`. -/
def sectionText (s : String × List (String × Datum)) : String :=
  "[" ++ s.1 ++ "]\n"
    ++ String.join (s.2.filterMap fun e => (valueText e.2).map fun v => e.1 ++ " = " ++ v ++ "\n")

/-- The standard configuration as the text of a configuration file. -/
def exampleText : String :=
  String.intercalate "\n" ((({} : LinkConfig).sections).map sectionText)

end LinkConfig
end RadioLink

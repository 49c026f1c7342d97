import RadioLink.Config.Logging

/-!
# Limits of a configuration

What is wrong with a configuration, in the order of its settings. Limits given in seconds look at
`wholeSeconds` alone.

A check is told in how many `parts` a millisecond comes, for times may be told more finely than in
milliseconds, and by `there` which paths lead anywhere. Configurations that are read from a file or
a tree come in milliseconds, which is one part.
-/

namespace RadioLink

open LogPath

/-- The whole milliseconds of a time in parts of a millisecond. -/
def wholeMilliseconds (parts time : Nat) : Nat := time / parts

/-- The whole seconds of a time. -/
def wholeSeconds (milliseconds : Nat) : Nat := milliseconds / 1000

/-- The problems of the service. -/
def ServiceConfig.problems (c : ServiceConfig) : List ConfigProblem :=
  problemIf (c.uuid = Uuid.nil) .uuidNil
    ++ problemIf (c.name = "") .serviceNameEmpty
    ++ problemIf (c.maxFrameSize < 1024) .frameSizeTooSmall
    ++ problemIf (c.maxFrameSize > 256 * 1024 * 1024) (.frameSizeTooLarge c.maxFrameSize)

/-- The problems of the session's settings. -/
def SessionConfig.problemsIn (parts : Nat) (c : SessionConfig) : List ConfigProblem :=
  let millis := wholeMilliseconds parts
  problemIf (c.connectAttempts = 0) .noConnectAttempts
    ++ problemIf (c.connectAttempts > 30) (.tooManyConnectAttempts c.connectAttempts)
    ++ problemIf (c.serviceLookupAttempts > c.connectAttempts) .tooManyLookups
    ++ problemIf (millis c.connectTimeout < 100) .connectTimeoutTooShort
    ++ problemIf (wholeSeconds (millis c.connectTimeout) > 300) .connectTimeoutTooLong
    ++ problemIf (millis c.writeTimeout < 100) .writeTimeoutTooShort
    ++ problemIf (millis c.payloadTimeout < 100) .payloadTimeoutTooShort
    ++ problemIf (c.retryBackoff > c.maxRetryBackoff) .backoffAboveMaximum
    ++ problemIf (wholeSeconds (millis c.maxRetryBackoff) > 60) .maxBackoffTooLong

/-- `problemsIn` for times in milliseconds. -/
def SessionConfig.problems (c : SessionConfig) : List ConfigProblem := c.problemsIn 1

/-- The problems of the announcer's settings. -/
def AnnounceConfig.problemsIn (parts : Nat) (c : AnnounceConfig) : List ConfigProblem :=
  let millis := wholeMilliseconds parts
  problemIf (c.attempts = 0) .noAnnounceAttempts
    ++ problemIf (c.attempts > 10) (.tooManyAnnounceAttempts c.attempts)
    ++ problemIf (wholeSeconds (millis c.retryBackoff) > 60) .announceBackoffTooLong

/-- `problemsIn` for times in milliseconds. -/
def AnnounceConfig.problems (c : AnnounceConfig) : List ConfigProblem := c.problemsIn 1

/-- The problems of the listener's settings. -/
def ListenerConfig.problemsIn (parts : Nat) (c : ListenerConfig) : List ConfigProblem :=
  let millis := wholeMilliseconds parts
  problemIf (millis c.readTimeout < 100) .readTimeoutTooShort
    ++ problemIf (wholeSeconds (millis c.readTimeout) > 600) .readTimeoutTooLong
    ++ problemIf (wholeSeconds (millis c.errorBackoff) > 60) .errorBackoffTooLong

/-- `problemsIn` for times in milliseconds. -/
def ListenerConfig.problems (c : ListenerConfig) : List ConfigProblem := c.problemsIn 1

namespace LinkConfig

/-- The problems of all sections of `c`. -/
def problemsIn (parts : Nat) (there : String → Bool) (c : LinkConfig) : List ConfigProblem :=
  c.service.problems ++ c.session.problemsIn parts ++ c.announce.problemsIn parts
    ++ c.listener.problemsIn parts ++ c.logging.problemsWhere there

/-- `problemsIn` for times in milliseconds, among the directories there are. -/
def problems (dirs : Directories) (c : LinkConfig) : List ConfigProblem :=
  c.problemsIn 1 dirs.contains

/-- Refuses `c` if it has problems, with the wording of all of them. -/
def checkIn (parts : Nat) (there : String → Bool) (c : LinkConfig) : Except LinkError Unit :=
  match c.problemsIn parts there with
  | [] => .ok ()
  | ps =>
    .error (.config ("Configuration validation failed:\n  - "
      ++ String.intercalate "\n  - " (ps.map ConfigProblem.message)))

/-- `checkIn` for times in milliseconds, among the directories there are. -/
def check (dirs : Directories) (c : LinkConfig) : Except LinkError Unit :=
  c.checkIn 1 dirs.contains

end LinkConfig
end RadioLink

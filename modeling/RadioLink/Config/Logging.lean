import RadioLink.Config.Basic
import RadioLink.Config.Problem

/-!
# Logging

What is wrong with a logging configuration, and what a process logs to once nothing is: the console,
a file, or both. The file is opened by an appender, and only one subscriber can be installed in a
process. A check is told by `there` which paths lead anywhere.
-/

namespace RadioLink

open LogPath

/-! ### Problems -/

/-- The problem of a log file's path. The `parent?` of the path has to be there, unless it is a bare
name. -/
def logPathProblems (there : String → Bool) : Option String → List ConfigProblem
  | none => [.logPathMissing]
  | some path =>
    match parent? path with
    | none => []
    | some dir => problemIf (dir ≠ "" ∧ ¬ there dir) (.logDirectoryMissing dir)

/-- The problems of logging. -/
def LoggingConfig.problemsWhere (there : String → Bool) (c : LoggingConfig) : List ConfigProblem :=
  problemIf (c.appName = "") .appNameEmpty
    ++ problemIf (c.appName.utf8ByteSize > 64) (.appNameTooLong c.appName.utf8ByteSize)
    ++ (if c.logToFile then logPathProblems there c.logFilePath else [])
    ++ problemIf (¬ c.logToConsole ∧ ¬ c.logToFile) .noLogOutput

/-- `problemsWhere` among the directories there are. -/
def LoggingConfig.problems (dirs : Directories) (c : LoggingConfig) : List ConfigProblem :=
  c.problemsWhere dirs.contains

/-! ### Starting -/

/-- A file that is logged to. -/
structure LogFile where
  directory : String
  name : String
  deriving DecidableEq, Repr

/-- What is logged, and where to. -/
structure LogOutputs where
  appName : String
  level : LogLevel
  console : Bool
  file : Option LogFile
  json : Bool
  deriving DecidableEq, Repr

/-- What comes of starting to log. -/
inductive LogStart where
  | installed (outputs : LogOutputs)
  | refused (error : LinkError)
  /-- The appender cannot open its file, which aborts whoever starts. -/
  | aborted

/-- There is a subscriber in the process already. -/
def subscriberTaken : LinkError :=
  .config "Failed to install subscriber: a global default trace dispatcher has already been set"

/-- The path of the log file ends in no name. -/
def logFileUnnamed : LinkError := .config "log_file_path has no file name"

namespace LoggingConfig

/-- The file at `path`. A bare name is one in the directory where relative paths start. -/
def fileAt (path : String) : Except LinkError LogFile :=
  let directory := ((parent? path).filter (· ≠ "")).getD "."
  match fileName? path with
  | none => .error logFileUnnamed
  | some name => .ok ⟨directory, name⟩

/-- The file that is logged to, if any. -/
def logFile (c : LoggingConfig) : Except LinkError (Option LogFile) :=
  match c.logToFile, c.logFilePath with
  | true, some path => (fileAt path).map some
  | _, _ => .ok none

/-- What is to be logged and where to, if `problemsWhere` finds nothing. -/
def outputs (there : String → Bool) (c : LoggingConfig) : Except LinkError LogOutputs :=
  match c.problemsWhere there with
  | [] => c.logFile.map fun file => ⟨c.appName, c.logLevel, c.logToConsole, file, c.jsonFormat⟩
  | ps => .error (.config (String.intercalate "; " (ps.map ConfigProblem.message)))

/-- Starts logging. `there` says which paths lead anywhere, `opens` which files can be opened, and
`taken` whether there is a subscriber in the process already. -/
def start (there : String → Bool) (opens : LogFile → Bool) (taken : Bool) (c : LoggingConfig) :
    LogStart :=
  match c.outputs there with
  | .error e => .refused e
  | .ok o =>
    if o.file.all opens then
      if taken then .refused subscriberTaken else .installed o
    else .aborted

/-- Starts logging in a process that logs already, which ends in an error for every configuration.
-/
def startAgain (dirs : Directories) (c : LoggingConfig) : LinkError :=
  match c.outputs dirs.contains with
  | .error e => e
  | .ok _ => subscriberTaken

end LoggingConfig
end RadioLink

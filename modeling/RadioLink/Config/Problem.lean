/-!
# Problems of a configuration

Everything that can be wrong with a configuration, with its wording.
-/

namespace RadioLink

/-- Something wrong with a configuration. -/
inductive ConfigProblem where
  | uuidNil
  | serviceNameEmpty
  | frameSizeTooSmall
  | frameSizeTooLarge (size : Nat)
  | noConnectAttempts
  | tooManyConnectAttempts (attempts : Nat)
  | tooManyLookups
  | connectTimeoutTooShort
  | connectTimeoutTooLong
  | writeTimeoutTooShort
  | payloadTimeoutTooShort
  | backoffAboveMaximum
  | maxBackoffTooLong
  | noAnnounceAttempts
  | tooManyAnnounceAttempts (attempts : Nat)
  | announceBackoffTooLong
  | readTimeoutTooShort
  | readTimeoutTooLong
  | errorBackoffTooLong
  | appNameEmpty
  | appNameTooLong (length : Nat)
  | logPathMissing
  | logDirectoryMissing (directory : String)
  | noLogOutput
  deriving DecidableEq, Repr

/-- The wording of the problem. -/
def ConfigProblem.message : ConfigProblem → String
  | .uuidNil => "Service UUID cannot be nil"
  | .serviceNameEmpty => "Service name cannot be empty"
  | .frameSizeTooSmall => "Max frame size too small (minimum: 1 KB)"
  | .frameSizeTooLarge n =>
    "Max frame size too large: " ++ toString n ++ " bytes (maximum: 256 MB)"
  | .noConnectAttempts => "Connect attempts must be greater than 0"
  | .tooManyConnectAttempts n =>
    "Connect attempts too high: " ++ toString n ++ " (maximum: 30)"
  | .tooManyLookups => "Service lookup attempts cannot exceed connect attempts"
  | .connectTimeoutTooShort => "Connect timeout too short (minimum: 100ms)"
  | .connectTimeoutTooLong => "Connect timeout too long (maximum: 300s)"
  | .writeTimeoutTooShort => "Write timeout too short (minimum: 100ms)"
  | .payloadTimeoutTooShort => "Payload timeout too short (minimum: 100ms)"
  | .backoffAboveMaximum => "Retry backoff cannot exceed max retry backoff"
  | .maxBackoffTooLong => "Max retry backoff too long (maximum: 60s)"
  | .noAnnounceAttempts => "Announce attempts must be greater than 0"
  | .tooManyAnnounceAttempts n =>
    "Announce attempts too high: " ++ toString n ++ " (maximum: 10)"
  | .announceBackoffTooLong => "Announce retry backoff too long (maximum: 60s)"
  | .readTimeoutTooShort => "Read timeout too short (minimum: 100ms)"
  | .readTimeoutTooLong => "Read timeout too long (maximum: 600s)"
  | .errorBackoffTooLong => "Listener error backoff too long (maximum: 60s)"
  | .appNameEmpty => "Application name cannot be empty"
  | .appNameTooLong n =>
    "Application name too long: " ++ toString n ++ " characters (maximum: 64)"
  | .logPathMissing => "log_file_path must be specified when log_to_file is true"
  | .logDirectoryMissing d => "Log file directory does not exist: " ++ d
  | .noLogOutput => "At least one logging output (console or file) must be enabled"

/-- The problem `p` where something is wrong. -/
def problemIf (wrong : Prop) [Decidable wrong] (p : ConfigProblem) : List ConfigProblem :=
  if wrong then [p] else []

@[simp] theorem problemIf_eq_nil {wrong : Prop} [Decidable wrong] {p : ConfigProblem} :
    problemIf wrong p = [] ↔ ¬ wrong := by
  unfold problemIf
  split <;> simp [*]

end RadioLink

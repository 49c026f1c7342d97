import RadioLink.Config.Limits

/-!
# What an accepted configuration keeps to

The check of a configuration keeps lower limits, and the order of the two backoffs, to the part of a
millisecond. An upper limit it compares with `wholeSeconds`, so a time may be in the last second
that is allowed and go on to the end of it (`lastOfSecond`). `LinkConfig.Within` says what all the
limits are, for either reading of the upper ones:

    c.problemsIn parts there = [] ↔
      c.Within parts (lastOfSecond parts) ∧ c.logging.problemsWhere there = []
-/

namespace RadioLink

variable {parts time s : Nat}

/-! ### Seconds -/

/-- `s` seconds, in parts of which a millisecond has `parts`. -/
def seconds (parts s : Nat) : Nat := 1000 * parts * s

/-- The longest time that shows as `s` in whole seconds. -/
def lastOfSecond (parts s : Nat) : Nat := seconds parts s + (1000 * parts - 1)

/-- A time shows as at most `s` in whole seconds exactly if it is at most `lastOfSecond parts s`. -/
theorem wholeSeconds_le_iff (hparts : 0 < parts) :
    wholeSeconds (wholeMilliseconds parts time) ≤ s ↔ time ≤ lastOfSecond parts s := by
  have hsecond : 0 < 1000 * parts := by omega
  rw [wholeSeconds, wholeMilliseconds, Nat.div_div_eq_div_mul, Nat.mul_comm parts,
    Nat.div_le_iff_le_mul_add_pred hsecond, lastOfSecond, seconds]

/-- A time that is a multiple of a second and at most `lastOfSecond parts s` is at most
`seconds parts s`. -/
theorem le_seconds_of_dvd (hparts : 0 < parts) (hwhole : 1000 * parts ∣ time)
    (h : time ≤ lastOfSecond parts s) : time ≤ seconds parts s := by
  obtain ⟨n, rfl⟩ := hwhole
  have hlt : 1000 * parts * n < 1000 * parts * (s + 1) := by
    rw [lastOfSecond, seconds] at h
    rw [Nat.mul_succ]
    omega
  exact Nat.mul_le_mul_left _ (Nat.le_of_lt_succ (Nat.lt_of_mul_lt_mul_left hlt))

/-!
### Limits

`longest s` says how long a time may be that has a limit of `s` seconds: `seconds parts s`, or
`lastOfSecond parts s`.
-/

/-- `c` is within its limits. -/
structure ServiceConfig.Within (c : ServiceConfig) : Prop where
  uuid : c.uuid ≠ Uuid.nil
  name : c.name ≠ ""
  frame : 1024 ≤ c.maxFrameSize ∧ c.maxFrameSize ≤ 256 * 1024 * 1024

/-- The times and counts of `c` are within their limits. -/
structure SessionConfig.Within (parts : Nat) (longest : Nat → Nat) (c : SessionConfig) : Prop where
  attempts : 1 ≤ c.connectAttempts ∧ c.connectAttempts ≤ 30
  lookups : c.serviceLookupAttempts ≤ c.connectAttempts
  connect : 100 * parts ≤ c.connectTimeout ∧ c.connectTimeout ≤ longest 300
  write : 100 * parts ≤ c.writeTimeout
  payload : 100 * parts ≤ c.payloadTimeout
  backoff : c.retryBackoff ≤ c.maxRetryBackoff ∧ c.maxRetryBackoff ≤ longest 60

/-- The times and counts of `c` are within their limits. -/
structure AnnounceConfig.Within (longest : Nat → Nat) (c : AnnounceConfig) : Prop where
  attempts : 1 ≤ c.attempts ∧ c.attempts ≤ 10
  backoff : c.retryBackoff ≤ longest 60

/-- The times of `c` are within their limits. -/
structure ListenerConfig.Within (parts : Nat) (longest : Nat → Nat) (c : ListenerConfig) :
    Prop where
  read : 100 * parts ≤ c.readTimeout ∧ c.readTimeout ≤ longest 600
  backoff : c.errorBackoff ≤ longest 60

/-- Each section of `c` is within its limits, with `longest` as upper ones. -/
structure LinkConfig.Within (parts : Nat) (longest : Nat → Nat) (c : LinkConfig) : Prop where
  service : c.service.Within
  session : c.session.Within parts longest
  announce : c.announce.Within longest
  listener : c.listener.Within parts longest
  appName : c.logging.appName ≠ ""

/-- The times of `c` that have an upper limit are whole seconds. -/
structure LinkConfig.InWholeSeconds (parts : Nat) (c : LinkConfig) : Prop where
  connectTimeout : 1000 * parts ∣ c.session.connectTimeout
  maxRetryBackoff : 1000 * parts ∣ c.session.maxRetryBackoff
  announceBackoff : 1000 * parts ∣ c.announce.retryBackoff
  readTimeout : 1000 * parts ∣ c.listener.readTimeout
  errorBackoff : 1000 * parts ∣ c.listener.errorBackoff

theorem LinkConfig.Within.seconds {c : LinkConfig} (hparts : 0 < parts)
    (h : c.Within parts (lastOfSecond parts)) (hwhole : c.InWholeSeconds parts) :
    c.Within parts (seconds parts) where
  service := h.service
  session := { h.session with
    connect := h.session.connect.imp_right (le_seconds_of_dvd hparts hwhole.connectTimeout)
    backoff := h.session.backoff.imp_right (le_seconds_of_dvd hparts hwhole.maxRetryBackoff) }
  announce := ⟨h.announce.attempts,
    le_seconds_of_dvd hparts hwhole.announceBackoff h.announce.backoff⟩
  listener := ⟨h.listener.read.imp_right (le_seconds_of_dvd hparts hwhole.readTimeout),
    le_seconds_of_dvd hparts hwhole.errorBackoff h.listener.backoff⟩
  appName := h.appName

/-! ### What the check finds -/

theorem not_gt_wholeSeconds_iff (hparts : 0 < parts) :
    ¬ wholeSeconds (wholeMilliseconds parts time) > s ↔ time ≤ lastOfSecond parts s := by
  rw [Nat.not_lt, wholeSeconds_le_iff hparts]

theorem not_lt_wholeMilliseconds_iff (hparts : 0 < parts) :
    ¬ wholeMilliseconds parts time < s ↔ s * parts ≤ time := by
  rw [Nat.not_lt, wholeMilliseconds, Nat.le_div_iff_mul_le hparts]

theorem ServiceConfig.problems_eq_nil_iff {c : ServiceConfig} : c.problems = [] ↔ c.Within := by
  simp only [problems, List.append_eq_nil_iff, problemIf_eq_nil, and_assoc]
  constructor
  · rintro ⟨huuid, hname, hleast, hmost⟩
    exact ⟨huuid, hname, Nat.not_lt.1 hleast, Nat.not_lt.1 hmost⟩
  · intro h
    exact ⟨h.uuid, h.name, Nat.not_lt.2 h.frame.1, Nat.not_lt.2 h.frame.2⟩

theorem SessionConfig.problemsIn_eq_nil_iff {c : SessionConfig} (hparts : 0 < parts) :
    c.problemsIn parts = [] ↔ c.Within parts (lastOfSecond parts) := by
  simp only [problemsIn, List.append_eq_nil_iff, problemIf_eq_nil, and_assoc,
    not_gt_wholeSeconds_iff hparts, not_lt_wholeMilliseconds_iff hparts]
  constructor
  · rintro ⟨hsome, hattempts, hlookups, hshort, hlong, hwrite, hpayload, hbackoff, hmost⟩
    exact ⟨⟨Nat.pos_of_ne_zero hsome, Nat.not_lt.1 hattempts⟩, Nat.not_lt.1 hlookups,
      ⟨hshort, hlong⟩, hwrite, hpayload, Nat.not_lt.1 hbackoff, hmost⟩
  · intro h
    exact ⟨Nat.ne_of_gt h.attempts.1, Nat.not_lt.2 h.attempts.2, Nat.not_lt.2 h.lookups,
      h.connect.1, h.connect.2, h.write, h.payload, Nat.not_lt.2 h.backoff.1, h.backoff.2⟩

theorem AnnounceConfig.problemsIn_eq_nil_iff {c : AnnounceConfig} (hparts : 0 < parts) :
    c.problemsIn parts = [] ↔ c.Within (lastOfSecond parts) := by
  simp only [problemsIn, List.append_eq_nil_iff, problemIf_eq_nil, and_assoc,
    not_gt_wholeSeconds_iff hparts]
  constructor
  · rintro ⟨hsome, hattempts, hbackoff⟩
    exact ⟨⟨Nat.pos_of_ne_zero hsome, Nat.not_lt.1 hattempts⟩, hbackoff⟩
  · intro h
    exact ⟨Nat.ne_of_gt h.attempts.1, Nat.not_lt.2 h.attempts.2, h.backoff⟩

theorem ListenerConfig.problemsIn_eq_nil_iff {c : ListenerConfig} (hparts : 0 < parts) :
    c.problemsIn parts = [] ↔ c.Within parts (lastOfSecond parts) := by
  simp only [problemsIn, List.append_eq_nil_iff, problemIf_eq_nil, and_assoc,
    not_gt_wholeSeconds_iff hparts, not_lt_wholeMilliseconds_iff hparts]
  constructor
  · rintro ⟨hshort, hlong, hbackoff⟩
    exact ⟨⟨hshort, hlong⟩, hbackoff⟩
  · intro h
    exact ⟨h.read.1, h.read.2, h.backoff⟩

theorem LoggingConfig.appName_of_problemsWhere {c : LoggingConfig} {there : String → Bool}
    (h : c.problemsWhere there = []) : c.appName ≠ "" := by
  simp only [problemsWhere, List.append_eq_nil_iff, problemIf_eq_nil] at h
  exact h.1.1.1

namespace LinkConfig

variable {there : String → Bool} {c : LinkConfig}

/-- `problemsIn` finds nothing wrong with `c` exactly if `c` is `Within` its limits, to the
`lastOfSecond` of each, and nothing is wrong with what it logs. -/
theorem problemsIn_eq_nil_iff (hparts : 0 < parts) : c.problemsIn parts there = [] ↔
    c.Within parts (lastOfSecond parts) ∧ c.logging.problemsWhere there = [] := by
  simp only [problemsIn, List.append_eq_nil_iff, and_assoc, ServiceConfig.problems_eq_nil_iff,
    SessionConfig.problemsIn_eq_nil_iff hparts, AnnounceConfig.problemsIn_eq_nil_iff hparts,
    ListenerConfig.problemsIn_eq_nil_iff hparts]
  constructor
  · rintro ⟨hservice, hsession, hannounce, hlistener, hlogging⟩
    exact ⟨⟨hservice, hsession, hannounce, hlistener,
      LoggingConfig.appName_of_problemsWhere hlogging⟩, hlogging⟩
  · rintro ⟨h, hlogging⟩
    exact ⟨h.service, h.session, h.announce, h.listener, hlogging⟩

theorem checkIn_eq_ok_iff : c.checkIn parts there = .ok () ↔ c.problemsIn parts there = [] := by
  unfold checkIn
  split
  · next h => simp [h]
  · next h => simpa using h

/-- `c` passes the check in the file system that `there` tells of. -/
def Accepted (parts : Nat) (c : LinkConfig) : Prop := ∃ there, c.checkIn parts there = .ok ()

theorem Accepted.within (hparts : 0 < parts) (h : c.Accepted parts) :
    c.Within parts (lastOfSecond parts) := by
  obtain ⟨there, hcheck⟩ := h
  exact ((problemsIn_eq_nil_iff hparts).1 (checkIn_eq_ok_iff.1 hcheck)).1

end LinkConfig
end RadioLink

import RadioLink.Config.Logging
import RadioLink.Proofs.Config.LogPath

/-!
# Starting to log after a check

`problemsWhere` looks for the directory of the log file, and `start` looks for its name as well. So
a configuration without problems starts unless the path of its log file is `Nameless`: whatever the
file system is like, the file is then in a directory that the check has found, under the name in
which the path ends, and nothing is left to be refused but a second subscriber.
-/

namespace RadioLink

open LogPath

/-- The outputs `o` are what `c` says. The log file has the name in which its path ends, and its
directory is there. -/
structure LogOutputs.Follows (there : String → Bool) (c : LoggingConfig) (o : LogOutputs) :
    Prop where
  appName : o.appName = c.appName
  level : o.level = c.logLevel
  console : o.console = c.logToConsole
  json : o.json = c.jsonFormat
  noFile : c.logToFile = false → o.file = none
  file : c.logToFile = true → ∃ path f, c.logFilePath = some path ∧ o.file = some f ∧
    NamesFile f.name.toList path.toList ∧ (f.directory = "." ∨ there f.directory = true)

namespace LoggingConfig

variable {there : String → Bool} {opens : LogFile → Bool} {taken : Bool} {c : LoggingConfig}
  {path : String}

/-- A log file without problems has a path, and the `parent?` of that path is there. -/
theorem exists_path (h : c.problemsWhere there = []) (hfile : c.logToFile = true) :
    ∃ path, c.logFilePath = some path ∧
      ∀ dir, parent? path = some dir → dir ≠ "" → there dir = true := by
  have hpath : logPathProblems there c.logFilePath = [] := by
    simp only [problemsWhere, List.append_eq_nil_iff, hfile, if_true] at h
    exact h.1.2
  cases hsome : c.logFilePath with
  | none => simp [hsome, logPathProblems] at hpath
  | some path =>
    refine ⟨path, rfl, fun dir hdir hne => ?_⟩
    simpa [hsome, logPathProblems, hdir, hne] using hpath

/-- `fileAt` finds the file at a path that is not `Nameless`, in a directory that is there. -/
theorem exists_fileAt (h : ¬ Nameless path.toList)
    (hthere : ∀ dir, parent? path = some dir → dir ≠ "" → there dir = true) :
    ∃ f, fileAt path = .ok f ∧ NamesFile f.name.toList path.toList ∧
      (f.directory = "." ∨ there f.directory = true) := by
  obtain ⟨name, hname⟩ := (exists_namesFile_or_nameless path.toList).resolve_right h
  have hname' : NamesFile (String.ofList name).toList path.toList := by
    rwa [String.toList_ofList]
  refine ⟨_, by rw [fileAt, fileName?_eq_some_iff.2 hname'], hname', ?_⟩
  cases hdir : (parent? path).filter (· ≠ "") with
  | none => exact .inl rfl
  | some dir =>
    obtain ⟨hparent, hne⟩ := Option.filter_eq_some_iff.1 hdir
    exact .inr (hthere dir hparent (by simpa using hne))

/-- `fileAt` fails with `logFileUnnamed` at a `Nameless` path. -/
theorem fileAt_eq_error (h : Nameless path.toList) : fileAt path = .error logFileUnnamed := by
  have hnone : fileName? path = none := by
    refine Option.eq_none_iff_forall_ne_some.2 fun name hname => ?_
    exact not_namesFile_of_nameless h (fileName?_eq_some_iff.1 hname)
  rw [fileAt, hnone]

/-- `logFile` gives the file of the path, exactly if there is to be one. -/
theorem exists_logFile (h : c.problemsWhere there = [])
    (hnamed : ∀ path, c.logToFile = true → c.logFilePath = some path → ¬ Nameless path.toList) :
    ∃ file, c.logFile = .ok file ∧ (c.logToFile = false → file = none) ∧
      (c.logToFile = true → ∃ path f, c.logFilePath = some path ∧ file = some f ∧
        NamesFile f.name.toList path.toList ∧ (f.directory = "." ∨ there f.directory = true)) := by
  cases hfile : c.logToFile with
  | false => exact ⟨none, by rw [logFile, hfile], fun _ => rfl, nofun⟩
  | true =>
    obtain ⟨path, hpath, hthere⟩ := exists_path h hfile
    obtain ⟨f, hf, hname, hdirectory⟩ := exists_fileAt (hnamed path hfile hpath) hthere
    refine ⟨some f, ?_, nofun, fun _ => ⟨path, f, hpath, rfl, hname, hdirectory⟩⟩
    rw [logFile, hfile, hpath]
    dsimp only
    rw [hf]
    rfl

/-- Without problems `outputs` fails only where `logFile` does. -/
theorem outputs_of_logFile (h : c.problemsWhere there = []) : c.outputs there
    = c.logFile.map fun file =>
      ⟨c.appName, c.logLevel, c.logToConsole, file, c.jsonFormat⟩ := by
  rw [outputs, h]

theorem start_of_nameless (h : c.problemsWhere there = []) (hfile : c.logToFile = true)
    (hpath : c.logFilePath = some path) (hnameless : Nameless path.toList) :
    c.start there opens taken = .refused logFileUnnamed := by
  have hrefused : c.logFile = .error logFileUnnamed := by
    rw [logFile, hfile, hpath]
    dsimp only
    rw [fileAt_eq_error hnameless]
    rfl
  rw [start, outputs_of_logFile h, hrefused]
  rfl

/-- Where a process logs already, `start` gives what `startAgain` does: refused as soon as the files
that there can be are opened. -/
theorem start_of_taken (dirs : Directories) (c : LoggingConfig) :
    c.start dirs.contains (fun _ => true) true = .refused (c.startAgain dirs) := by
  unfold start startAgain
  cases c.outputs dirs.contains with
  | error e => rfl
  | ok o => cases hfile : o.file <;> simp [hfile]

/-- **A checked configuration starts unless its log file has no name.** Whatever paths lead
anywhere, and whatever files can be opened: where `problemsWhere` is empty, `start` fails with
`logFileUnnamed` if the log file's path is `Nameless`, and otherwise goes as far as to open the file
and to install the subscriber. -/
theorem starts_unless_nameless (opens : LogFile → Bool) (taken : Bool)
    (h : c.problemsWhere there = []) :
    (∀ path, c.logToFile = true → c.logFilePath = some path → Nameless path.toList →
      c.start there opens taken = .refused logFileUnnamed) ∧
    ((∀ path, c.logToFile = true → c.logFilePath = some path → ¬ Nameless path.toList) →
      ∃ o : LogOutputs, o.Follows there c ∧ c.start there opens taken =
        if o.file.all opens then if taken then .refused subscriberTaken else .installed o
        else .aborted) := by
  refine ⟨fun path hfile hpath => start_of_nameless h hfile hpath, fun hnamed => ?_⟩
  obtain ⟨file, hfile, hnone, hsome⟩ := exists_logFile h hnamed
  let o : LogOutputs := ⟨c.appName, c.logLevel, c.logToConsole, file, c.jsonFormat⟩
  have houtputs : c.outputs there = .ok o := by
    rw [outputs_of_logFile h, hfile]
    rfl
  refine ⟨o, ⟨rfl, rfl, rfl, rfl, hnone, hsome⟩, ?_⟩
  rw [start, houtputs]

/-- A file in a directory, with more slashes than are needed. -/
theorem starts_unless_nameless_nested :
    let c : LoggingConfig := { logToFile := true, logFilePath := some "logs//app.log/." }
    let there : String → Bool := (· = "logs")
    c.problemsWhere there = [] ∧ ¬ Nameless "logs//app.log/.".toList ∧
      ∃ o : LogOutputs, o.Follows there c ∧ c.start there (fun _ => true) false = .installed o := by
  intro c there
  have hproblems : c.problemsWhere there = [] := by decide +kernel
  have hname : fileName? "logs//app.log/." = some "app.log" := by decide +kernel
  have hnamed : ¬ Nameless "logs//app.log/.".toList := fun hnameless =>
    not_namesFile_of_nameless hnameless (fileName?_eq_some_iff.1 hname)
  obtain ⟨-, hstarts⟩ := starts_unless_nameless (fun _ => true) false hproblems
  obtain ⟨o, hfollows, hstart⟩ := hstarts fun path _ hpath => by
    cases hpath
    exact hnamed
  refine ⟨hproblems, hnamed, o, hfollows, ?_⟩
  rw [hstart]
  simp

/-- The root has no directory to look for and no name: it passes the check and is refused then. -/
theorem nameless_refused :
    let c : LoggingConfig := { logToFile := true, logFilePath := some "/" }
    c.problemsWhere (fun _ => true) = [] ∧
      c.start (fun _ => true) (fun _ => true) false = .refused logFileUnnamed := by
  intro c
  have hproblems : c.problemsWhere (fun _ => true) = [] := by decide +kernel
  exact ⟨hproblems, start_of_nameless hproblems rfl rfl (.idle (Idle.none.next (.inl rfl)))⟩

end LoggingConfig
end RadioLink

import Wsddn.Config.CommandLine

/-!
# Loading the configuration (`app_state.h`, `app_state.cpp`)

`AppState` keeps the settings of the command line (`origCommandLine`) and those in force
(`currentCommandLine`).  `reload` starts from the former every time there is a config file, merges
the file, and makes sure that a daemon that was started by root has an account and a directory for
the network process (`ensureNonRoot`).

Of the effects of `init` and `refresh` the model keeps what is remembered from one reload to the
next, and the change of the working directory by `daemonize`.  What else they do (standard files,
loggers, the PID file, building the `Config`) can only raise (`Reload.raises`).

* `ensureNonRoot_ok` : what `ensureNonRoot` makes of the settings.
* `reload_of_configFile`, `reload_of_initialized`, `reload_of_first` : the three ways of `reload`.
-/

namespace Wsddn

open CommandLine

/-- The process that the daemon was started as. -/
structure Daemon extends Build where
  getuid : ℕ
  getgid : ℕ
  deriving DecidableEq, Repr

/-- What the setters see at a given moment. -/
def Daemon.surroundings (d : Daemon) (L : Lookups) (cwd : Path) : Surroundings :=
  { L, d.toBuild with getuid := d.getuid, cwd }

/-- Under which identity, and where, a process runs. -/
structure Credentials where
  uid : ℕ
  gid : ℕ
  /-- The directory it is locked in. -/
  root : Option Path := none
  deriving DecidableEq, Repr

/-- Those of the daemon itself. -/
def Daemon.credentials (d : Daemon) : Credentials := { uid := d.getuid, gid := d.getgid }

/-- What a call of `reload` meets with. -/
structure Reload where
  lookups : Lookups
  file : ConfigFile
  /-- What the rest of the reload raises. -/
  raises : Option Raised := none

/-- The fields of an `AppState`, and the working directory of the process. -/
structure AppState where
  origCommandLine : CommandLine
  currentCommandLine : CommandLine
  cwd : Path
  isInitialized : Bool := false
  logLevel : Option ℕ := none
  logFilePath : Option Path := none
  logToOsLog : Option Bool := none
  pidFilePath : Option Path := none
  deriving DecidableEq, Repr

namespace AppState

/-- The account of the network process. -/
def ensureAccount (S : Surroundings) (c : CommandLine) : Except Raised CommandLine :=
  if c.runAs.isSome then .ok c
  else do
    match ← S.passwdByName S.defaultUserName with
    | some pwd => .ok { c with runAs := some pwd }
    | none =>
      match ← S.createDaemonUser S.defaultUserName with
      | some id => .ok { c with runAs := some id }
      -- The program ends here.
      | none => .error (.other "Running network service as a root is extremely insecure")

/-- The directory of the network process. -/
def ensureChroot (S : Surroundings) (c : CommandLine) : Except Raised CommandLine :=
  if c.chrootDir.isSome then .ok c
  else do
    S.createMissingDirs S.defaultChrootDir
    .ok { c with chrootDir := some S.defaultChrootDir }

/-- The account and the directory for the network process of a daemon that was started by root. -/
def ensureNonRoot (S : Surroundings) (c : CommandLine) : Except Raised CommandLine :=
  if S.getuid ≠ 0 then .ok c else ensureAccount S c >>= ensureChroot S

/-- The level of the settings becomes that of the log. -/
def setLogLevel (s : AppState) : AppState :=
  { s with logLevel := s.currentCommandLine.logLevel }

/-- The log goes where the settings say; which loggers there are then is not looked at here. -/
def setLogOutput (s : AppState) : AppState :=
  { s with logFilePath := s.currentCommandLine.logFile
           logToOsLog := s.currentCommandLine.logToOsLog }

/-- The file with the pid is the one of the settings. -/
def setPidFile (s : AppState) : AppState :=
  { s with pidFilePath := s.currentCommandLine.pidFile }

variable (d : Daemon)

/-- The first time. -/
def init (L : Lookups) (s : AppState) : Except Raised AppState := do
  let s := s.setLogLevel.setLogOutput
  -- `daemonize` changes the working directory.
  let s := if s.currentCommandLine.daemonType = some .unix then { s with cwd := "/" } else s
  let s := s.setPidFile
  let current ← ensureNonRoot (d.surroundings L s.cwd) s.currentCommandLine
  .ok { s with currentCommandLine := current, isInitialized := true }

/-- After the first time. -/
def refresh (L : Lookups) (s : AppState) : Except Raised AppState := do
  let current ← ensureNonRoot (d.surroundings L s.cwd) s.currentCommandLine
  let s := { s with currentCommandLine := current }
  let s := if current.logLevel ≠ s.logLevel then s.setLogLevel else s
  let s :=
    if current.logFile ≠ s.logFilePath ∨ (d.haveOsLog ∧ s.logToOsLog ≠ current.logToOsLog) then
      s.setLogOutput
    else s
  .ok (if current.pidFile ≠ s.pidFilePath then s.setPidFile else s)

/-- `reload` up to the building of the `Config`. -/
def reloadSettings (r : Reload) (s : AppState) : Except Raised AppState :=
  if s.origCommandLine.configFile.isSome then do
    let merged ← mergeConfigFile (d.surroundings r.lookups s.cwd) r.file s.origCommandLine
    let s := { s with currentCommandLine := merged }
    if s.isInitialized then s.refresh d r.lookups else s.init d r.lookups
  else if s.isInitialized then .ok s
  else init d r.lookups { s with currentCommandLine := s.origCommandLine }

/-- `reload`, with what its last part raises. -/
def reload (r : Reload) (s : AppState) : Except Raised AppState := do
  let s ← s.reloadSettings d r
  match r.raises with
  | some e => .error e
  | none => .ok s

/-- Whether the network process is another one than this. -/
def shouldFork (s : AppState) : Bool :=
  s.currentCommandLine.chrootDir.isSome || s.currentCommandLine.runAs.isSome

/-- What the forked process does before `serve()`.  The function is `noexcept`: if the directory or
the identity cannot be changed (`applies`), the process is terminated. -/
def postForkInServerProcess (s : AppState) (applies : Bool) (cr : Credentials) :
    Option Credentials :=
  if s.shouldFork && !applies then none
  else
    let cr :=
      match s.currentCommandLine.chrootDir with
      | some dir => { cr with root := some dir }
      | none => cr
    match s.currentCommandLine.runAs with
    | some id => some { cr with uid := id.uid, gid := id.gid }
    | none => some cr

/-- The credentials with which `serve()` is entered, in the forked process or in the daemon
itself. -/
def serveCredentials (s : AppState) (applies : Bool) : Option Credentials :=
  if s.shouldFork then s.postForkInServerProcess applies d.credentials else some d.credentials

/-! ### What `ensureNonRoot` makes of the settings -/

/-- The default account, found or created. -/
def defaultAccount (S : Surroundings) : Option Identity :=
  match S.passwdByName S.defaultUserName with
  | .ok (some pwd) => some pwd
  | .ok none => (S.createDaemonUser S.defaultUserName).toOption.bind id
  | .error _ => none

section Spec

variable {d} {S : Surroundings} {c c' : CommandLine}

theorem ensureNonRoot_of_ne (h : S.getuid ≠ 0) : ensureNonRoot S c = .ok c := by
  simp [ensureNonRoot, h]

/-- The account that was set, else the default account; and there is one. -/
theorem ensureAccount_ok (he : ensureAccount S c = .ok c') :
    c'.runAs = c.runAs.or (defaultAccount S) ∧ c'.runAs.isSome = true ∧
      c'.chrootDir = c.chrootDir := by
  unfold ensureAccount at he
  rcases hr : c.runAs with _ | id
  · rw [hr] at he
    obtain ⟨pwd, hp, he⟩ := bind_eq_ok.1 he
    rcases pwd with _ | pwd
    · obtain ⟨id, hid, he⟩ := bind_eq_ok.1 he
      rcases id with _ | id
      · cases he
      · cases he
        simp [defaultAccount, hp, hid, Except.toOption]
    · cases he
      simp [defaultAccount, hp]
  · rw [hr] at he
    cases he
    simp [hr]

/-- The directory that was set, else the default directory. -/
theorem ensureChroot_ok (he : ensureChroot S c = .ok c') :
    c'.chrootDir = c.chrootDir.or (some S.defaultChrootDir) ∧ c'.runAs = c.runAs := by
  unfold ensureChroot at he
  rcases hr : c.chrootDir with _ | dir
  · rw [hr] at he
    obtain ⟨-, -, he⟩ := bind_eq_ok.1 he
    cases he
    simp
  · rw [hr] at he
    cases he
    simp [hr]

/-- **What `ensureNonRoot` leaves**, if it returns: the account and the directory that were set,
else the default ones. -/
theorem ensureNonRoot_ok (h : S.getuid = 0) (he : ensureNonRoot S c = .ok c') :
    c'.runAs = c.runAs.or (defaultAccount S) ∧ c'.runAs.isSome = true ∧
      c'.chrootDir = c.chrootDir.or (some S.defaultChrootDir) := by
  rw [ensureNonRoot, if_neg (not_not.2 h)] at he
  obtain ⟨c₁, h₁, h₂⟩ := bind_eq_ok.1 he
  obtain ⟨hr, hs, hd⟩ := ensureAccount_ok h₁
  obtain ⟨hd', hr'⟩ := ensureChroot_ok h₂
  exact ⟨hr'.trans hr, hr' ▸ hs, by rw [hd', hd]⟩

/-! ### The ways of `reload` -/

variable {s t : AppState} {r : Reload}

theorem init_ok {L : Lookups} (h : s.init d L = .ok t) :
    ensureNonRoot (d.surroundings L t.cwd) s.currentCommandLine = .ok t.currentCommandLine ∧
      t.origCommandLine = s.origCommandLine ∧ t.isInitialized = true ∧
      t.cwd = if s.currentCommandLine.daemonType = some .unix then "/" else s.cwd := by
  unfold init at h
  obtain ⟨current, hc, h⟩ := bind_eq_ok.1 h
  cases h
  by_cases hd : s.currentCommandLine.daemonType = some .unix <;>
    simpa [setLogLevel, setLogOutput, setPidFile, hd] using hc

theorem refresh_ok {L : Lookups} (h : s.refresh d L = .ok t) :
    ensureNonRoot (d.surroundings L s.cwd) s.currentCommandLine = .ok t.currentCommandLine ∧
      t.origCommandLine = s.origCommandLine ∧ t.isInitialized = s.isInitialized ∧
      t.cwd = s.cwd := by
  unfold refresh at h
  obtain ⟨current, hc, h⟩ := bind_eq_ok.1 h
  cases h
  dsimp only
  split_ifs <;> exact ⟨hc, rfl, rfl, rfl⟩

theorem reloadSettings_of_reload (h : s.reload d r = .ok t) : s.reloadSettings d r = .ok t := by
  obtain ⟨u, hu, h⟩ := bind_eq_ok.1 h
  split at h
  · cases h
  · exact Except.ok.inj h ▸ hu

/-- Every reload leaves the command line as it was given, and the state initialized.  The working
directory changes in the first one, if the daemon is a traditional UNIX daemon. -/
structure Loaded (s t : AppState) : Prop where
  orig : t.origCommandLine = s.origCommandLine
  initialized : t.isInitialized = true
  cwd : t.cwd = if s.isInitialized = false ∧ s.origCommandLine.daemonType = some .unix then "/"
    else s.cwd

/-- **With a config file**: the settings in force are those of the command line and the file,
whatever they were before. -/
theorem reload_of_configFile (hf : s.origCommandLine.configFile.isSome = true)
    (h : s.reload d r = .ok t) :
    Loaded s t ∧ ∃ merged,
      mergeConfigFile (d.surroundings r.lookups s.cwd) r.file s.origCommandLine = .ok merged ∧
      ensureNonRoot (d.surroundings r.lookups t.cwd) merged = .ok t.currentCommandLine := by
  have hs := reloadSettings_of_reload h
  rw [reloadSettings, if_pos hf] at hs
  obtain ⟨merged, hm, hs⟩ := bind_eq_ok.1 hs
  rcases hi : s.isInitialized with _ | _ <;> simp only [hi] at hs
  · obtain ⟨he, ho, hinit, hcwd⟩ := init_ok hs
    simp only [mergeConfigFile_daemonType hm] at hcwd
    exact ⟨⟨ho, hinit, by simp [hi, hcwd]⟩, merged, hm, he⟩
  · obtain ⟨he, ho, hinit, hcwd⟩ := refresh_ok hs
    exact ⟨⟨ho, hinit, by simp [hi, hcwd]⟩, merged, hm, hcwd ▸ he⟩

/-- **Without one**, the first reload takes the command line. -/
theorem reload_of_first (hf : s.origCommandLine.configFile.isSome = false)
    (hi : s.isInitialized = false) (h : s.reload d r = .ok t) :
    Loaded s t ∧ ensureNonRoot (d.surroundings r.lookups t.cwd) s.origCommandLine =
      .ok t.currentCommandLine := by
  have hs := reloadSettings_of_reload h
  simp only [reloadSettings, hf, hi] at hs
  obtain ⟨he, ho, hinit, hcwd⟩ := init_ok hs
  exact ⟨⟨ho, hinit, by simp [hi, hcwd]⟩, he⟩

/-- And every other one changes nothing. -/
theorem reload_of_initialized (hf : s.origCommandLine.configFile.isSome = false)
    (hi : s.isInitialized = true) (h : s.reload d r = .ok t) : t = s := by
  have hs := reloadSettings_of_reload h
  simp only [reloadSettings, hf, hi] at hs
  exact (Except.ok.inj hs).symm

end Spec

end AppState

end Wsddn

import Wsddn.Config.AppState
import Wsddn.Machine.Basic

/-!
# The settings in force, and who serves

One round of `runServer` for each reload: the settings are loaded and then `serve()` is entered,
in the daemon itself or in a forked process that has changed its identity and directory.

* `settings_after_reload` : **what is in force after a reload depends on the command line and the
  current config file only**, read in the working directory of that reload, for a daemon that was
  started by root; with it the identity and the directory of the network process.
* `relative_path_moves` : the working directory of a daemon changes with the first reload.
* `neverRoot_iff` : **the exact condition for the network code never to run as root.**  Nothing
  checks the account that was chosen: the condition is that it is not root's own, each time the
  settings are loaded.
* `root_by_option` : the option `--user root`.
-/

namespace Wsddn

open CommandLine AppState

/-- One round: a reload, and whether the forked process can change its directory and identity. -/
structure Round extends Reload where
  applies : Bool := true

/-- The daemon, and the credentials with which `serve()` was entered so far. -/
structure Served where
  app : AppState
  entered : List Credentials := []

/-- The state that the constructor of `AppState` makes. -/
def AppState.ofCommandLine (o : CommandLine) (cwd : Path) : AppState :=
  { origCommandLine := o, currentCommandLine := o, cwd }

namespace Daemon

/-- The rounds of `runServer`.  A reload that raises ends it. -/
def rounds (d : Daemon) : Machine Served Round where
  init x := ∃ L cwd opts o, parse (d.surroundings L cwd) opts = some o ∧
    x = { app := .ofCommandLine o cwd }
  step x r :=
    match x.app.reload d r.toReload with
    | .error _ => none
    | .ok app => some { app, entered := x.entered ++ (app.serveCredentials d r.applies).toList }

variable {d : Daemon} {x y : Served} {r : Round} {o : CommandLine} {cwd : Path}

theorem rounds_step_eq_some : d.rounds.step x r = some y ↔
    x.app.reload d r.toReload = .ok y.app ∧
      y.entered = x.entered ++ (y.app.serveCredentials d r.applies).toList := by
  obtain ⟨app, entered⟩ := y
  simp only [rounds]
  split
  · rename_i h
    simp [h]
  · rename_i app' h
    simp only [h, Option.some.injEq, Served.mk.injEq, Except.ok.injEq]
    constructor
    · rintro ⟨rfl, rfl⟩
      exact ⟨rfl, rfl⟩
    · rintro ⟨rfl, rfl⟩
      exact ⟨rfl, rfl⟩

/-! ### The settings in force -/

/-- The working directory in which the reload after `n` others looks at paths. -/
def cwdAt (o : CommandLine) (cwd : Path) (n : ℕ) : Path :=
  if 0 < n ∧ o.daemonType = some .unix then "/" else cwd

/-- The first reload of a run. -/
def firstOf (rs : List Round) (r : Round) : Round := (rs ++ [r]).head (by simp)

/-- What a run of reloads leaves. -/
structure AfterReloads (d : Daemon) (o : CommandLine) (cwd : Path) (n : ℕ) (app : AppState) :
    Prop where
  orig : app.origCommandLine = o
  initialized : app.isInitialized = decide (0 < n)
  cwd : app.cwd = cwdAt o cwd n

theorem AfterReloads.reload {n : ℕ} {app app' : AppState} (h : AfterReloads d o cwd n app)
    (hr : app.reload d r.toReload = .ok app') : AfterReloads d o cwd (n + 1) app' := by
  have hloaded : Loaded app app' ∨ app' = app ∧ app.isInitialized = true := by
    cases hf : app.origCommandLine.configFile.isSome with
    | true => exact .inl (reload_of_configFile hf hr).1
    | false =>
      cases hi : app.isInitialized with
      | false => exact .inl (reload_of_first hf hi hr).1
      | true => exact .inr ⟨reload_of_initialized hf hi hr, rfl⟩
  rcases hloaded with hl | ⟨rfl, hi⟩
  · refine ⟨hl.orig.trans h.orig, by simp [hl.initialized], ?_⟩
    rw [hl.cwd, h.initialized, h.orig, h.cwd]
    unfold cwdAt
    cases n with
    | zero => simp
    | succ n => simp
  · have hn : 0 < n := by simpa [h.initialized] using hi
    refine ⟨h.orig, by simp [hi], ?_⟩
    rw [h.cwd]
    simp [cwdAt, hn]

theorem afterReloads_run : ∀ {rs : List Round} {n : ℕ} {x y : Served},
    AfterReloads d o cwd n x.app → d.rounds.run x rs = some y →
      AfterReloads d o cwd (n + rs.length) y.app := by
  intro rs
  induction rs with
  | nil =>
    rintro n x _ h ⟨⟩
    exact h
  | cons r rs ih =>
    intro n x y h hr
    obtain ⟨z, hst, hr⟩ := Machine.run_cons_eq_some.1 hr
    have := ih (h.reload (rounds_step_eq_some.1 hst).1) hr
    rwa [List.length_cons, Nat.add_comm rs.length 1, ← Nat.add_assoc]

theorem afterReloads_start : AfterReloads d o cwd 0 (.ofCommandLine o cwd) :=
  ⟨rfl, rfl, by simp [AppState.ofCommandLine, cwdAt]⟩

/-- Without a config file nothing changes after the first reload. -/
theorem run_of_noConfigFile : ∀ {rs : List Round} {x y : Served},
    x.app.origCommandLine.configFile.isSome = false → x.app.isInitialized = true →
      d.rounds.run x rs = some y → y.app = x.app := by
  intro rs
  induction rs with
  | nil =>
    rintro x _ - - ⟨⟩
    rfl
  | cons r rs ih =>
    intro x y hf hi hr
    obtain ⟨z, hst, hr⟩ := Machine.run_cons_eq_some.1 hr
    have hz : z.app = x.app := reload_of_initialized hf hi (rounds_step_eq_some.1 hst).1
    exact (ih (hz ▸ hf) (hz ▸ hi) hr).trans hz

/-- The network process is forked, with the identity and the directory of the command line, else
those that are accepted from the file, else the default ones. -/
structure Confined (S : Surroundings) (file : ConfigFile) (o : CommandLine) (app : AppState) :
    Prop where
  shouldFork : app.shouldFork = true
  identity : app.currentCommandLine.runAs =
    (o.runAs.or (file.entries.findSome? (acceptedUser S))).or (defaultAccount S)
  directory : app.currentCommandLine.chrootDir =
    (o.chrootDir.or (file.entries.findSome? (acceptedChroot S))).or (some S.defaultChrootDir)
  applied : ∀ cr, ∃ id dir, app.currentCommandLine.runAs = some id ∧
    app.currentCommandLine.chrootDir = some dir ∧
    app.postForkInServerProcess true cr = some ⟨id.uid, id.gid, some dir⟩

theorem confined_of_ensureNonRoot {S : Surroundings} {file : ConfigFile} {merged : CommandLine}
    {app : AppState} (huid : S.getuid = 0) (hm : mergeConfigFile S file o = .ok merged)
    (he : ensureNonRoot S merged = .ok app.currentCommandLine) : Confined S file o app := by
  obtain ⟨hr, hsome, hdir⟩ := ensureNonRoot_ok huid he
  have hfork : app.shouldFork = true := by simp [AppState.shouldFork, hsome]
  refine ⟨hfork, ?_, ?_, fun cr => ?_⟩
  · rw [hr, mergeConfigFile_runAs hm]
  · rw [hdir, mergeConfigFile_chrootDir hm]
  · obtain ⟨id, hid⟩ := Option.isSome_iff_exists.1 hsome
    obtain ⟨dir, hd⟩ : ∃ dir, app.currentCommandLine.chrootDir = some dir := by
      rw [hdir]
      cases merged.chrootDir <;> exact ⟨_, rfl⟩
    exact ⟨id, dir, hid, hd, by simp [postForkInServerProcess, hid, hd]⟩

/-- **What is in force after a reload**, for a daemon that was started by root.  With a config file
it is the command line merged with what the file is now, as if there had been no reload before;
without one, it is what the first reload made of the command line. -/
theorem settings_after_reload (huid : d.getuid = 0) {rs : List Round} {r : Round} {x : Served}
    (hrun : d.rounds.run { app := .ofCommandLine o cwd } (rs ++ [r]) = some x) :
    (o.configFile.isSome = true → ∃ merged,
      mergeConfigFile (d.surroundings r.lookups (cwdAt o cwd rs.length)) r.file o = .ok merged ∧
      ensureNonRoot (d.surroundings r.lookups (cwdAt o cwd rs.length)) merged =
        .ok x.app.currentCommandLine ∧
      Confined (d.surroundings r.lookups (cwdAt o cwd rs.length)) r.file o x.app) ∧
    (o.configFile.isSome = false →
      ensureNonRoot (d.surroundings (firstOf rs r).lookups cwd) o = .ok x.app.currentCommandLine ∧
      Confined (d.surroundings (firstOf rs r).lookups cwd) .unavailable o x.app ∧
      ∀ y, d.rounds.run { app := .ofCommandLine o cwd } [firstOf rs r] = some y →
        x.app.currentCommandLine = y.app.currentCommandLine) := by
  refine ⟨fun hf => ?_, fun hf => ?_⟩
  · obtain ⟨z, hz, hst⟩ := Machine.run_append_eq_some.1 hrun
    obtain ⟨x', hst, ⟨⟩⟩ := Machine.run_cons_eq_some.1 hst
    have hafter := afterReloads_run afterReloads_start hz
    rw [Nat.zero_add] at hafter
    obtain ⟨-, merged, hm, he⟩ :=
      reload_of_configFile (hafter.orig.symm ▸ hf) (rounds_step_eq_some.1 hst).1
    rw [hafter.orig, hafter.cwd] at hm
    -- `ensureNonRoot` does not look at the working directory.
    exact ⟨merged, hm, he, confined_of_ensureNonRoot huid hm he⟩
  · obtain ⟨r₁, rest, hlist⟩ : ∃ r₁ rest, rs ++ [r] = r₁ :: rest := by
      cases rs with
      | nil => exact ⟨r, [], rfl⟩
      | cons r₁ rs => exact ⟨r₁, rs ++ [r], rfl⟩
    have hfirst : firstOf rs r = r₁ := by simp [firstOf, hlist]
    rw [hlist] at hrun
    rw [hfirst]
    obtain ⟨z, hst, hr⟩ := Machine.run_cons_eq_some.1 hrun
    obtain ⟨hl, he⟩ := reload_of_first hf rfl (rounds_step_eq_some.1 hst).1
    have hx : x.app = z.app := run_of_noConfigFile (by rw [hl.orig]; exact hf) hl.initialized hr
    rw [hx]
    refine ⟨he, confined_of_ensureNonRoot huid rfl he, fun y hy => ?_⟩
    obtain ⟨y', hst', ⟨⟩⟩ := Machine.run_cons_eq_some.1 hy
    rw [Option.some.inj (hst.symm.trans hst')]

/-! ### Never as root -/

/-- The account that is chosen for the network process when the settings are loaded. -/
def selected (d : Daemon) (app : AppState) (r : Round) : Option Identity :=
  let S := d.surroundings r.lookups app.cwd
  let o := app.origCommandLine
  if o.configFile.isSome then
    (o.runAs.or (r.file.entries.findSome? (acceptedUser S))).or (defaultAccount S)
  else if app.isInitialized then app.currentCommandLine.runAs
  else o.runAs.or (defaultAccount S)

/-- The account that is chosen is not root's, or the network process cannot take it on. -/
def Unprivileged (d : Daemon) (x : Served) (r : Round) : Prop :=
  d.getuid = 0 → r.applies = true → ∀ id, selected d x.app r = some id → id.uid ≠ 0

/-- No `serve()` was entered as root. -/
def NeverRoot (x : Served) : Prop := ∀ cr ∈ x.entered, cr.uid ≠ 0

/-- The settings of an ordinary user have no account and no directory; those that a daemon of root
has loaded have an account. -/
structure Consistent (d : Daemon) (app : AppState) : Prop where
  ordinary : d.getuid ≠ 0 → app.origCommandLine.runAs = none ∧
    app.origCommandLine.chrootDir = none ∧ app.shouldFork = false
  root : d.getuid = 0 → app.isInitialized = true → app.currentCommandLine.runAs.isSome = true

theorem consistent_start {L : Lookups} {opts : List Given}
    (h : parse (d.surroundings L cwd) opts = some o) : Consistent d (.ofCommandLine o cwd) := by
  constructor
  · intro huid
    obtain ⟨hr, hc⟩ := parse_confinement (S := d.surroundings L cwd) huid h
    exact ⟨hr, hc, by simp [AppState.shouldFork, AppState.ofCommandLine, hr, hc]⟩
  · intro _ hi
    cases hi

/-- A reload by root: the account is the one that was chosen. -/
theorem reload_selected {app app' : AppState} (huid : d.getuid = 0) (hc : Consistent d app)
    (h : app.reload d r.toReload = .ok app') :
    app'.currentCommandLine.runAs = selected d app r ∧
      app'.currentCommandLine.runAs.isSome = true := by
  cases hf : app.origCommandLine.configFile.isSome with
  | true =>
    obtain ⟨-, merged, hm, he⟩ := reload_of_configFile hf h
    obtain ⟨hr, hs, -⟩ := ensureNonRoot_ok huid he
    rw [mergeConfigFile_runAs hm] at hr
    simp only [selected, hf, if_true]
    exact ⟨hr, hs⟩
  | false =>
    cases hi : app.isInitialized with
    | true =>
      simp only [selected, hf, hi, Bool.false_eq_true, if_false, if_true]
      rw [reload_of_initialized hf hi h]
      exact ⟨rfl, hc.root huid hi⟩
    | false =>
      simp only [selected, hf, hi, Bool.false_eq_true, if_false]
      obtain ⟨hr, hs, -⟩ := ensureNonRoot_ok huid (reload_of_first hf hi h).2
      exact ⟨hr, hs⟩

theorem Consistent.reload {app app' : AppState} (hc : Consistent d app)
    (h : app.reload d r.toReload = .ok app') : Consistent d app' := by
  constructor
  · intro huid
    obtain ⟨hr, hd, hno⟩ := hc.ordinary huid
    -- Nothing is merged into the two settings, and `ensureNonRoot` returns at once.
    have noFork : ∀ {c : CommandLine} {S : Surroundings}, S.getuid ≠ 0 → c.runAs = none →
        c.chrootDir = none → ensureNonRoot S c = .ok app'.currentCommandLine →
        app'.shouldFork = false := by
      intro c S hS hr hd he
      rw [ensureNonRoot_of_ne hS] at he
      simp [AppState.shouldFork, ← Except.ok.inj he, hr, hd]
    cases hf : app.origCommandLine.configFile.isSome with
    | true =>
      obtain ⟨hl, merged, hm, he⟩ := reload_of_configFile hf h
      rw [hl.orig]
      have hu : r.file.entries.findSome? (acceptedUser (d.surroundings r.lookups app.cwd)) = none :=
        List.findSome?_eq_none_iff.2 fun entry _ => acceptedUser_of_ne huid entry
      have hch : r.file.entries.findSome? (acceptedChroot (d.surroundings r.lookups app.cwd)) =
          none :=
        List.findSome?_eq_none_iff.2 fun entry _ => acceptedChroot_of_ne huid entry
      refine ⟨hr, hd, noFork huid ?_ ?_ he⟩
      · rw [mergeConfigFile_runAs hm, hr, hu, Option.or_none]
      · rw [mergeConfigFile_chrootDir hm, hd, hch, Option.or_none]
    | false =>
      cases hi : app.isInitialized with
      | true =>
        rw [reload_of_initialized hf hi h]
        exact ⟨hr, hd, hno⟩
      | false =>
        obtain ⟨hl, he⟩ := reload_of_first hf hi h
        rw [hl.orig]
        exact ⟨hr, hd, noFork huid hr hd he⟩
  · intro huid _
    exact (reload_selected huid hc h).2

/-- With which credentials `serve()` is entered, if it is. -/
theorem serveCredentials_uid {app app' : AppState} (hc : Consistent d app)
    (h : app.reload d r.toReload = .ok app') (cr : Credentials) :
    app'.serveCredentials d r.applies = some cr →
      if d.getuid = 0 then r.applies = true ∧ ∃ id, selected d app r = some id ∧ cr.uid = id.uid
      else cr.uid = d.getuid := by
  intro hcr
  split_ifs with huid
  · obtain ⟨hsel, hsome⟩ := reload_selected huid hc h
    obtain ⟨id, hid⟩ := Option.isSome_iff_exists.1 hsome
    have hfork : app'.shouldFork = true := by simp [AppState.shouldFork, hid]
    simp only [serveCredentials, hfork, if_true, postForkInServerProcess, hid, Bool.true_and] at hcr
    split_ifs at hcr with happ
    refine ⟨by simpa using happ, id, hsel.symm.trans hid, ?_⟩
    rw [← Option.some.inj hcr]
  · have hno := ((hc.reload h).ordinary huid).2.2
    simp only [serveCredentials, hno] at hcr
    rw [← Option.some.inj hcr]
    rfl

/-- A daemon of root enters `serve()` with the account that was chosen, if it can take it on. -/
theorem serveCredentials_of_applies {app app' : AppState} (huid : d.getuid = 0)
    (hc : Consistent d app) (h : app.reload d r.toReload = .ok app') (happ : r.applies = true)
    {id : Identity} (hid : selected d app r = some id) :
    ∃ cr, app'.serveCredentials d r.applies = some cr ∧ cr.uid = id.uid := by
  have hr := (reload_selected huid hc h).1.trans hid
  have hfork : app'.shouldFork = true := by simp [AppState.shouldFork, hr]
  exact ⟨_, by simp only [serveCredentials, hfork, if_true, postForkInServerProcess, hr, happ,
    Bool.not_true, Bool.and_false, Bool.false_eq_true, if_false]; rfl, rfl⟩

/-- **When the network code never runs as root.**  For every command line, every run of reloads
with any content of the config file and any user database: no `serve()` is entered as root if and
only if the daemon was not started by root, or the account that is chosen at each reload (by the
command line, else by the file, else the default account) is not root's whenever the network process
can take it on. -/
theorem neverRoot_iff {x₀ x : Served} (hx₀ : d.rounds.init x₀) {rs : List Round}
    (hrun : d.rounds.run x₀ rs = some x) :
    d.rounds.Always NeverRoot x₀ rs ↔ d.rounds.Along (Unprivileged d) x₀ rs := by
  obtain ⟨L, cwd, opts, o, hp, rfl⟩ := hx₀
  refine Machine.always_iff_along (I := fun x => NeverRoot x ∧ Consistent d x.app)
    (fun _ h => h.1) ?_ ?_ ⟨by simp [NeverRoot], consistent_start hp⟩ hrun
  · rintro x r y ⟨hnever, hc⟩ hok hst
    obtain ⟨hr, hent⟩ := rounds_step_eq_some.1 hst
    refine ⟨fun cr hcr => ?_, hc.reload hr⟩
    rw [hent, List.mem_append, Option.mem_toList] at hcr
    rcases hcr with hcr | hcr
    · exact hnever cr hcr
    · have hcases := serveCredentials_uid hc hr cr hcr
      split_ifs at hcases with huid
      · obtain ⟨happ, id, hid, heq⟩ := hcases
        exact heq ▸ hok huid happ id hid
      · exact hcases ▸ huid
  · rintro x r y ⟨-, hc⟩ hst hok hnever
    obtain ⟨hr, hent⟩ := rounds_step_eq_some.1 hst
    simp only [Unprivileged, not_forall, not_not] at hok
    obtain ⟨huid, happ, id, hid, hroot⟩ := hok
    obtain ⟨cr, hcr, heq⟩ := serveCredentials_of_applies huid hc hr happ hid
    refine hnever cr ?_ (heq.trans hroot)
    rw [hent, hcr]
    simp

/-! ### A daemon that was started by root -/

/-- A system with the accounts `root`, `nobody` and `wsddn`. -/
def someSystem : Lookups where
  passwdByName name :=
    .ok ([("root", ⟨0, 0⟩), ("nobody", ⟨65534, 65534⟩), ("wsddn", ⟨990, 990⟩)].lookup name)
  groupByName name := .ok ([("root", 0), ("nogroup", 65534), ("wsddn", 990)].lookup name)
  createDaemonUser _ := .ok none
  createMissingDirs _ := .ok ()
  absolute cwd path := .ok (if path.startsWith "/" then path
    else if cwd = "/" then "/" ++ path else cwd ++ "/" ++ path)
  fileExists path := .ok (path = "/")
  regexError _ := none
  uuidFromChars _ := none
  parseIntegral _ := none
  trim str := str
  toLower str := str
  toUpper str := str

/-- A daemon that root has started. -/
def rootDaemon : Daemon := { getuid := 0, getgid := 0 }

/-- The daemon as it was started with these options. -/
def started (opts : List Given) : Served :=
  { app := .ofCommandLine ((parse (rootDaemon.surroundings someSystem "/home") opts).getD {}) "/home" }

/-- A round that goes well, with the config file as it is then. -/
def goodRound (file : ConfigFile) : Round := { lookups := someSystem, file }

/-- **With `--user root` the network code runs as root.** -/
theorem root_by_option : rootDaemon.rounds.init (started [.user "root"]) ∧
    (rootDaemon.rounds.run (started [.user "root"]) [goodRound .unavailable]).map Served.entered =
      some [{ uid := 0, gid := 0, root := some "/var/run/wsddn" }] :=
  ⟨⟨someSystem, "/home", [.user "root"], _, rfl, rfl⟩, by decide +kernel⟩

/-- Without options, under the default account, it does not. -/
theorem neverRoot_default :
    rootDaemon.rounds.Always NeverRoot (started []) [goodRound .unavailable] := by
  have hinit : rootDaemon.rounds.init (started []) := ⟨someSystem, "/home", [], _, rfl, rfl⟩
  have hsel : selected rootDaemon (started []).app (goodRound .unavailable) = some ⟨990, 990⟩ := by
    decide +kernel
  refine (neverRoot_iff hinit (Option.some_get (by decide +kernel)).symm).2 ⟨?_, fun _ _ => trivial⟩
  intro _ _ id hid
  rw [← Option.some.inj (hsel.symm.trans hid)]
  decide

/-- The config file asks for `nobody` at first, and cannot be parsed later. -/
def twoReloads : List Round :=
  [goodRound (.table [("user", .string "nobody")])] ++ [goodRound .malformed]

/-- The daemon after the two reloads. -/
def afterTwoReloads : Served :=
  (rootDaemon.rounds.run (started [.config "/etc/wsddn.conf"]) twoReloads).get (by decide +kernel)

/-- The account of the first file is not in force any more. -/
theorem default_afterTwoReloads :
    afterTwoReloads.app.currentCommandLine.runAs = some ⟨990, 990⟩ := by
  have hrun : rootDaemon.rounds.run (started [.config "/etc/wsddn.conf"]) twoReloads =
      some afterTwoReloads := (Option.some_get _).symm
  obtain ⟨merged, -, -, hconf⟩ := (settings_after_reload rfl hrun).1 rfl
  rw [hconf.identity]
  decide +kernel

/-- A daemon that leaves the directory in which it was started. -/
def unixDaemon : Served := started [.unixd, .config "/etc/wsddn.conf"]

/-- A round with a relative path in the config file. -/
def relativeRound : Round := goodRound (.table [("pid-file", .string "wsddn.pid")])

/-- **The same file is read differently by a later reload**: the first one finds the PID file in the
directory of the start, the next one in `/`.  So the settings in force are no function of the file. -/
theorem relative_path_moves :
    (rootDaemon.rounds.run unixDaemon [relativeRound]).map
        (fun x => x.app.currentCommandLine.pidFile) = some (some "/home/wsddn.pid") ∧
    (rootDaemon.rounds.run unixDaemon [relativeRound, relativeRound]).map
        (fun x => x.app.currentCommandLine.pidFile) = some (some "/wsddn.pid") ∧
    ∀ inForce : ConfigFile → CommandLine, ¬ ∀ rs r x,
      (∀ r' ∈ rs ++ [r], r'.lookups = someSystem) →
      rootDaemon.rounds.run unixDaemon (rs ++ [r]) = some x →
        x.app.currentCommandLine = inForce r.file := by
  have hfirst : (rootDaemon.rounds.run unixDaemon [relativeRound]).map
      (fun x => x.app.currentCommandLine.pidFile) = some (some "/home/wsddn.pid") := by
    decide +kernel
  have hsecond : (rootDaemon.rounds.run unixDaemon [relativeRound, relativeRound]).map
      (fun x => x.app.currentCommandLine.pidFile) = some (some "/wsddn.pid") := by
    decide +kernel
  refine ⟨hfirst, hsecond, fun inForce h => ?_⟩
  obtain ⟨x, hx, hpath⟩ := Option.map_eq_some_iff.1 hfirst
  obtain ⟨y, hy, hpath'⟩ := Option.map_eq_some_iff.1 hsecond
  rw [h [] relativeRound x (by simp [relativeRound, goodRound]) hx] at hpath
  rw [h [relativeRound] relativeRound y (by simp [relativeRound, goodRound]) hy, hpath] at hpath'
  exact absurd hpath' (by decide)

end Daemon

end Wsddn

import Wsddn.Config.AppState
import Wsddn.Machine.Basic

/-!
# Switching the log output (`AppState::setLogOutput`)

The log goes to the system's log, to a file or to the console.  The last two are the standard
output, which is redirected, and a logger that writes to it.  `spdlog` keeps its loggers in a
registry by name: `stdout_logger_st` raises if the name is taken, and no logger is ever taken out.
The patterns of the loggers and the standard error are left out.

* `machine` : reloads one after the other, with any merged settings.
* `Free` : the condition on a reload.  It does not ask for a logger whose name is taken.
* `log_output_iff` : **no reload raises and the log goes where the settings say**, exactly if every
  reload meets the condition.
* `init_tracks`, `refresh_tracks` : the reloads are those of `AppState`.
* `second_file` : from one log file to another; the reload raises.
-/

namespace Wsddn

/-- Where the standard output goes. -/
inductive StdTarget where
  | original
  | devNull
  | file (path : Path)
  deriving DecidableEq, Repr

/-- Where a log goes. -/
inductive LogDestination where
  | osLog
  | std (target : StdTarget)
  deriving DecidableEq, Repr

/-- The sink of a logger. -/
inductive LogSink where
  | osLog
  | stdout
  deriving DecidableEq, Repr

/-- What spdlog raises when a logger is made. -/
inductive LogRaised where
  /-- The name of a new logger is taken. -/
  | loggerExists (name : String)
  /-- The log file cannot be opened. -/
  | openLogFile (path : Path)
  deriving DecidableEq, Repr

/-- What a reload finds out when it comes to the log. -/
structure LogAnswers where
  /-- `Argum::shouldUseColor` for the standard output. -/
  useColor : Bool := false
  /-- The log file can be opened. -/
  opens : Bool := true
  deriving DecidableEq, Repr

/-- The logs of the process: `spdlog` and the standard output, and what `AppState` remembers. -/
structure Logging where
  /-- The names in the registry; that of the first logger is empty. -/
  registry : List String := [""]
  /-- The sink of the default logger. -/
  sink : LogSink := .stdout
  stdout : StdTarget := .original
  savedStdOut : StdTarget := .original
  logFilePath : Option Path := none
  logToOsLog : Option Bool := none
  deriving DecidableEq, Repr

namespace Logging

/-- `spdlog::set_default_logger`. -/
def setDefaultLogger (name : String) (sink : LogSink) (g : Logging) : Logging :=
  { g with registry := g.registry.insert name, sink }

/-- `spdlog::stdout_logger_st`. -/
def stdoutLogger (name : String) (g : Logging) : Except LogRaised Logging :=
  if name ∈ g.registry then .error (.loggerExists name)
  else .ok { g with registry := name :: g.registry }

/-- A logger for the standard output becomes the default one. -/
def useStdout (name : String) (g : Logging) : Except LogRaised Logging :=
  (g.stdoutLogger name).map (setDefaultLogger name .stdout)

/-- `redirectStdFile`, for the standard output. -/
def redirectStdOut (target : StdTarget) (g : Logging) : Logging := { g with stdout := target }

/-- The log goes to the system's log. -/
def usesOsLog (haveOsLog : Bool) (c : CommandLine) : Bool :=
  haveOsLog && c.logToOsLog = some true

/-- The log goes to a file. -/
def useFile (a : LogAnswers) (path : Path) (g : Logging) : Except LogRaised Logging :=
  if a.opens then (g.redirectStdOut (.file path)).useStdout "file" else .error (.openLogFile path)

/-- The log goes to the console; the first time the standard output is still what it was. -/
def useConsole (a : LogAnswers) (firstTime : Bool) (g : Logging) : Except LogRaised Logging :=
  let g := if firstTime then g else g.redirectStdOut g.savedStdOut
  -- a logger with colors is made without asking the registry
  if a.useColor then .ok (g.setDefaultLogger "console" .stdout) else g.useStdout "console"

/-- The three branches of `setLogOutput`. -/
def useLog (haveOsLog : Bool) (a : LogAnswers) (firstTime : Bool) (c : CommandLine) (g : Logging) :
    Except LogRaised Logging :=
  if usesOsLog haveOsLog c then .ok (g.setDefaultLogger "os_log" .osLog)
  else
    match c.logFile with
    | some path => g.useFile a path
    | none => g.useConsole a firstTime

/-- `AppState::setLogOutput`; the settings are only noted if nothing is raised. -/
def setLogOutput (haveOsLog : Bool) (a : LogAnswers) (firstTime : Bool) (c : CommandLine)
    (g : Logging) : Except LogRaised Logging :=
  (g.useLog haveOsLog a firstTime c).map fun g =>
    { g with logFilePath := c.logFile, logToOsLog := c.logToOsLog }

/-- What `init` does with the log. -/
def init (haveOsLog : Bool) (a : LogAnswers) (c : CommandLine) (g : Logging) :
    Except LogRaised Logging :=
  if c.daemonType = some .unix then
    { g with savedStdOut := .devNull }.setLogOutput haveOsLog a false c
  else { g with savedStdOut := g.stdout }.setLogOutput haveOsLog a true c

/-- The settings of the log have changed. -/
def Changed (haveOsLog : Bool) (c : CommandLine) (g : Logging) : Prop :=
  c.logFile ≠ g.logFilePath ∨ (haveOsLog ∧ g.logToOsLog ≠ c.logToOsLog)

instance (haveOsLog : Bool) (c : CommandLine) (g : Logging) : Decidable (Changed haveOsLog c g) :=
  inferInstanceAs (Decidable (_ ∨ _))

/-- What `refresh` does with it. -/
def refresh (haveOsLog : Bool) (a : LogAnswers) (c : CommandLine) (g : Logging) :
    Except LogRaised Logging :=
  if Changed haveOsLog c g then g.setLogOutput haveOsLog a false c else .ok g

/-- Where the log goes. -/
def destination (g : Logging) : LogDestination :=
  match g.sink with
  | .osLog => .osLog
  | .stdout => .std g.stdout

/-- Where the settings say that it goes: without a log file to the standard output as it was, which
a traditional UNIX daemon does not have. -/
def wanted (haveOsLog : Bool) (c : CommandLine) (g : Logging) : LogDestination :=
  if usesOsLog haveOsLog c then .osLog
  else
    match c.logFile with
    | some path => .std (.file path)
    | none => .std g.savedStdOut

end Logging

open Logging

/-- Some reloads: the logs, the settings of the last one, and what it raised. -/
structure Reloads where
  log : Logging := {}
  last : Option CommandLine := none
  raised : Option LogRaised := none
  deriving DecidableEq

namespace Reloads

/-- What a reload does with the log; the first one initializes. -/
def reloadLog (haveOsLog : Bool) (x : Reloads) (c : CommandLine) (a : LogAnswers) :
    Except LogRaised Logging :=
  if x.last.isSome then x.log.refresh haveOsLog a c else x.log.init haveOsLog a c

/-- A reload with the merged settings `c`.  One that raises ends the daemon. -/
def step (haveOsLog : Bool) (x : Reloads) (e : CommandLine × LogAnswers) : Option Reloads :=
  if x.raised.isSome then none
  else
    match x.reloadLog haveOsLog e.1 e.2 with
    | .ok g => some { log := g, last := some e.1 }
    | .error r => some { x with raised := some r }

/-- No logger was refused, and the log goes where the last settings say. -/
structure Right (haveOsLog : Bool) (x : Reloads) : Prop where
  notRefused : ∀ name, x.raised ≠ some (.loggerExists name)
  destination : x.raised = none → ∀ c ∈ x.last, x.log.destination = wanted haveOsLog c x.log

/-- The name that a reload asks `stdout_logger_st` for. -/
def asksFor (haveOsLog : Bool) (c : CommandLine) (a : LogAnswers) : Option String :=
  if usesOsLog haveOsLog c then none
  else
    match c.logFile with
    | some _ => if a.opens then some "file" else none
    | none => if a.useColor then none else some "console"

/-- The name that the reload asks for is free, if the log is switched. -/
def Free (haveOsLog : Bool) (x : Reloads) (e : CommandLine × LogAnswers) : Prop :=
  (x.last.isSome = true → Changed haveOsLog e.1 x.log) →
    ∀ name ∈ asksFor haveOsLog e.1 e.2, name ∉ x.log.registry

/-- Reloads with any settings. -/
def machine (haveOsLog : Bool) : Machine Reloads (CommandLine × LogAnswers) where
  init x := x = {}
  step := step haveOsLog

end Reloads

/-! ### Setting the log output -/

namespace Logging

open Reloads

variable {haveOsLog firstTime : Bool} {a : LogAnswers} {c : CommandLine} {g g' : Logging}

@[simp] theorem redirectStdOut_registry (target : StdTarget) :
    (g.redirectStdOut target).registry = g.registry := rfl

theorem useStdout_of_taken {name : String} (h : name ∈ g.registry) :
    g.useStdout name = .error (.loggerExists name) := by
  simp [useStdout, stdoutLogger, h, Except.map]

theorem useStdout_of_free {name : String} (h : name ∉ g.registry) :
    g.useStdout name = .ok { g with registry := name :: g.registry, sink := .stdout } := by
  simp [useStdout, stdoutLogger, h, Except.map, setDefaultLogger]

/-- A name that is taken is refused. -/
theorem setLogOutput_of_taken {name : String} (ha : asksFor haveOsLog c a = some name)
    (ht : name ∈ g.registry) :
    g.setLogOutput haveOsLog a firstTime c = .error (.loggerExists name) := by
  unfold asksFor at ha
  unfold setLogOutput useLog
  by_cases hos : usesOsLog haveOsLog c = true
  · rw [if_pos hos] at ha
    cases ha
  rw [if_neg hos] at ha ⊢
  rcases hf : c.logFile with _ | path <;> rw [hf] at ha
  · obtain ⟨hcolor, rfl⟩ : a.useColor = false ∧ "console" = name := by simpa using ha
    have ht' : "console" ∈
        (if firstTime = true then g else g.redirectStdOut g.savedStdOut).registry := by
      split_ifs <;> exact ht
    simp [useConsole, hcolor, useStdout_of_taken ht', Except.map]
  · obtain ⟨hopens, rfl⟩ : a.opens = true ∧ "file" = name := by simpa using ha
    have ht' : "file" ∈ (g.redirectStdOut (.file path)).registry := ht
    simp [useFile, hopens, useStdout_of_taken ht', Except.map]

/-- A call that returns has remembered the settings. -/
theorem setLogOutput_ok (h : g.setLogOutput haveOsLog a firstTime c = .ok g') :
    g'.logFilePath = c.logFile ∧ g'.logToOsLog = c.logToOsLog := by
  unfold setLogOutput at h
  rcases hu : g.useLog haveOsLog a firstTime c with r | g₁ <;> rw [hu] at h <;> cases h
  exact ⟨rfl, rfl⟩

/-- **A name that is free** is not: the log is switched, or its file cannot be opened. -/
theorem setLogOutput_of_free (hfree : ∀ name ∈ asksFor haveOsLog c a, name ∉ g.registry) :
    (∃ g', g.setLogOutput haveOsLog a firstTime c = .ok g' ∧
      ((firstTime = true → g.stdout = g.savedStdOut) → g'.destination = wanted haveOsLog c g')) ∨
    ∃ path, g.setLogOutput haveOsLog a firstTime c = .error (.openLogFile path) := by
  unfold asksFor at hfree
  unfold setLogOutput useLog
  by_cases hos : usesOsLog haveOsLog c = true
  · rw [if_pos hos]
    refine .inl ⟨_, rfl, fun _ => ?_⟩
    simp [destination, wanted, hos, setDefaultLogger]
  rw [if_neg hos] at hfree ⊢
  rcases hf : c.logFile with _ | path <;> simp only [hf] at hfree ⊢
  · left
    obtain ⟨g₁, hg₁, hsink, hout, hsaved⟩ : ∃ g₁, g.useConsole a firstTime = .ok g₁ ∧
        g₁.sink = .stdout ∧ g₁.stdout = (if firstTime then g.stdout else g.savedStdOut) ∧
        g₁.savedStdOut = g.savedStdOut := by
      by_cases hcolor : a.useColor = true
      · refine ⟨_, by simp [useConsole, hcolor]; rfl, rfl, ?_, ?_⟩ <;>
          cases firstTime <;> rfl
      · have hfree' : "console" ∉
            (if firstTime = true then g else g.redirectStdOut g.savedStdOut).registry := by
          have : "console" ∉ g.registry := by simpa [hcolor] using hfree
          split_ifs <;> exact this
        refine ⟨_, by simp [useConsole, hcolor, useStdout_of_free hfree']; rfl, rfl, ?_, ?_⟩ <;>
          cases firstTime <;> rfl
    rw [hg₁]
    refine ⟨_, rfl, fun hfirst => ?_⟩
    simp only [destination, hsink, wanted, hos, hf, hout, hsaved]
    cases firstTime with
    | false => rfl
    | true => simp [hfirst rfl]
  · by_cases hopens : a.opens = true
    · left
      have hfree' : "file" ∉ (g.redirectStdOut (.file path)).registry := by
        simpa [hopens] using hfree
      rw [useFile, if_pos hopens, useStdout_of_free hfree']
      refine ⟨_, rfl, fun _ => ?_⟩
      simp [destination, wanted, hos, hf, redirectStdOut]
    · right
      exact ⟨path, by simp [useFile, hopens, Except.map]⟩

/-- Settings of the log that have not changed say the same. -/
theorem wanted_of_not_changed {c₀ : CommandLine} (hc : ¬ Changed haveOsLog c g)
    (hfile : g.logFilePath = c₀.logFile) (hos : haveOsLog = true → g.logToOsLog = c₀.logToOsLog) :
    wanted haveOsLog c g = wanted haveOsLog c₀ g := by
  obtain ⟨hf, ho⟩ := not_or.1 hc
  have hf : c.logFile = c₀.logFile := (not_not.1 hf).trans hfile
  cases haveOsLog with
  | false => simp [wanted, usesOsLog, hf]
  | true =>
    have ho : c.logToOsLog = c₀.logToOsLog :=
      (not_not.1 (not_and.1 ho rfl)).symm.trans (hos rfl)
    simp [wanted, usesOsLog, hf, ho]

end Logging

/-! ### What `AppState` remembers -/

/-- The state remembers what the log does. -/
structure AppState.Tracks (s : AppState) (g : Logging) : Prop where
  logFilePath : g.logFilePath = s.logFilePath
  logToOsLog : g.logToOsLog = s.logToOsLog

section Tracks

variable {d : Daemon} {L : Lookups} {s t : AppState} {a : LogAnswers} {g g' : Logging}

theorem init_tracks (hs : s.init d L = .ok t)
    (hg : g.init d.haveOsLog a s.currentCommandLine = .ok g') : t.Tracks g' := by
  have hset : g'.logFilePath = s.currentCommandLine.logFile ∧
      g'.logToOsLog = s.currentCommandLine.logToOsLog := by
    unfold Logging.init at hg
    split_ifs at hg <;> exact setLogOutput_ok hg
  unfold AppState.init at hs
  obtain ⟨current, -, hs⟩ := CommandLine.bind_eq_ok.1 hs
  cases hs
  split_ifs <;> exact ⟨hset.1, hset.2⟩

theorem tracks_ite_setPidFile {P : Prop} [Decidable P] :
    (if P then s.setPidFile else s).Tracks g ↔ s.Tracks g := by
  split_ifs <;> exact ⟨fun h => ⟨h.1, h.2⟩, fun h => ⟨h.1, h.2⟩⟩

theorem refresh_tracks (h : s.Tracks g) (hs : s.refresh d L = .ok t)
    (hg : g.refresh d.haveOsLog a t.currentCommandLine = .ok g') : t.Tracks g' := by
  unfold AppState.refresh at hs
  obtain ⟨current, -, hs⟩ := CommandLine.bind_eq_ok.1 hs
  have hcur : t.currentCommandLine = current := by
    cases hs
    dsimp only
    split_ifs <;> rfl
  rw [hcur] at hg
  simp only [Logging.refresh, Changed, h.logFilePath, h.logToOsLog] at hg
  cases hs
  rw [tracks_ite_setPidFile]
  -- the log level does not matter either
  by_cases hl : current.logLevel ≠ s.logLevel <;>
    simp only [hl, if_false, AppState.setLogLevel] <;> split_ifs at hg ⊢
  · obtain ⟨hf, ho⟩ := setLogOutput_ok hg
    exact ⟨hf, ho⟩
  · exact Except.ok.inj hg ▸ ⟨h.1, h.2⟩
  · obtain ⟨hf, ho⟩ := setLogOutput_ok hg
    exact ⟨hf, ho⟩
  · exact Except.ok.inj hg ▸ ⟨h.1, h.2⟩

end Tracks

/-! ### Reloads -/

namespace Reloads

variable {haveOsLog : Bool} {x y : Reloads} {e : CommandLine × LogAnswers}

/-- What holds after every reload that is not refused a logger. -/
structure Inv (haveOsLog : Bool) (x : Reloads) : Prop where
  right : Right haveOsLog x
  logFilePath : x.raised = none → ∀ c ∈ x.last, x.log.logFilePath = c.logFile
  logToOsLog : x.raised = none → ∀ c ∈ x.last, haveOsLog = true →
    x.log.logToOsLog = c.logToOsLog

theorem reloadLog_of_free (h : Inv haveOsLog x) (hr : x.raised = none)
    (hfree : Free haveOsLog x e) :
    (∃ g, x.reloadLog haveOsLog e.1 e.2 = .ok g ∧ g.destination = wanted haveOsLog e.1 g ∧
      g.logFilePath = e.1.logFile ∧ (haveOsLog = true → g.logToOsLog = e.1.logToOsLog)) ∨
    ∃ path, x.reloadLog haveOsLog e.1 e.2 = .error (.openLogFile path) := by
  obtain ⟨c, a⟩ := e
  have hset : ∀ {firstTime : Bool} {g : Logging}, (firstTime = true → g.stdout = g.savedStdOut) →
      (∀ name ∈ asksFor haveOsLog c a, name ∉ g.registry) →
      (∃ g', g.setLogOutput haveOsLog a firstTime c = .ok g' ∧
        g'.destination = wanted haveOsLog c g' ∧ g'.logFilePath = c.logFile ∧
        (haveOsLog = true → g'.logToOsLog = c.logToOsLog)) ∨
      ∃ path, g.setLogOutput haveOsLog a firstTime c = .error (.openLogFile path) := by
    intro firstTime g hfirst hname
    rcases setLogOutput_of_free hname with ⟨g', hg', hd⟩ | hp
    · obtain ⟨hf, ho⟩ := setLogOutput_ok hg'
      exact .inl ⟨g', hg', hd hfirst, hf, fun _ => ho⟩
    · exact .inr hp
  unfold reloadLog
  rcases hlast : x.last with _ | c₀
  · -- the first reload
    have hnone : x.last.isSome = false := by simp [hlast]
    have hname : ∀ name ∈ asksFor haveOsLog c a, name ∉ x.log.registry :=
      hfree fun hs => absurd hs (by simp [hnone])
    simp only [Option.isSome_none, Bool.false_eq_true, if_false, init]
    split_ifs
    · exact hset nofun hname
    · exact hset (fun _ => rfl) hname
  · simp only [Option.isSome_some, if_true, refresh]
    split_ifs with hc
    · exact hset nofun (hfree fun _ => hc)
    · -- nothing has changed for the log
      obtain ⟨hf, ho⟩ := not_or.1 hc
      refine .inl ⟨_, rfl, ?_, (not_not.1 hf).symm, fun hos => not_not.1 (not_and.1 ho hos)⟩
      rw [wanted_of_not_changed hc (h.logFilePath hr c₀ hlast) (h.logToOsLog hr c₀ hlast)]
      exact h.right.destination hr c₀ hlast

/-- The log of a reload that asks for a name that is taken. -/
theorem reloadLog_of_not_free (hfree : ¬ Free haveOsLog x e) :
    ∃ name, x.reloadLog haveOsLog e.1 e.2 = .error (.loggerExists name) := by
  obtain ⟨hc, name, ha, ht⟩ : (x.last.isSome = true → Changed haveOsLog e.1 x.log) ∧
      ∃ name, asksFor haveOsLog e.1 e.2 = some name ∧ name ∈ x.log.registry := by
    simpa [Free] using hfree
  refine ⟨name, ?_⟩
  unfold reloadLog
  split_ifs with hl
  · rw [refresh, if_pos (hc hl)]
    exact setLogOutput_of_taken ha ht
  · unfold init
    split_ifs <;> exact setLogOutput_of_taken ha ht

/-- A reload that meets the condition. -/
theorem inv_step (h : Inv haveOsLog x) (hfree : Free haveOsLog x e)
    (hst : x.step haveOsLog e = some y) : Inv haveOsLog y := by
  unfold step at hst
  split_ifs at hst with hr
  have hr : x.raised = none := by simpa using hr
  rcases reloadLog_of_free h hr hfree with ⟨g, hg, hd, hf, ho⟩ | ⟨path, hp⟩
  · rw [hg] at hst
    cases hst
    refine ⟨⟨by simp, fun _ c hc => ?_⟩, fun _ c hc => ?_, fun _ c hc => ?_⟩ <;>
      obtain rfl := Option.some.inj hc
    · exact hd
    · exact hf
    · exact ho
  · rw [hp] at hst
    cases hst
    exact ⟨⟨by simp, by simp⟩, by simp, by simp⟩

/-- A reload that does not. -/
theorem not_right_step (hfree : ¬ Free haveOsLog x e) (hst : x.step haveOsLog e = some y) :
    ¬ Right haveOsLog y := by
  obtain ⟨name, hn⟩ := reloadLog_of_not_free hfree
  unfold step at hst
  split_ifs at hst
  rw [hn] at hst
  cases hst
  exact fun h => h.notRefused name rfl

/-- **Any number of switches**: no reload raises because of a logger, and after each the log goes
where its settings say, exactly if no reload asks for a logger whose name is taken. -/
theorem log_output_iff {es : List (CommandLine × LogAnswers)}
    (hr : (machine haveOsLog).run {} es = some y) :
    (machine haveOsLog).Always (Right haveOsLog) {} es ↔
      (machine haveOsLog).Along (Free haveOsLog) {} es :=
  Machine.always_iff_along (I := Inv haveOsLog) (fun _ h => h.right)
    (fun _ _ _ h hok hst => inv_step h hok hst)
    (fun _ _ _ _ hst hok => not_right_step hok hst)
    ⟨⟨by simp, by simp⟩, by simp, by simp⟩ hr

/-! ### Two runs -/

/-- The settings with this log file. -/
def logTo (logFile : Option Path) : CommandLine := { logFile }

/-- One switch to a log file, where the console has colors. -/
theorem right_once : (machine false).Always (Right false) {}
    [(logTo none, { useColor := true }), (logTo (some "/a"), {})] := by
  obtain ⟨y, hr⟩ : ∃ y, (machine false).run {}
      [(logTo none, { useColor := true }), (logTo (some "/a"), {})] = some y :=
    Option.isSome_iff_exists.1 (by decide)
  refine (log_output_iff hr).2 ?_
  refine ⟨fun _ => by decide, fun x hx => ⟨fun _ => ?_, fun _ _ => trivial⟩⟩
  cases hx
  decide

/-- **A second log file is refused**, and so is the console a second time. -/
theorem second_file :
    (((machine false).run {} [(logTo none, {}), (logTo (some "/a"), {}),
      (logTo (some "/b"), {})]).map Reloads.raised) = some (some (.loggerExists "file")) ∧
    ¬ (machine false).Always (Right false) {} [(logTo none, {}), (logTo (some "/a"), {}),
      (logTo (some "/b"), {})] := by
  have hrun : ((machine false).run {} [(logTo none, {}), (logTo (some "/a"), {}),
      (logTo (some "/b"), {})]).map Reloads.raised = some (some (.loggerExists "file")) := by
    decide
  refine ⟨hrun, fun h => ?_⟩
  obtain ⟨y, hy, hraised⟩ := Option.map_eq_some_iff.1 hrun
  exact (h.last hy).notRefused "file" hraised

end Reloads

end Wsddn

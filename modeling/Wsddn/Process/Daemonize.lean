import Wsddn.Process.Signals

/-!
# Becoming a daemon (`AppState::daemonize`)

The original process waits for a report in a pipe; its child becomes the leader of a new session and
leaves the daemon behind, which writes the report when it is ready.  The processes share nothing but
the pipe, and each of them can be killed between any two system calls.  The control signals are
blocked then, and all others have their default actions.

* `State.step` : a system call of one of the three processes, or the end of one by a signal.
* `Inv` : what holds in every state; kept by `Inv.step`.
* `report_true` : **the exit status of the original process tells the truth.**
* `calls_end` : **no process waits forever**, and there are at most eleven system calls.
* `starts` : when nothing fails and nobody is killed, the daemon starts.
-/

namespace Wsddn

namespace Process

namespace Daemonize

/-! ### The processes -/

/-- The next system call of a process. -/
inductive Point where
  /-- The original process. -/
  | fork
  | closeWrite
  | readReport
  /-- The first child. -/
  | closeRead
  | setSession
  | forkAgain
  | leave
  /-- The daemon. -/
  | setGroup
  | changeDirectory
  | writeReport
  | closeReport
  /-- `daemonize` has returned. -/
  | started
  deriving DecidableEq, Repr

/-- One of the processes. -/
structure Proc where
  pid : ℕ
  sid : ℕ
  pgid : ℕ
  cwd : String
  /-- `reportPipeRead` and `reportPipeWrite` are open. -/
  readEnd : Bool := true
  writeEnd : Bool := true
  point : Point := .fork
  /-- `none` as long as the process runs. -/
  status : Option WaitStatus := none
  deriving DecidableEq, Repr

/-- The process ends, and its descriptors are closed. -/
def Proc.exit (p : Proc) (status : WaitStatus) : Proc :=
  { p with readEnd := false, writeEnd := false, status := some status }

/-- The process runs, and this is its next call. -/
def Proc.At (p : Proc) (x : Point) : Prop := p.status = none ∧ p.point = x

instance (p : Proc) (x : Point) : Decidable (p.At x) := inferInstanceAs (Decidable (_ ∧ _))

/-- The three processes, and the number of bytes in the pipe. -/
structure State where
  original : Proc
  first : Option Proc := none
  second : Option Proc := none
  bytes : ℕ := 0
  deriving DecidableEq, Repr

/-- Which of the processes. -/
inductive Who where
  | original
  | first
  | second
  deriving DecidableEq, Repr

/-- The next system call of a process, with what the kernel decides: whether it fails, and the pid
of a new process.  Or a process is ended by a signal. -/
inductive Event where
  | call (who : Who) (ok : Bool) (pid : ℕ)
  | kill (who : Who) (termsig : ℕ)
  deriving DecidableEq, Repr

/-- `SIGPIPE`. -/
def sigPipe : ℕ := 13

namespace State

/-- The processes that there are. -/
def procs (s : State) : List Proc := s.original :: (s.first.toList ++ s.second.toList)

/-- The pipe can be read from, and written to. -/
def readable (s : State) : Bool := s.procs.any fun p => p.readEnd

/-- Somebody has the end of the pipe that is written to. -/
def writable (s : State) : Bool := s.procs.any fun p => p.writeEnd

/-- No process uses the number. -/
def unused (s : State) (pid : ℕ) : Bool :=
  s.procs.all fun p => p.status ≠ none || p.pid ≠ pid && p.sid ≠ pid && p.pgid ≠ pid

/-- A call of the original process.  A read from the pipe is not interrupted, since no signal has a
handler. -/
def callOriginal (s : State) (ok : Bool) (pid : ℕ) : Option State :=
  let p := s.original
  match p.point with
  | .fork =>
    if !ok then some { s with original := p.exit (.exited exitFailure) }
    else if s.unused pid then
      some { s with
        original := { p with point := .closeWrite }
        first := some { p with pid, point := .closeRead } }
    else none
  | .closeWrite => some { s with original := { p with writeEnd := false, point := .readReport } }
  | .readReport =>
    if 0 < s.bytes then
      some { s with original := p.exit (.exited exitSuccess), bytes := s.bytes - 1 }
    else if s.writable then none -- the read waits
    else some { s with original := p.exit (.exited exitFailure) }
  | _ => none

/-- A call of the first child.  An exception ends the process with `EXIT_FAILURE`. -/
def callFirst (s : State) (p : Proc) (ok : Bool) (pid : ℕ) : Option State :=
  match p.point with
  | .closeRead => some { s with first := some { p with readEnd := false, point := .setSession } }
  | .setSession =>
    -- `setsid` fails for the leader of a group
    if p.pgid = p.pid then some { s with first := some (p.exit (.exited exitFailure)) }
    else some { s with first := some { p with sid := p.pid, pgid := p.pid, point := .forkAgain } }
  | .forkAgain =>
    if !ok then some { s with first := some (p.exit (.exited exitFailure)) }
    else if s.unused pid then
      some { s with
        first := some { p with point := .leave }
        second := some { p with pid, point := .setGroup } }
    else none
  | .leave => some { s with first := some (p.exit (.exited exitSuccess)) }
  | _ => none

/-- A call of the daemon. -/
def callSecond (s : State) (p : Proc) (ok : Bool) : Option State :=
  match p.point with
  | .setGroup =>
    -- `setpgid` fails for the leader of a session
    if p.sid = p.pid then some { s with second := some (p.exit (.exited exitFailure)) }
    else some { s with second := some { p with pgid := p.pid, point := .changeDirectory } }
  | .changeDirectory =>
    if !ok then some { s with second := some (p.exit (.exited exitFailure)) }
    else some { s with second := some { p with cwd := "/", point := .writeReport } }
  | .writeReport =>
    if s.readable then
      some { s with second := some { p with point := .closeReport }, bytes := s.bytes + 1 }
    else some { s with second := some (p.exit (.signaled sigPipe)) } -- nobody reads any more
  | .closeReport =>
    -- `reportPipeWrite` goes out of scope
    some { s with second := some { p with writeEnd := false, point := .started } }
  | _ => none

/-- What happens in an event.  Only a process that runs makes a call, and only such a one is
ended. -/
def step (s : State) : Event → Option State
  | .call .original ok pid => if s.original.status = none then s.callOriginal ok pid else none
  | .call .first ok pid =>
    s.first.bind fun p => if p.status = none then s.callFirst p ok pid else none
  | .call .second ok _ => s.second.bind fun p => if p.status = none then s.callSecond p ok else none
  | .kill .original termsig =>
    if s.original.status = none then
      some { s with original := s.original.exit (.signaled termsig) }
    else none
  | .kill .first termsig =>
    s.first.bind fun p =>
      if p.status = none then some { s with first := some (p.exit (.signaled termsig)) } else none
  | .kill .second termsig =>
    s.second.bind fun p =>
      if p.status = none then some { s with second := some (p.exit (.signaled termsig)) } else none

end State

/-- The original process, before the first `fork`. -/
def start (pid sid pgid : ℕ) (cwd : String) : State where
  original := { pid, sid, pgid, cwd }

/-- The program, from the call of `daemonize` on. -/
def machine (pid sid pgid : ℕ) (cwd : String) : Machine State Event where
  init s := s = start pid sid pgid cwd
  step := State.step

/-! ### What an event does -/

/-- A step of a child that forks nothing and writes nothing. -/
inductive Moves (ok : Bool) (p : Proc) : Proc → Prop
  | closeRead (h : p.point = .closeRead) :
      Moves ok p { p with readEnd := false, point := .setSession }
  | isLeader (h : p.point = .setSession) (hgroup : p.pgid = p.pid) :
      Moves ok p (p.exit (.exited exitFailure))
  | setSession (h : p.point = .setSession) (hgroup : p.pgid ≠ p.pid) :
      Moves ok p { p with sid := p.pid, pgid := p.pid, point := .forkAgain }
  | forkAgainFails (h : p.point = .forkAgain) (hok : ok = false) :
      Moves ok p (p.exit (.exited exitFailure))
  | leave (h : p.point = .leave) : Moves ok p (p.exit (.exited exitSuccess))
  | leadsSession (h : p.point = .setGroup) (hsession : p.sid = p.pid) :
      Moves ok p (p.exit (.exited exitFailure))
  | setGroup (h : p.point = .setGroup) (hsession : p.sid ≠ p.pid) :
      Moves ok p { p with pgid := p.pid, point := .changeDirectory }
  | changeDirectoryFails (h : p.point = .changeDirectory) (hok : ok = false) :
      Moves ok p (p.exit (.exited exitFailure))
  | changeDirectory (h : p.point = .changeDirectory) :
      Moves ok p { p with cwd := "/", point := .writeReport }
  | closeReport (h : p.point = .closeReport) :
      Moves ok p { p with writeEnd := false, point := .started }

/-- Everything that can happen in an event. -/
inductive Stepped (s : State) : Event → State → Prop
  | forkFails {pid : ℕ} (h : s.original.At .fork) :
      Stepped s (.call .original false pid)
        { s with original := s.original.exit (.exited exitFailure) }
  | fork {pid : ℕ} (h : s.original.At .fork) (hpid : s.unused pid = true) :
      Stepped s (.call .original true pid)
        { s with
          original := { s.original with point := .closeWrite }
          first := some { s.original with pid, point := .closeRead } }
  | closeWrite {ok : Bool} {pid : ℕ} (h : s.original.At .closeWrite) :
      Stepped s (.call .original ok pid)
        { s with original := { s.original with writeEnd := false, point := .readReport } }
  | readReport {ok : Bool} {pid : ℕ} (h : s.original.At .readReport) (hbytes : 0 < s.bytes) :
      Stepped s (.call .original ok pid)
        { s with original := s.original.exit (.exited exitSuccess), bytes := s.bytes - 1 }
  | readEnd {ok : Bool} {pid : ℕ} (h : s.original.At .readReport) (hbytes : s.bytes = 0)
      (hwritable : s.writable = false) :
      Stepped s (.call .original ok pid)
        { s with original := s.original.exit (.exited exitFailure) }
  | forkAgain {p : Proc} {pid : ℕ} (hp : s.first = some p) (h : p.At .forkAgain)
      (hpid : s.unused pid = true) :
      Stepped s (.call .first true pid)
        { s with
          first := some { p with point := .leave }
          second := some { p with pid, point := .setGroup } }
  | first {p p' : Proc} {ok : Bool} {pid : ℕ} (hp : s.first = some p) (hrun : p.status = none)
      (h : Moves ok p p') : Stepped s (.call .first ok pid) { s with first := some p' }
  | writeReport {p : Proc} {ok : Bool} {pid : ℕ} (hp : s.second = some p) (h : p.At .writeReport)
      (hreadable : s.readable = true) :
      Stepped s (.call .second ok pid)
        { s with second := some { p with point := .closeReport }, bytes := s.bytes + 1 }
  | brokenPipe {p : Proc} {ok : Bool} {pid : ℕ} (hp : s.second = some p) (h : p.At .writeReport)
      (hreadable : s.readable = false) :
      Stepped s (.call .second ok pid) { s with second := some (p.exit (.signaled sigPipe)) }
  | second {p p' : Proc} {ok : Bool} {pid : ℕ} (hp : s.second = some p) (hrun : p.status = none)
      (h : Moves ok p p') : Stepped s (.call .second ok pid) { s with second := some p' }
  | killOriginal {termsig : ℕ} (h : s.original.status = none) :
      Stepped s (.kill .original termsig)
        { s with original := s.original.exit (.signaled termsig) }
  | killFirst {p : Proc} {termsig : ℕ} (hp : s.first = some p) (h : p.status = none) :
      Stepped s (.kill .first termsig) { s with first := some (p.exit (.signaled termsig)) }
  | killSecond {p : Proc} {termsig : ℕ} (hp : s.second = some p) (h : p.status = none) :
      Stepped s (.kill .second termsig) { s with second := some (p.exit (.signaled termsig)) }

variable {s t : State} {e : Event}

theorem callOriginal_cases {ok : Bool} {pid : ℕ} (hrun : s.original.status = none)
    (h : s.callOriginal ok pid = some t) : Stepped s (.call .original ok pid) t := by
  unfold State.callOriginal at h
  cases hpoint : s.original.point <;> simp only [hpoint] at h <;> try cases h
  case fork =>
    cases ok with
    | false =>
      obtain rfl := Option.some.inj h
      exact .forkFails ⟨hrun, hpoint⟩
    | true =>
      rw [if_neg (by simp)] at h
      split_ifs at h with hpid
      obtain rfl := Option.some.inj h
      exact .fork ⟨hrun, hpoint⟩ hpid
  case closeWrite => exact .closeWrite ⟨hrun, hpoint⟩
  case readReport =>
    split_ifs at h with hbytes hwritable
    · obtain rfl := Option.some.inj h
      exact .readReport ⟨hrun, hpoint⟩ hbytes
    · obtain rfl := Option.some.inj h
      exact .readEnd ⟨hrun, hpoint⟩ (by omega) (by simpa using hwritable)

theorem callFirst_cases {p : Proc} {ok : Bool} {pid : ℕ} (hp : s.first = some p)
    (hrun : p.status = none) (h : s.callFirst p ok pid = some t) :
    Stepped s (.call .first ok pid) t := by
  unfold State.callFirst at h
  cases hpoint : p.point <;> simp only [hpoint] at h <;> try cases h
  case closeRead => exact .first hp hrun (.closeRead hpoint)
  case setSession =>
    split_ifs at h with hgroup
    · obtain rfl := Option.some.inj h
      exact .first hp hrun (.isLeader hpoint hgroup)
    · obtain rfl := Option.some.inj h
      exact .first hp hrun (.setSession hpoint hgroup)
  case forkAgain =>
    cases ok with
    | false =>
      obtain rfl := Option.some.inj h
      exact .first hp hrun (.forkAgainFails hpoint rfl)
    | true =>
      rw [if_neg (by simp)] at h
      split_ifs at h with hpid
      obtain rfl := Option.some.inj h
      exact .forkAgain hp ⟨hrun, hpoint⟩ hpid
  case leave => exact .first hp hrun (.leave hpoint)

theorem callSecond_cases {p : Proc} {ok : Bool} {pid : ℕ} (hp : s.second = some p)
    (hrun : p.status = none) (h : s.callSecond p ok = some t) :
    Stepped s (.call .second ok pid) t := by
  unfold State.callSecond at h
  cases hpoint : p.point <;> simp only [hpoint] at h <;> try cases h
  case setGroup =>
    split_ifs at h with hsession
    · obtain rfl := Option.some.inj h
      exact .second hp hrun (.leadsSession hpoint hsession)
    · obtain rfl := Option.some.inj h
      exact .second hp hrun (.setGroup hpoint hsession)
  case changeDirectory =>
    cases ok with
    | false =>
      obtain rfl := Option.some.inj h
      exact .second hp hrun (.changeDirectoryFails hpoint rfl)
    | true =>
      obtain rfl := Option.some.inj h
      exact .second hp hrun (.changeDirectory hpoint)
  case writeReport =>
    split_ifs at h with hreadable
    · obtain rfl := Option.some.inj h
      exact .writeReport hp ⟨hrun, hpoint⟩ hreadable
    · obtain rfl := Option.some.inj h
      exact .brokenPipe hp ⟨hrun, hpoint⟩ (by simpa using hreadable)
  case closeReport => exact .second hp hrun (.closeReport hpoint)

theorem step_cases (h : s.step e = some t) : Stepped s e t := by
  cases e with
  | call who ok pid =>
    cases who with
    | original =>
      simp only [State.step] at h
      split_ifs at h with hrun
      exact callOriginal_cases hrun h
    | first =>
      obtain ⟨p, hp, h⟩ := Option.bind_eq_some_iff.1 h
      split_ifs at h with hrun
      exact callFirst_cases hp hrun h
    | second =>
      obtain ⟨p, hp, h⟩ := Option.bind_eq_some_iff.1 h
      split_ifs at h with hrun
      exact callSecond_cases hp hrun h
  | kill who termsig =>
    cases who with
    | original =>
      simp only [State.step] at h
      split_ifs at h with hrun
      obtain rfl := Option.some.inj h
      exact .killOriginal hrun
    | first =>
      obtain ⟨p, hp, h⟩ := Option.bind_eq_some_iff.1 h
      split_ifs at h with hrun
      obtain rfl := Option.some.inj h
      exact .killFirst hp hrun
    | second =>
      obtain ⟨p, hp, h⟩ := Option.bind_eq_some_iff.1 h
      split_ifs at h with hrun
      obtain rfl := Option.some.inj h
      exact .killSecond hp hrun

/-! ### What holds in every state -/

/-- The points of the first child, and those after `setsid`. -/
def Point.ofFirst : Point → Bool
  | .closeRead | .setSession | .forkAgain | .leave => true
  | _ => false

/-- The points of the first child after `setsid`. -/
def Point.inSession : Point → Bool
  | .forkAgain | .leave => true
  | _ => false

/-- The points of the daemon, those with `/` as the directory, and those after the report. -/
def Point.ofSecond : Point → Bool
  | .setGroup | .changeDirectory | .writeReport | .closeReport | .started => true
  | _ => false

/-- The points of the daemon after it has changed its directory. -/
def Point.atRoot : Point → Bool
  | .writeReport | .closeReport | .started => true
  | _ => false

/-- The points of the daemon after its report. -/
def Point.reported : Point → Bool
  | .closeReport | .started => true
  | _ => false

/-- The first child; `o` is the process that was started. -/
structure IsFirst (o p : Proc) : Prop where
  point : p.point.ofFirst = true
  fresh : p.pid ≠ o.sid
  group : p.point.inSession = false → p.pgid ≠ p.pid
  session : p.point.inSession = true → p.sid = p.pid
  reads : p.readEnd = true ↔ p.status = none ∧ p.point = .closeRead
  writes : p.writeEnd = true ↔ p.status = none

/-- The daemon, the child of `f`. -/
structure IsSecond (f d : Proc) : Prop where
  point : d.point.ofSecond = true
  session : d.sid = f.pid
  fresh : d.pid ≠ d.sid
  group : d.point ≠ .setGroup → d.pgid = d.pid
  cwd : d.point.atRoot = true → d.cwd = "/"
  reads : d.readEnd = false
  writes : d.writeEnd = true ↔ d.status = none ∧ d.point ≠ .started

/-- The original process, before and after its `fork`. -/
structure IsOriginal (o p : Proc) : Prop where
  point : p.point = .fork ∨ p.point = .closeWrite ∨ p.point = .readReport
  same : p.sid = o.sid ∧ p.pgid = o.pgid
  reads : p.readEnd = true ↔ p.status = none
  writes : p.writeEnd = true ↔ p.status = none ∧ p.point ≠ .readReport

/-- What holds in every state. -/
structure Inv (o : Proc) (s : State) : Prop where
  original : IsOriginal o s.original
  forked : s.original.point = .fork ↔ s.first = none
  first : ∀ p ∈ s.first, IsFirst o p
  forkedAgain : s.second.isSome = true ↔ ∃ p ∈ s.first, p.point = .leave
  second : ∀ p ∈ s.first, ∀ d ∈ s.second, IsSecond p d
  bytes : 0 < s.bytes ∨ s.original.status = some (.exited exitSuccess) →
    ∃ d ∈ s.second, d.point.reported = true
  unread : s.original.status = none → (∃ d ∈ s.second, d.point.reported = true) → 0 < s.bytes
  failed : s.original.status = some (.exited exitFailure) →
    (∀ p ∈ s.first, p.status ≠ none) ∧ ∀ d ∈ s.second, d.status ≠ none ∧ d.point.reported = false

variable {o p p' f d : Proc} {ok : Bool} {status : WaitStatus}

theorem IsOriginal.exit (h : IsOriginal o p) : IsOriginal o (p.exit status) :=
  ⟨h.point, h.same, by simp [Proc.exit], by simp [Proc.exit]⟩

theorem IsFirst.exit (h : IsFirst o p) : IsFirst o (p.exit status) :=
  ⟨h.point, h.fresh, h.group, h.session, by simp [Proc.exit], by simp [Proc.exit]⟩

theorem IsSecond.exit (h : IsSecond f d) : IsSecond f (d.exit status) :=
  ⟨h.point, h.session, h.fresh, h.group, h.cwd, rfl, by simp [Proc.exit]⟩

theorem Moves.isFirst (h : Moves ok p p') (hp : IsFirst o p) : IsFirst o p' := by
  have hpoint := hp.point
  have hreads := hp.reads
  cases h with
  | closeRead h =>
    exact ⟨rfl, hp.fresh, fun _ => hp.group (by rw [h]; rfl), fun hs => (nomatch hs), by simp,
      hp.writes⟩
  | isLeader => exact hp.exit
  | setSession h =>
    exact ⟨rfl, hp.fresh, fun hs => (nomatch hs), fun _ => rfl, by simpa [h] using hreads,
      hp.writes⟩
  | forkAgainFails => exact hp.exit
  | leave => exact hp.exit
  | leadsSession h => simp [h, Point.ofFirst] at hpoint
  | setGroup h => simp [h, Point.ofFirst] at hpoint
  | changeDirectoryFails h => simp [h, Point.ofFirst] at hpoint
  | changeDirectory h => simp [h, Point.ofFirst] at hpoint
  | closeReport h => simp [h, Point.ofFirst] at hpoint

theorem Moves.isSecond (h : Moves ok d p') (hd : IsSecond f d) : IsSecond f p' := by
  have hpoint := hd.point
  have hwrites := hd.writes
  cases h with
  | closeRead h => simp [h, Point.ofSecond] at hpoint
  | isLeader h => simp [h, Point.ofSecond] at hpoint
  | setSession h => simp [h, Point.ofSecond] at hpoint
  | forkAgainFails h => simp [h, Point.ofSecond] at hpoint
  | leave h => simp [h, Point.ofSecond] at hpoint
  | leadsSession => exact hd.exit
  | setGroup h =>
    exact ⟨rfl, hd.session, hd.fresh, fun _ => rfl, fun hs => (nomatch hs), hd.reads,
      by simpa [h] using hwrites⟩
  | changeDirectoryFails => exact hd.exit
  | changeDirectory h =>
    exact ⟨rfl, hd.session, hd.fresh, fun _ => hd.group (by simp [h]), fun _ => rfl, hd.reads,
      by simpa [h] using hwrites⟩
  | closeReport h =>
    exact ⟨rfl, hd.session, hd.fresh, fun _ => hd.group (by simp [h]),
      fun _ => hd.cwd (by simp [h, Point.atRoot]), hd.reads, by simp⟩

/-- A move is no report, and no fork. -/
theorem Moves.point_iff (h : Moves ok p p') :
    p'.point.reported = p.point.reported ∧ (p'.point = .leave ↔ p.point = .leave) := by
  cases h <;> simp_all [Proc.exit, Point.reported]

theorem Moves.pid_eq (h : Moves ok p p') : p'.pid = p.pid := by
  cases h <;> rfl

/-- The pid of a new process. -/
theorem unused_iff {pid : ℕ} (h : s.unused pid = true) (hp : p ∈ s.procs) (hrun : p.status = none) :
    p.pid ≠ pid ∧ p.sid ≠ pid ∧ p.pgid ≠ pid := by
  have := List.all_eq_true.1 h p hp
  simpa [hrun, and_assoc] using this

theorem inv_start (pid sid pgid : ℕ) (cwd : String) :
    Inv (start pid sid pgid cwd).original (start pid sid pgid cwd) where
  original := ⟨.inl rfl, ⟨rfl, rfl⟩, by simp [start], by simp [start]⟩
  forked := by simp [start]
  first := fun _ h => nomatch h
  forkedAgain := by simp [start]
  second := fun _ h => nomatch h
  bytes := by simp [start]
  unread := by simp [start]
  failed := fun h => nomatch h

/-- As long as a child runs the original process cannot know that it has failed. -/
theorem Inv.not_failed (h : Inv o s) (hp : s.first = some p) (hrun : p.status = none) :
    s.original.status ≠ some (.exited exitFailure) :=
  fun hfailed => (h.failed hfailed).1 p hp hrun

theorem Inv.not_failed_second (h : Inv o s) (hd : s.second = some d) (hrun : d.status = none) :
    s.original.status ≠ some (.exited exitFailure) :=
  fun hfailed => ((h.failed hfailed).2 d hd).1 hrun

/-- Before the first `fork` there are no children, and before the second one no daemon. -/
theorem Inv.not_forked (h : Inv o s) (hfork : s.original.point = .fork) :
    s.first = none ∧ s.second = none := by
  have hfirst := h.forked.1 hfork
  have := h.forkedAgain
  exact ⟨hfirst, by simpa [hfirst] using this⟩

theorem Inv.not_forkedAgain (h : Inv o s) (hp : s.first = some p) (hpoint : p.point ≠ .leave) :
    s.second = none := by
  have := h.forkedAgain
  simpa [hp, hpoint] using this

theorem Inv.isSecond (h : Inv o s) (hd : s.second = some d) : ∃ f ∈ s.first, IsSecond f d := by
  obtain ⟨f, hf, -⟩ := h.forkedAgain.1 (by simp [hd])
  exact ⟨f, hf, h.second f hf d hd⟩

/-- The first child is another one, and has forked as before. -/
theorem Inv.setFirst (h : Inv o s) (hp : s.first = some p) (hrun : p.status = none)
    (hfirst : IsFirst o p') (hpid : p'.pid = p.pid)
    (hleave : p'.point = .leave ↔ p.point = .leave) :
    Inv o { s with first := some p' } where
  original := h.original
  forked := by simpa [hp] using h.forked
  first := fun q hq => by
    obtain rfl := Option.some.inj hq
    exact hfirst
  forkedAgain := by
    rw [h.forkedAgain, hp]
    simp [hleave]
  second := fun q hq d hd => by
    obtain rfl := Option.some.inj hq
    have := h.second p hp d hd
    exact { this with session := this.session.trans hpid.symm }
  bytes := h.bytes
  unread := h.unread
  failed := fun hfailed => absurd hfailed (h.not_failed hp hrun)

/-- The daemon is another one, and has reported as before. -/
theorem Inv.setSecond (h : Inv o s) (hd : s.second = some d) (hrun : d.status = none)
    (hsecond : ∀ f ∈ s.first, IsSecond f p')
    (hreported : p'.point.reported = d.point.reported) : Inv o { s with second := some p' } where
  original := h.original
  forked := h.forked
  first := h.first
  forkedAgain := by
    rw [← h.forkedAgain, hd]
    simp
  second := fun f hf q hq => by
    obtain rfl := Option.some.inj hq
    exact hsecond f hf
  bytes := fun hbytes => by
    obtain ⟨q, hq, hr⟩ := h.bytes hbytes
    obtain rfl := Option.some.inj (hd.symm.trans hq)
    exact ⟨p', rfl, hreported.trans hr⟩
  unread := fun hwaits ⟨q, hq, hr⟩ => by
    obtain rfl := Option.some.inj hq
    exact h.unread hwaits ⟨d, hd, hreported.symm.trans hr⟩
  failed := fun hfailed => absurd hfailed (h.not_failed_second hd hrun)

/-- At the end of the pipe no child runs, and none has reported. -/
theorem Inv.readEnd (h : Inv o s) (hread : s.original.At .readReport) (hbytes : s.bytes = 0)
    (hwritable : s.writable = false) :
    (∀ p ∈ s.first, p.status ≠ none) ∧
      ∀ d ∈ s.second, d.status ≠ none ∧ d.point.reported = false := by
  have hclosed : ∀ p ∈ s.procs, p.writeEnd = false := by
    simpa [State.writable] using hwritable
  have hunreported : ∀ d ∈ s.second, d.point.reported = false := fun d hd => by
    by_contra hreported
    have := h.unread hread.1 ⟨d, hd, by simpa using hreported⟩
    omega
  refine ⟨fun p hp hrun => ?_, fun d hd => ⟨fun hrun => ?_, hunreported d hd⟩⟩
  -- a child that runs has the pipe open, the daemon until it has reported
  · have hmem : p ∈ s.procs := by simp [State.procs, Option.mem_def.1 hp]
    exact absurd ((h.first p hp).writes.2 hrun) (by simp [hclosed p hmem])
  · have hmem : d ∈ s.procs := by simp [State.procs, Option.mem_def.1 hd]
    obtain ⟨f, -, hsecond⟩ := h.isSecond hd
    have hnot : d.point ≠ .started := fun hstarted => by
      simpa [hstarted, Point.reported] using hunreported d hd
    exact absurd (hsecond.writes.2 ⟨hrun, hnot⟩) (by simp [hclosed d hmem])

/-- An end that is no success says nothing about a report. -/
theorem Inv.bytes_of_ne (h : Inv o s) (hne : status ≠ .exited exitSuccess) :
    0 < s.bytes ∨ status = .exited exitSuccess → ∃ d ∈ s.second, d.point.reported = true :=
  fun hb => h.bytes (.inl (hb.resolve_right hne))

/-- The original process ends. -/
theorem Inv.exitOriginal (h : Inv o s) {bytes : ℕ}
    (hbytes : 0 < bytes ∨ status = .exited exitSuccess →
      ∃ d ∈ s.second, d.point.reported = true)
    (hfailed : status = .exited exitFailure → (∀ p ∈ s.first, p.status ≠ none) ∧
      ∀ d ∈ s.second, d.status ≠ none ∧ d.point.reported = false) :
    Inv o { s with original := s.original.exit status, bytes := bytes } where
  original := h.original.exit
  forked := h.forked
  first := h.first
  forkedAgain := h.forkedAgain
  second := h.second
  bytes := fun hb => hbytes (hb.imp_right fun he => Option.some.inj he)
  unread := fun hwaits => nomatch hwaits
  failed := fun he => hfailed (Option.some.inj he)

theorem Inv.step (h : Inv o s) (hst : Stepped s e t) : Inv o t := by
  cases hst with
  | forkFails hfork =>
    obtain ⟨hfirst, hsecond⟩ := h.not_forked hfork.2
    exact h.exitOriginal (h.bytes_of_ne (by decide))
      fun _ => by simp [hfirst, hsecond]
  | fork hfork hpid =>
    obtain ⟨hfirst, hsecond⟩ := h.not_forked hfork.2
    obtain ⟨-, hsid, hpgid⟩ := unused_iff hpid (p := s.original) (by simp [State.procs]) hfork.1
    have hreads := h.original.reads
    have hwrites := h.original.writes
    simp only [hfork.1, hfork.2] at hreads hwrites
    exact
      { original :=
          ⟨.inr (.inl rfl), h.original.same, h.original.reads, by simpa [hfork.1] using hwrites⟩
        forked := by simp
        first := fun q hq => by
          obtain rfl := Option.some.inj hq
          refine ⟨rfl, ?_, fun _ => hpgid, fun hs => (nomatch hs), ?_, ?_⟩
          · exact h.original.same.1 ▸ hsid.symm
          · simpa [hfork.1] using hreads
          · simpa [hfork.1] using hwrites
        forkedAgain := by simp [hsecond]
        second := fun q _ d hd => by simp [hsecond] at hd
        bytes := h.bytes
        unread := h.unread
        failed := fun he => by simp [hfork.1] at he }
  | closeWrite hclose =>
    have hforked : s.first ≠ none := fun hnone => by
      simpa [hclose.2] using h.forked.2 hnone
    exact
      { original := ⟨.inr (.inr rfl), h.original.same, h.original.reads, by simp⟩
        forked := by simpa using hforked
        first := h.first
        forkedAgain := h.forkedAgain
        second := h.second
        bytes := h.bytes
        unread := h.unread
        failed := h.failed }
  | readReport hread hbytes =>
    have hreported := h.bytes (.inl hbytes)
    exact h.exitOriginal (fun _ => hreported) fun he => nomatch he
  | readEnd hread hbytes hwritable =>
    exact h.exitOriginal (h.bytes_of_ne (by decide))
      fun _ => h.readEnd hread hbytes hwritable
  | @forkAgain p pid hp hfork hpid =>
    have hfirst := h.first p hp
    have hsecond := h.not_forkedAgain hp (by simp [hfork.2])
    have hsession := hfirst.session (by simp [hfork.2, Point.inSession])
    have hreads := hfirst.reads
    have hwrites := hfirst.writes
    obtain ⟨hne, -, -⟩ := unused_iff hpid (p := p) (by simp [State.procs, hp]) hfork.1
    exact
      { original := h.original
        forked := by simpa [hp] using h.forked
        first := fun q hq => by
          obtain rfl := Option.some.inj hq
          exact ⟨rfl, hfirst.fresh, fun hs => (nomatch hs), fun _ => hsession,
            by simpa [hfork.2] using hreads, hwrites⟩
        forkedAgain := by simp
        second := fun q hq d hd => by
          obtain rfl := Option.some.inj hq
          obtain rfl := Option.some.inj hd
          exact ⟨rfl, hsession, hsession ▸ hne.symm, fun hs => absurd rfl hs,
            fun hs => (nomatch hs), by simpa [hfork.2] using hreads, by simpa using hwrites⟩
        -- no report without a daemon
        bytes := fun hb => by
          obtain ⟨d, hd, -⟩ := h.bytes hb
          simp [hsecond] at hd
        unread := fun _ ⟨d, hd, hr⟩ => by
          obtain rfl := Option.some.inj hd
          cases hr
        failed := fun he => absurd he (h.not_failed hp hfork.1) }
  | first hp hrun hmoves =>
    exact h.setFirst hp hrun (hmoves.isFirst (h.first _ hp)) hmoves.pid_eq hmoves.point_iff.2
  | @writeReport d _ _ hd hwrite _ =>
    exact
      { original := h.original
        forked := h.forked
        first := h.first
        forkedAgain := by
          rw [← h.forkedAgain, hd]
          simp
        second := fun f hf q hq => by
          obtain rfl := Option.some.inj hq
          have := h.second f hf d hd
          exact ⟨rfl, this.session, this.fresh, fun _ => this.group (by simp [hwrite.2]),
            fun _ => this.cwd (by simp [hwrite.2, Point.atRoot]), this.reads,
            by simpa [hwrite.2] using this.writes⟩
        bytes := fun _ => ⟨_, rfl, rfl⟩
        unread := fun _ _ => Nat.succ_pos _
        failed := fun he => absurd he (h.not_failed_second hd hwrite.1) }
  | brokenPipe hd hwrite _ =>
    exact h.setSecond hd hwrite.1 (fun f hf => (h.second f hf _ hd).exit) rfl
  | second hd hrun hmoves =>
    exact h.setSecond hd hrun (fun f hf => hmoves.isSecond (h.second f hf _ hd)) hmoves.point_iff.1
  | killOriginal =>
    exact h.exitOriginal (h.bytes_of_ne fun he => nomatch he) fun he => nomatch he
  | killFirst hp hrun => exact h.setFirst hp hrun (h.first _ hp).exit rfl Iff.rfl
  | killSecond hd hrun => exact h.setSecond hd hrun (fun f hf => (h.second f hf _ hd).exit) rfl

theorem inv_of_run {pid sid pgid : ℕ} {cwd : String} {ls : List Event}
    (hrun : (machine pid sid pgid cwd).run (start pid sid pgid cwd) ls = some s) :
    Inv (start pid sid pgid cwd).original s :=
  Machine.run_invariant (fun _ _ _ h hst => h.step (step_cases hst)) (inv_start pid sid pgid cwd)
    hrun

/-! ### The report -/

/-- What `daemonize` is for: the process has left the session `sid` for one that it does not lead,
in a group of its own and with `/` as the directory. -/
structure Detached (sid : ℕ) (d : Proc) : Prop where
  session : d.sid ≠ sid
  notLeader : d.pid ≠ d.sid
  group : d.pgid = d.pid
  cwd : d.cwd = "/"

theorem Inv.detached (h : Inv o s) (hd : s.second = some d) (hreported : d.point.reported = true) :
    Detached o.sid d := by
  obtain ⟨f, hf, hsecond⟩ := h.isSecond hd
  refine ⟨?_, hsecond.fresh, hsecond.group ?_, hsecond.cwd ?_⟩
  · rw [hsecond.session]
    exact (h.first f hf).fresh
  · intro hpoint
    simp [hpoint, Point.reported] at hreported
  · cases hpoint : d.point <;> simp_all [Point.reported, Point.atRoot]

/-- Nothing happens once the original process has seen the end of the pipe. -/
theorem Inv.over (h : Inv o s) (hfailed : s.original.status = some (.exited exitFailure)) :
    s.step e = none := by
  obtain ⟨hfirst, hsecond⟩ := h.failed hfailed
  by_contra hstep
  obtain ⟨t, ht⟩ := Option.ne_none_iff_exists'.1 hstep
  cases step_cases ht with
  | forkFails h => simp [h.1] at hfailed
  | fork h => simp [h.1] at hfailed
  | closeWrite h => simp [h.1] at hfailed
  | readReport h => simp [h.1] at hfailed
  | readEnd h => simp [h.1] at hfailed
  | killOriginal h => simp [h] at hfailed
  | forkAgain hp h => exact hfirst _ hp h.1
  | first hp hrun => exact hfirst _ hp hrun
  | killFirst hp hrun => exact hfirst _ hp hrun
  | writeReport hd h => exact (hsecond _ hd).1 h.1
  | brokenPipe hd h => exact (hsecond _ hd).1 h.1
  | second hd hrun => exact (hsecond _ hd).1 hrun
  | killSecond hd hrun => exact (hsecond _ hd).1 hrun

/-- The daemon has reported. -/
def State.Reported (s : State) : Prop := ∃ d ∈ s.second, d.point.reported = true

/-- Only the original process reads the pipe when there is a daemon. -/
theorem Inv.waits (h : Inv o s) (hd : s.second = some d) (hreadable : s.readable = true) :
    s.original.status = none := by
  obtain ⟨f, hf, hleave⟩ := h.forkedAgain.1 (by simp [hd])
  obtain ⟨p, hp, hread⟩ := List.any_eq_true.1 hreadable
  simp only [State.procs, hd, Option.mem_def.1 hf, Option.toList_some, List.cons_append,
    List.nil_append, List.mem_cons, List.not_mem_nil, or_false] at hp
  rcases hp with rfl | rfl | rfl
  · exact h.original.reads.1 hread
  · -- the first child closed its end long before it forked
    have := ((h.first p hf).reads.1 hread).2
    rw [hleave] at this
    cases this
  · simp [(h.second f hf p hd).reads] at hread

/-- A step after the end of the original process is no report. -/
theorem Inv.unheard (h : Inv o s) (hst : Stepped s e t) (hended : s.original.status ≠ none) :
    t.original.status ≠ none ∧ (t.Reported → s.Reported) := by
  cases hst with
  | forkFails h => exact absurd h.1 hended
  | fork h => exact absurd h.1 hended
  | closeWrite h => exact absurd h.1 hended
  | readReport h => exact absurd h.1 hended
  | readEnd h => exact absurd h.1 hended
  | killOriginal h => exact absurd h hended
  | forkAgain =>
    refine ⟨hended, fun ⟨q, hq, hr⟩ => ?_⟩
    obtain rfl := Option.some.inj hq
    cases hr
  | first => exact ⟨hended, id⟩
  | killFirst => exact ⟨hended, id⟩
  | writeReport hd _ hreadable => exact absurd (h.waits hd hreadable) hended
  | brokenPipe hd | killSecond hd =>
    refine ⟨hended, fun ⟨q, hq, hr⟩ => ?_⟩
    obtain rfl := Option.some.inj hq
    exact ⟨_, hd, hr⟩
  | second hd _ hmoves =>
    refine ⟨hended, fun ⟨q, hq, hr⟩ => ?_⟩
    obtain rfl := Option.some.inj hq
    exact ⟨_, hd, hmoves.point_iff.1.symm.trans hr⟩

/-- **The exit status of the original process tells the truth**, wherever any of the processes is
killed.  `EXIT_SUCCESS`: there was a report, by a detached daemon.  `EXIT_FAILURE`: nothing is left
that runs, and there was no report.  When it ends before it has heard of a daemon, then no daemon
starts. -/
theorem report_true {pid sid pgid : ℕ} {cwd : String} {before after : List Event}
    (hbefore : (machine pid sid pgid cwd).run (start pid sid pgid cwd) before = some s)
    (hafter : (machine pid sid pgid cwd).run s after = some t) :
    (s.original.status = some (.exited exitSuccess) →
      ∃ d ∈ s.second, d.point.reported = true ∧ Detached sid d) ∧
    (s.original.status = some (.exited exitFailure) →
      (∀ e, s.step e = none) ∧ ¬ s.Reported) ∧
    (s.original.status ≠ none → t.Reported → s.Reported) := by
  have hinv := inv_of_run hbefore
  refine ⟨fun hsuccess => ?_, fun hfailure => ⟨fun _ => hinv.over hfailure, ?_⟩, fun hended => ?_⟩
  · obtain ⟨d, hd, hr⟩ := hinv.bytes (.inr hsuccess)
    exact ⟨d, hd, hr, hinv.detached hd hr⟩
  · rintro ⟨d, hd, hr⟩
    simp [((hinv.failed hfailure).2 d hd).2] at hr
  · have hkept : Inv (start pid sid pgid cwd).original t ∧ t.original.status ≠ none ∧
        (t.Reported → s.Reported) := by
      refine Machine.run_invariant (M := machine pid sid pgid cwd)
        (I := fun u => Inv (start pid sid pgid cwd).original u ∧ u.original.status ≠ none ∧
          (u.Reported → s.Reported)) (fun u l v hu hst => ?_) ⟨hinv, hended, id⟩ hafter
      obtain ⟨hv, hended, himp⟩ := hu
      have hstepped := step_cases hst
      obtain ⟨hended', himp'⟩ := hv.unheard hstepped hended
      exact ⟨hv.step hstepped, hended', himp ∘ himp'⟩
    exact hkept.2.2

/-- A daemon that starts, from the process 10 in the session 5. -/
def starting : List Event :=
  [.call .original true 11, .call .original true 0, .call .first true 0, .call .first true 0,
    .call .first true 12, .call .second true 0, .call .first true 0, .call .second true 0,
    .call .second true 0, .call .second true 0, .call .original true 0]

/-- The state after these events: the daemon runs and the others have ended. -/
def settled : State where
  original :=
    { pid := 10, sid := 5, pgid := 10, cwd := "/home", readEnd := false, writeEnd := false,
      point := .readReport, status := some (.exited exitSuccess) }
  first := some
    { pid := 11, sid := 11, pgid := 11, cwd := "/home", readEnd := false, writeEnd := false,
      point := .leave, status := some (.exited exitSuccess) }
  second := some
    { pid := 12, sid := 11, pgid := 12, cwd := "/", readEnd := false, writeEnd := false,
      point := .started }

theorem run_starting :
    (machine 10 5 10 "/home").run (start 10 5 10 "/home") starting = some settled := rfl

theorem report_true_starting :
    ∃ d ∈ settled.second, d.point.reported = true ∧ Detached 5 d := by
  have hafter : (machine 10 5 10 "/home").run settled [] = some settled := rfl
  exact (report_true run_starting hafter).1 rfl

/-! ### The calls -/

/-- The calls that are left, those of the children to come included. -/
def Point.rank : Point → ℕ
  | .fork => 11
  | .closeWrite => 2
  | .readReport => 1
  | .closeRead => 8
  | .setSession => 7
  | .forkAgain => 6
  | .leave => 1
  | .setGroup => 4
  | .changeDirectory => 3
  | .writeReport => 2
  | .closeReport => 1
  | .started => 0

/-- The calls that the process still makes at most. -/
def Proc.rank (p : Proc) : ℕ := if p.status = none then p.point.rank else 0

/-- The calls that are still made at most. -/
def State.rank (s : State) : ℕ :=
  s.original.rank + s.first.elim 0 Proc.rank + s.second.elim 0 Proc.rank

/-- The event is a call and not a signal. -/
def Event.isCall : Event → Bool
  | .call .. => true
  | .kill .. => false

@[simp] theorem Proc.rank_exit (p : Proc) : (p.exit status).rank = 0 := rfl

theorem Proc.At.rank_eq {x : Point} (h : p.At x) : p.rank = x.rank := by
  rw [Proc.rank, if_pos h.1, h.2]

theorem Moves.rank_lt (h : Moves ok p p') (hrun : p.status = none) : p'.rank < p.rank := by
  cases h <;> simp_all [Proc.rank, Proc.exit, Point.rank]

/-- **Every call is one call less**, and nothing adds a call. -/
theorem Inv.rank_le (h : Inv o s) (hst : Stepped s e t) :
    t.rank + (if e.isCall = true then 1 else 0) ≤ s.rank := by
  simp only [State.rank]
  cases hst with
  | forkFails hfork =>
    simp only [hfork.rank_eq, Proc.rank_exit, Point.rank, Event.isCall, if_true]
    omega
  | @fork pid hfork =>
    obtain ⟨hfirst, hsecond⟩ := h.not_forked hfork.2
    have hparent : ({ s.original with point := .closeWrite } : Proc).rank = 2 := if_pos hfork.1
    have hchild : ({ s.original with pid, point := .closeRead } : Proc).rank = 8 := if_pos hfork.1
    simp [hfirst, hsecond, hfork.rank_eq, hparent, hchild, Point.rank, Event.isCall]
  | closeWrite hclose =>
    have hnext : ({ s.original with writeEnd := false, point := .readReport } : Proc).rank = 1 :=
      if_pos hclose.1
    simp only [hclose.rank_eq, hnext, Point.rank, Event.isCall, if_true]
    omega
  | readReport hread =>
    simp only [hread.rank_eq, Proc.rank_exit, Point.rank, Event.isCall, if_true]
    omega
  | readEnd hread =>
    simp only [hread.rank_eq, Proc.rank_exit, Point.rank, Event.isCall, if_true]
    omega
  | @forkAgain p pid hp hfork =>
    have hsecond := h.not_forkedAgain hp (by simp [hfork.2])
    have hparent : ({ p with point := .leave } : Proc).rank = 1 := if_pos hfork.1
    have hchild : ({ p with pid, point := .setGroup } : Proc).rank = 4 := if_pos hfork.1
    simp [hp, hsecond, hfork.rank_eq, hparent, hchild, Point.rank, Event.isCall]
  | first hp hrun hmoves =>
    have := hmoves.rank_lt hrun
    simp only [hp, Option.elim_some, Event.isCall, if_true]
    omega
  | @writeReport d _ _ hd hwrite =>
    have hnext : ({ d with point := .closeReport } : Proc).rank = 1 := if_pos hwrite.1
    simp only [hd, Option.elim_some, hwrite.rank_eq, hnext, Point.rank, Event.isCall, if_true]
    omega
  | brokenPipe hd hwrite =>
    simp only [hd, Option.elim_some, hwrite.rank_eq, Proc.rank_exit, Point.rank, Event.isCall,
      if_true]
    omega
  | second hd hrun hmoves =>
    have := hmoves.rank_lt hrun
    simp only [hd, Option.elim_some, Event.isCall, if_true]
    omega
  | killOriginal => simp [Event.isCall]
  | killFirst hp => simp [hp, Event.isCall]
  | killSecond hd => simp [hd, Event.isCall]

/-- Nobody can make a call. -/
def State.Stuck (s : State) : Prop := ∀ who ok pid, s.step (.call who ok pid) = none

/-- The first child never waits. -/
theorem State.Stuck.first (h : Inv o s) (hs : s.Stuck) (hp : s.first = some p) :
    p.status ≠ none := by
  intro hrun
  have hnone := hs .first false 0
  have hpoint := (h.first p hp).point
  simp only [State.step, hp, Option.bind_some, hrun, if_true, State.callFirst] at hnone
  cases hx : p.point <;> simp [hx, Point.ofFirst] at hpoint hnone
  split at hnone <;> cases hnone

/-- Nor does the daemon. -/
theorem State.Stuck.second (h : Inv o s) (hs : s.Stuck) (hd : s.second = some d)
    (hrun : d.status = none) : d.point = .started := by
  have hnone := hs .second false 0
  obtain ⟨f, -, hsecond⟩ := h.isSecond hd
  have hpoint := hsecond.point
  simp only [State.step, hd, Option.bind_some, hrun, if_true, State.callSecond] at hnone
  cases hx : d.point <;> simp [hx, Point.ofSecond] at hpoint hnone ⊢
  · split at hnone <;> cases hnone
  · split at hnone <;> cases hnone

/-- The original process waits for the others only. -/
theorem State.Stuck.original (h : Inv o s) (hs : s.Stuck) : s.original.status ≠ none := by
  intro hrun
  have hnone := hs .original false 0
  simp only [State.step, hrun, if_true, State.callOriginal] at hnone
  -- who has the pipe open for writing can make a call
  have hwritable : s.writable = false := by
    by_contra hwritable
    rw [Bool.not_eq_false, State.writable, List.any_eq_true] at hwritable
    obtain ⟨p, hp, hopen⟩ := hwritable
    simp only [State.procs, List.mem_cons, List.mem_append, Option.mem_toList] at hp
    rcases hp with rfl | hp | hp
    · obtain ⟨-, hpoint⟩ := h.original.writes.1 hopen
      rcases h.original.point with hx | hx | hx <;> simp [hx] at hpoint hnone
    · exact hs.first h hp ((h.first p hp).writes.1 hopen)
    · obtain ⟨f, -, hsecond⟩ := h.isSecond hp
      obtain ⟨hruns, hnot⟩ := hsecond.writes.1 hopen
      exact hnot (hs.second h hp hruns)
  rcases h.original.point with hx | hx | hx <;> simp only [hx] at hnone
  · simp at hnone
  · cases hnone
  · rw [hwritable] at hnone
    split at hnone <;> simp at hnone

/-- **No process waits forever.**  Whatever is killed or fails, there are at most eleven calls, and
when no process can make another one, then the original process and the first child have ended,
and if the daemon runs, it has started. -/
theorem calls_end {pid sid pgid : ℕ} {cwd : String} {ls : List Event}
    (hrun : (machine pid sid pgid cwd).run (start pid sid pgid cwd) ls = some s) :
    ls.countP Event.isCall ≤ 11 ∧
    (s.Stuck → s.original.status ≠ none ∧ (∀ p ∈ s.first, p.status ≠ none) ∧
      ∀ d ∈ s.second, d.status = none → d.point = .started) := by
  have hinv := inv_of_run hrun
  refine ⟨?_, fun hs => ⟨hs.original hinv, fun p hp => hs.first hinv hp,
    fun d hd => hs.second hinv hd⟩⟩
  have hle : ls.countP Event.isCall + s.rank ≤ (start pid sid pgid cwd).rank :=
    Machine.countP_add_rank_le (M := machine pid sid pgid cwd) State.rank
    (fun _ _ _ h hst => Inv.step (o := (start pid sid pgid cwd).original) h (step_cases hst))
    (fun _ _ _ h hst => h.rank_le (step_cases hst)) (inv_start pid sid pgid cwd) hrun
  have hstart : (start pid sid pgid cwd).rank = 11 := rfl
  omega

theorem calls_end_starting :
    starting.countP Event.isCall ≤ 11 ∧
    (settled.Stuck → settled.original.status ≠ none ∧ (∀ p ∈ settled.first, p.status ≠ none) ∧
      ∀ d ∈ settled.second, d.status = none → d.point = .started) :=
  calls_end run_starting

/-! ### Without failures -/

/-- As long as nothing fails and nobody is killed. -/
structure Fine (s : State) : Prop where
  original : s.original.status = none ∨ s.original.status = some (.exited exitSuccess)
  first : ∀ p ∈ s.first, p.status = none ∨
    p.status = some (.exited exitSuccess) ∧ p.point = .leave
  second : ∀ d ∈ s.second, d.status = none

theorem Moves.fine_first (h : Moves true p p') (hp : IsFirst o p) (hrun : p.status = none) :
    p'.status = none ∨ p'.status = some (.exited exitSuccess) ∧ p'.point = .leave := by
  have hpoint := hp.point
  cases h with
  | closeRead => exact .inl hrun
  | isLeader h hgroup => exact absurd hgroup (hp.group (by rw [h]; rfl))
  | setSession => exact .inl hrun
  | forkAgainFails _ hok => cases hok
  | leave h => exact .inr ⟨rfl, h⟩
  | leadsSession h => simp [h, Point.ofFirst] at hpoint
  | setGroup => exact .inl hrun
  | changeDirectoryFails _ hok => cases hok
  | changeDirectory => exact .inl hrun
  | closeReport => exact .inl hrun

theorem Moves.fine_second (h : Moves true d p') (hd : IsSecond f d) (hrun : d.status = none) :
    p'.status = none := by
  have hpoint := hd.point
  cases h with
  | closeRead => exact hrun
  | isLeader h => simp [h, Point.ofSecond] at hpoint
  | setSession => exact hrun
  | forkAgainFails _ hok => cases hok
  | leave h => simp [h, Point.ofSecond] at hpoint
  | leadsSession _ hsession => exact absurd hsession.symm hd.fresh
  | setGroup => exact hrun
  | changeDirectoryFails _ hok => cases hok
  | changeDirectory => exact hrun
  | closeReport => exact hrun

/-- The end of the pipe does not come: the first child left a daemon behind. -/
theorem Fine.bytes_ne_zero (hs : Fine s) (h : Inv o s) (hread : s.original.At .readReport)
    (hwritable : s.writable = false) : s.bytes ≠ 0 := by
  intro hbytes
  obtain ⟨hfirst, hsecond⟩ := h.readEnd hread hbytes hwritable
  obtain ⟨p, hp⟩ := Option.ne_none_iff_exists'.1
    (fun hnone => by simpa [hread.2] using h.forked.2 hnone)
  rcases hs.first p hp with hrun | ⟨-, hleave⟩
  · exact hfirst p hp hrun
  · obtain ⟨d, hd⟩ := Option.isSome_iff_exists.1 (h.forkedAgain.2 ⟨p, hp, hleave⟩)
    exact (hsecond d hd).1 (hs.second d hd)

theorem Fine.step {who : Who} {pid : ℕ} (hs : Fine s) (h : Inv o s)
    (hst : Stepped s (.call who true pid) t) : Fine t := by
  cases hst with
  | fork hfork =>
    refine ⟨.inl hfork.1, fun p hp => ?_, hs.second⟩
    obtain rfl := Option.some.inj hp
    exact .inl hfork.1
  | closeWrite hclose => exact ⟨.inl hclose.1, hs.first, hs.second⟩
  | readReport => exact ⟨.inr rfl, hs.first, hs.second⟩
  | readEnd hread hbytes hwritable => exact absurd hbytes (hs.bytes_ne_zero h hread hwritable)
  | forkAgain hp hfork =>
    refine ⟨hs.original, fun q hq => ?_, fun d hd => ?_⟩
    · obtain rfl := Option.some.inj hq
      exact .inl hfork.1
    · obtain rfl := Option.some.inj hd
      exact hfork.1
  | first hp hrun hmoves =>
    refine ⟨hs.original, fun q hq => ?_, hs.second⟩
    obtain rfl := Option.some.inj hq
    exact hmoves.fine_first (h.first _ hp) hrun
  | writeReport hd hwrite =>
    refine ⟨hs.original, hs.first, fun q hq => ?_⟩
    obtain rfl := Option.some.inj hq
    exact hwrite.1
  | @brokenPipe d _ _ hd hwrite hreadable =>
    -- the original process is still there to read, or has read this daemon's report
    rcases hs.original with hrun | hsuccess
    · have hreads := h.original.reads.2 hrun
      simp [State.readable, State.procs, hreads] at hreadable
    · obtain ⟨q, hq, hr⟩ := h.bytes (.inr hsuccess)
      obtain rfl := Option.some.inj (hd.symm.trans hq)
      simp [hwrite.2, Point.reported] at hr
  | second hd hrun hmoves =>
    obtain ⟨f, -, hsecond⟩ := h.isSecond hd
    refine ⟨hs.original, hs.first, fun q hq => ?_⟩
    obtain rfl := Option.some.inj hq
    exact hmoves.fine_second hsecond hrun

/-- **When nothing fails and nobody is killed, the daemon starts**: in whatever order the processes
come to their calls, at the end the original process and the first child have reported success,
and the daemon runs, detached. -/
theorem starts {pid sid pgid : ℕ} {cwd : String} {ls : List Event}
    (hrun : (machine pid sid pgid cwd).run (start pid sid pgid cwd) ls = some s)
    (hls : ∀ e ∈ ls, ∃ who n, e = .call who true n) (hs : s.Stuck) :
    s.original.status = some (.exited exitSuccess) ∧
    (∃ p ∈ s.first, p.status = some (.exited exitSuccess)) ∧
    ∃ d ∈ s.second, d.At .started ∧ Detached sid d := by
  have hinv := inv_of_run hrun
  have hfine : Fine s := by
    have halong : (machine pid sid pgid cwd).Along
        (fun _ e => ∃ who n, e = Event.call who true n) (start pid sid pgid cwd) ls :=
      Machine.along_of_forall (fun e he _ => hls e he) _
    have halways := Machine.always_of_along
      (I := fun u => Inv (start pid sid pgid cwd).original u ∧ Fine u)
      (fun u e v hu hok hst => by
        obtain ⟨who, n, rfl⟩ := hok
        have hstepped := step_cases hst
        exact ⟨hu.1.step hstepped, hu.2.step hu.1 hstepped⟩)
      ⟨inv_start pid sid pgid cwd, .inl rfl, fun _ h => (nomatch h), fun _ h => (nomatch h)⟩ halong
    exact (halways.last hrun).2
  have hsuccess := hfine.original.resolve_left (hs.original hinv)
  obtain ⟨d, hd, hr⟩ := hinv.bytes (.inr hsuccess)
  obtain ⟨p, hp, -⟩ := hinv.isSecond hd
  have hstarted : d.At .started := ⟨hfine.second d hd, hs.second hinv hd (hfine.second d hd)⟩
  exact ⟨hsuccess, ⟨p, hp, ((hfine.first p hp).resolve_left (hs.first hinv hp)).1⟩,
    ⟨d, hd, hstarted, hinv.detached hd hr⟩⟩

theorem stuck_settled : settled.Stuck := by
  intro who ok pid
  cases who <;> rfl

theorem starts_starting :
    settled.original.status = some (.exited exitSuccess) ∧
    (∃ p ∈ settled.first, p.status = some (.exited exitSuccess)) ∧
    ∃ d ∈ settled.second, d.At .started ∧ Detached 5 d :=
  starts run_starting (by simp [starting]) stuck_settled

end Daemonize

end Process

end Wsddn

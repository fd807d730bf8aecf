import Wsddn.Machine.Basic

/-!
# Signals, the server process and its parent (`main.cpp`)

`runServer` goes round a loop: it reloads the configuration and then either serves in its own
process, or forks a child that serves and waits for it.  Three signals steer it.  While they are
blocked they stay pending; `waitForChild` installs handlers that pass them on to the child, and
`serve` waits for one of them through an asio `signal_set`, once.

The main process and its child are modelled with everything that decides whether the loop goes
round again: `g_reload`, the status of the child, the signals that are pending, and the first
signal that reached the `signal_set` (asio queues them in order; the handler runs for the first
and is not renewed).  What the environment does are events too: signals sent to either process,
the child dying, an exception that leaves `runServer`.

When `waitForChild` has reaped the child its handlers stay for a moment (`Phase.reaped`), while the
pid that they pass signals to is 0.  A signal that comes then goes to the whole process group, and
so to the handler again, without end (`Phase.spinning`); `Wsddn.Process.Forward` has the steps of
that moment one by one.  A `signal_set` that is destroyed leaves the signals with their default
action behind (`sigDfl`).
-/

namespace Wsddn

namespace Process

/-- The signals of `g_controlSignals`. -/
inductive Signal where
  | hup
  | int
  | term
  deriving DecidableEq, Repr

/-- The number of the signal. -/
def Signal.number : Signal → ℕ
  | .hup => 1
  | .int => 2
  | .term => 15

/-- How a process ends. -/
inductive WaitStatus where
  | exited (code : ℕ)
  | signaled (termsig : ℕ)
  deriving DecidableEq, Repr

/-- `EXIT_SUCCESS`. -/
def exitSuccess : ℕ := 0

/-- `EXIT_FAILURE`. -/
def exitFailure : ℕ := 1

/-- `EXIT_RELOAD`. -/
def exitReload : ℕ := 2

/-- A call of `serve()`: the first signal that its `signal_set` received, and whether the handler
has run for it. -/
structure Serve where
  first : Option Signal := none
  handled : Bool := false
  deriving DecidableEq, Repr

/-- Where the child is.  In its `serve()` the delivery of the first signal and the handler that
runs for it are one step. -/
inductive ChildPhase where
  /-- Before `serve()` unblocks the signals. -/
  | starting
  | serving (handled : Bool)
  /-- `serve()` has returned. -/
  | exiting
  | exited (st : WaitStatus)
  deriving DecidableEq, Repr

/-- The child: `reload` is its own copy of `g_reload`. -/
structure Child where
  phase : ChildPhase := .starting
  pending : List Signal := []
  reload : Bool := false
  deriving DecidableEq, Repr

/-- Where `runServer` is. -/
inductive Phase where
  /-- Going round the loop, with the signals not blocked. -/
  | top
  /-- `AppState::reload` is running, with the signals blocked. -/
  | reloading
  /-- In the parent, before the handlers of `waitForChild` are installed. -/
  | forked
  | waiting
  /-- The child was waited for; the handlers are still there. -/
  | reaped (st : WaitStatus)
  /-- A handler sends its signal to the process itself, again and again. -/
  | spinning
  /-- The old handlers are back. -/
  | waited (st : WaitStatus)
  /-- Standalone, in `serve()`. -/
  | serving (sv : Serve)
  /-- Standalone, and `serve()` has returned. -/
  | served
  /-- The process has ended: `runServer` has returned, or a signal has ended it. -/
  | over (st : WaitStatus)
  deriving DecidableEq, Repr

/-- The main process and its child. -/
structure State where
  phase : Phase := .reloading
  reload : Bool := false
  pending : List Signal := []
  child : Option Child := none
  /-- The signals have their default action, not that of `main`. -/
  sigDfl : Bool := false
  deriving DecidableEq, Repr

/-- What happens to the two processes. -/
inductive Event where
  /-- A signal is sent to the main process. -/
  | send (sig : Signal)
  | deliver (sig : Signal)
  /-- `blockSignals` at the head of the loop. -/
  | block
  /-- `reload` returns; the child is forked, or `serve()` is called. -/
  | reloaded (shouldFork : Bool)
  /-- `waitForChild` installs its handlers and unblocks the signals. -/
  | wait
  | reap
  /-- `waitForChild` puts the old handlers back. -/
  | restore
  /-- What `runServer` does with the result of `waitForChild`, or after `serve()`. -/
  | decide
  /-- Standalone: the handler of the `signal_set` runs. -/
  | handle
  /-- Standalone: `ctxt.run()` has nothing left to do. -/
  | finish
  /-- An exception ends `runServer`. -/
  | fail
  /-- A signal is sent to the child by someone else than its parent. -/
  | sendChild (sig : Signal)
  /-- The child comes to `serve()`. -/
  | childServe
  /-- The first signal reaches the `signal_set` of the child, and its handler runs. -/
  | childHandle (sig : Signal)
  /-- Another signal is delivered to the child. -/
  | childDeliver (sig : Signal)
  | childFinish
  | childExit
  /-- The child ends in another way: an exception, a crash, a signal. -/
  | childDies (st : WaitStatus)
  deriving DecidableEq, Repr

/-- The steps that the two processes take by themselves. -/
def Event.internal : Event → Bool
  | .block | .reloaded _ | .wait | .reap | .restore | .decide | .handle | .finish | .childServe
  | .childHandle _ | .childFinish | .childExit => true
  | _ => false

/-- The signal set receives a signal. -/
def Serve.deliver (sv : Serve) (sig : Signal) : Serve := { sv with first := sv.first.or (some sig) }

namespace State

/-- The handlers of `waitForChild` send the child a signal. -/
def forward (s : State) (sig : Signal) : State :=
  { s with child := s.child.map fun c => { c with pending := c.pending.insert sig } }

/-- A signal without a handler of `waitForChild` or of a `signal_set`: the handlers of `main`, or
the default action. -/
def defaultAction (s : State) (sig : Signal) : State :=
  if s.sigDfl = true then { s with phase := .over (.signaled sig.number) }
  else
    match sig with
    | .hup => s
    | .int | .term => { s with phase := .over (.exited exitSuccess) }

/-- A pending signal is delivered, in a phase where the signals are not blocked. -/
def deliver (s : State) (sig : Signal) : Option State :=
  match s.phase with
  | .waiting =>
    match sig with
    | .hup => some ({ s with reload := true }.forward .int)
    | .int => some (s.forward .int)
    | .term => some (s.forward .term)
  | .reaped _ | .spinning => some { s with phase := .spinning, reload := s.reload || sig = .hup }
  | .serving sv => some { s with phase := .serving (sv.deliver sig) }
  | .top | .waited _ | .served => some (s.defaultAction sig)
  | .reloading | .forked | .over _ => none

/-- The end of `waitForChild` and what follows from it. -/
def afterWait (s : State) (st : WaitStatus) : State :=
  let again (s : State) : State :=
    if s.reload = true then { s with phase := .top }
    else { s with phase := .over (.exited exitSuccess) }
  match st with
  | .signaled termsig =>
    if termsig = Signal.int.number then again s
    else { s with phase := .over (.exited exitFailure) }
  | .exited code =>
    if code = exitReload then again { s with reload := true }
    else if code = exitSuccess then again s
    else { s with phase := .over (.exited code) }

/-- A step of the child. -/
def stepChild (s : State) (f : Child → Option Child) : Option State :=
  match s.phase, s.child with
  | .forked, some c | .waiting, some c => (f c).map fun c => { s with child := some c }
  | _, _ => none

/-- One event. -/
def step (s : State) : Event → Option State
  | .send sig =>
    match s.phase with
    | .over _ => none
    | _ => some { s with pending := s.pending.insert sig }
  | .deliver sig =>
    if sig ∈ s.pending then { s with pending := s.pending.erase sig }.deliver sig else none
  | .block =>
    match s.phase with
    | .top => some { s with phase := .reloading }
    | _ => none
  | .reloaded shouldFork =>
    match s.phase with
    | .reloading =>
      if shouldFork = true then some { s with phase := .forked, reload := false, child := some {} }
      else some { s with phase := .serving {}, reload := false }
    | _ => none
  | .wait =>
    match s.phase with
    | .forked => some { s with phase := .waiting }
    | _ => none
  | .reap =>
    match s.phase, s.child with
    | .waiting, some { phase := .exited st, .. } => some { s with phase := .reaped st, child := none }
    | _, _ => none
  | .restore =>
    match s.phase with
    | .reaped st => some { s with phase := .waited st }
    | _ => none
  | .decide =>
    match s.phase with
    | .waited st => some (s.afterWait st)
    | .served =>
      if s.reload = true then some { s with phase := .top }
      else some { s with phase := .over (.exited exitSuccess) }
    | _ => none
  | .handle =>
    match s.phase with
    | .serving { first := some sig, handled := false } =>
      some { s with phase := .serving { first := some sig, handled := true }
                    reload := s.reload || sig = .hup }
    | _ => none
  | .finish =>
    match s.phase with
    | .serving { handled := true, .. } => some { s with phase := .served, sigDfl := true }
    | _ => none
  | .fail =>
    match s.phase with
    | .over _ | .spinning => none
    | _ => some { s with phase := .over (.exited exitFailure) }
  | .sendChild sig => s.stepChild fun c => some { c with pending := c.pending.insert sig }
  | .childServe =>
    s.stepChild fun c =>
      match c.phase with
      | .starting => some { c with phase := .serving false }
      | _ => none
  | .childHandle sig =>
    s.stepChild fun c =>
      if sig ∈ c.pending then
        match c.phase with
        | .serving false =>
          some { c with phase := .serving true, pending := c.pending.erase sig
                        reload := c.reload || sig = .hup }
        | _ => none
      else none
  | .childDeliver sig =>
    s.stepChild fun c =>
      if sig ∈ c.pending then
        match c.phase with
        -- It goes to the `signal_set`, where nobody waits for it any more.
        | .serving true => some { c with pending := c.pending.erase sig }
        | .exiting => some { c with phase := .exited (.signaled sig.number) }
        | _ => none
      else none
  | .childFinish =>
    s.stepChild fun c =>
      match c.phase with
      | .serving true => some { c with phase := .exiting }
      | _ => none
  | .childExit =>
    s.stepChild fun c =>
      match c.phase with
      | .exiting =>
        let code := if c.reload = true then exitReload else exitSuccess
        some { c with phase := .exited (.exited code) }
      | _ => none
  | .childDies st =>
    s.stepChild fun c =>
      match c.phase with
      | .exited _ => none
      | _ => if st = .exited exitReload then none else some { c with phase := .exited st }

end State

/-- The daemon. -/
def daemon : Machine State Event where
  init s := s = {}
  step := State.step

end Process

end Wsddn

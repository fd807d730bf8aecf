import Wsddn.Process.Signals

/-!
# Passing signals on to the child (`waitForChild` of `main.cpp`)

While the parent waits for its child, three handlers pass the control signals on to it, to the pid
that `g_maybeChildProcess` holds.  They can run between any two steps of `waitForChild`: also after
the child was waited for, when the pid is that of no child any more and then 0, until each of them
has been replaced by the old one.

* `waiter` : the steps of `waitForChild` one by one, from `unblockSignals()` on, with every `kill`.
* `targets_child_iff` : **every signal goes to the child, before it is waited for**, exactly if no
  handler runs after that.
-/

namespace Wsddn

namespace Process

namespace Forward

/-- Where `waitForChild` is. -/
inductive Point where
  /-- In the loop around `wait`. -/
  | waiting
  /-- The system call has returned, and `ChildProcess` has the pid still. -/
  | returned
  /-- `wait` has returned; the old handlers are put back one by one. -/
  | restoring
  /-- `g_maybeChildProcess` is empty. -/
  | cleared
  /-- An old handler has ended the process, or an assertion has. -/
  | over
  deriving DecidableEq, Repr

/-- The child, as the kernel sees it. -/
inductive ChildLife where
  | running
  | zombie
  | reaped
  deriving DecidableEq, Repr

/-- A call of `kill`, and whether the child had been waited for. -/
structure Kill where
  target : ℕ
  sig : Signal
  reaped : Bool
  deriving DecidableEq, Repr

/-- The main process in `waitForChild`, and its child. -/
structure State where
  point : Point
  /-- The pid of the child. -/
  childPid : ℕ
  child : ChildLife
  /-- `g_maybeChildProcess`, with the pid that it stores. -/
  maybeChildProcess : Option ℕ
  /-- The signals whose old handler is not back yet. -/
  handlers : List Signal
  pending : List Signal
  /-- `g_reload`. -/
  reload : Bool
  /-- All calls of `kill`, the last one first. -/
  kills : List Kill
  deriving DecidableEq, Repr

/-- What happens to the two processes. -/
inductive Event where
  /-- A signal is sent to the parent. -/
  | send (sig : Signal)
  | deliver (sig : Signal)
  | childExits
  /-- `wait` was interrupted by a signal. -/
  | interrupted
  /-- `waitpid` returns with the status of the child. -/
  | reap
  /-- `ChildProcess::wait` forgets the pid. -/
  | reset
  /-- The next old handler is put back. -/
  | restore
  | clear
  deriving DecidableEq, Repr

namespace State

/-- `kill(pid, sig)`; 0 is the process group of the caller, with the caller in it. -/
def kill (s : State) (pid : ℕ) (sig : Signal) : State :=
  { s with kills := ⟨pid, sig, s.child = .reaped⟩ :: s.kills
           pending := if pid = 0 then s.pending.insert sig else s.pending }

/-- What a handler of `waitForChild` passes on. -/
def passedOn : Signal → Signal
  | .hup => .int
  | .int => .int
  | .term => .term

/-- A handler of `waitForChild`. -/
def forward (s : State) (sig : Signal) : State :=
  let s : State := { s with reload := s.reload || sig = .hup }
  match s.maybeChildProcess with
  -- the assertion fails
  | none => { s with point := .over }
  | some pid => s.kill pid (passedOn sig)

/-- A handler that `main` has installed. -/
def oldHandler (s : State) : Signal → State
  | .hup => s
  | .int | .term => { s with point := .over }

/-- One event. -/
def step (s : State) : Event → Option State
  | .send sig => if s.point = .over then none else some { s with pending := s.pending.insert sig }
  | .deliver sig =>
    -- a handler can run between any two of the other steps
    if s.point ≠ .over ∧ sig ∈ s.pending then
      let s := { s with pending := s.pending.erase sig }
      some (if sig ∈ s.handlers then s.forward sig else s.oldHandler sig)
    else none
  | .childExits => if s.child = .running then some { s with child := .zombie } else none
  | .interrupted => if s.point = .waiting then some s else none
  | .reap =>
    if s.point = .waiting ∧ s.child = .zombie then
      some { s with point := .returned, child := .reaped }
    else none
  | .reset =>
    if s.point = .returned then some { s with point := .restoring, maybeChildProcess := some 0 }
    else none
  | .restore =>
    if s.point = .restoring then
      match s.handlers with
      | [] => none
      | _ :: rest => some { s with handlers := rest }
    else none
  | .clear =>
    if s.point = .restoring ∧ s.handlers = [] then
      some { s with point := .cleared, maybeChildProcess := none }
    else none

/-- `waitForChild` has installed its handlers and unblocks the signals: some of them may be pending,
and the child may have exited. -/
def Start (s : State) : Prop :=
  s.point = .waiting ∧ s.childPid ≠ 0 ∧ s.child ≠ .reaped ∧
    s.maybeChildProcess = some s.childPid ∧ s.handlers = [.int, .term, .hup] ∧ s.kills = []

/-- Every signal went to the child, which had not been waited for. -/
def TargetsChild (s : State) : Prop :=
  ∀ k ∈ s.kills, k.target = s.childPid ∧ k.target ≠ 0 ∧ k.reaped = false

/-- A handler of `waitForChild` runs only before the child is waited for. -/
def OnlyLive (s : State) : Event → Prop
  | .deliver sig => sig ∈ s.handlers → s.child ≠ .reaped
  | _ => True

end State

open Forward.State

/-- `waitForChild`. -/
def waiter : Machine State Event where
  init := Start
  step := State.step

/-! ### What holds at all times -/

/-- The stored pid is that of the child until it is waited for, and there is one as long as there is
a handler. -/
structure Inv (s : State) : Prop where
  childPid : s.childPid ≠ 0
  stored : s.child ≠ .reaped → s.maybeChildProcess = some s.childPid
  held : s.handlers ≠ [] → s.maybeChildProcess ≠ none
  before : s.point = .waiting → s.child ≠ .reaped
  after : s.child ≠ .reaped → s.point = .waiting ∨ s.point = .over
  kills : s.TargetsChild

variable {s t : State} {sig : Signal} {e : Event}

theorem inv_of_start (h : s.Start) : Inv s := by
  obtain ⟨hp, hpid, hc, hm, -, hk⟩ := h
  refine ⟨hpid, fun _ => hm, fun _ => ?_, fun _ => hc, fun _ => .inl hp, ?_⟩
  · simp [hm]
  · simp [TargetsChild, hk]

/-- A handler that runs while the child is there. -/
theorem forward_inv (h : Inv s) (hc : s.child ≠ .reaped) : Inv (s.forward sig) := by
  have hm := h.stored hc
  have hfwd : s.forward sig =
      kill { s with reload := s.reload || sig = .hup } s.childPid (passedOn sig) := by
    simp [forward, hm]
  rw [hfwd]
  refine ⟨h.childPid, h.stored, h.held, h.before, h.after, ?_⟩
  intro k hk
  rcases List.mem_cons.1 hk with rfl | hk
  · exact ⟨rfl, h.childPid, by simpa using hc⟩
  · exact h.kills k hk

/-- A handler that runs after that. -/
theorem forward_not_targetsChild (h : Inv s) (hsig : sig ∈ s.handlers) (hc : s.child = .reaped) :
    ¬ (s.forward sig).TargetsChild := by
  obtain ⟨pid, hm⟩ := Option.ne_none_iff_exists'.1 (h.held (List.ne_nil_of_mem hsig))
  intro ht
  have hlast := ht ⟨pid, passedOn sig, true⟩ (by simp [forward, hm, kill, hc])
  exact absurd hlast.2.2 (by simp)

/-- An old handler does not pass anything on. -/
theorem oldHandler_inv (h : Inv s) : Inv (s.oldHandler sig) := by
  cases sig
  · exact h
  all_goals
    exact ⟨h.childPid, h.stored, h.held, nofun, fun _ => .inr rfl, h.kills⟩

/-- A step with which no handler comes too late. -/
theorem inv_step (h : Inv s) (hok : s.OnlyLive e) (hst : s.step e = some t) : Inv t := by
  cases e with
  | send sig =>
    simp only [step] at hst
    split_ifs at hst
    cases hst
    exact ⟨h.childPid, h.stored, h.held, h.before, h.after, h.kills⟩
  | deliver sig =>
    simp only [step] at hst
    split_ifs at hst with hp hsig <;> cases hst
    · exact forward_inv ⟨h.childPid, h.stored, h.held, h.before, h.after, h.kills⟩ (hok hsig)
    · exact oldHandler_inv ⟨h.childPid, h.stored, h.held, h.before, h.after, h.kills⟩
  | childExits =>
    simp only [step] at hst
    split_ifs at hst with hc
    cases hst
    have hne : s.child ≠ .reaped := by simp [hc]
    exact ⟨h.childPid, fun _ => h.stored hne, h.held, fun _ => by simp, fun _ => h.after hne,
      h.kills⟩
  | interrupted =>
    simp only [step] at hst
    split_ifs at hst
    cases hst
    exact h
  | reap =>
    -- the pid stays stored, and is that of no child now
    simp only [step] at hst
    split_ifs at hst
    cases hst
    exact ⟨h.childPid, fun hc => absurd rfl hc, h.held, nofun, fun hc => absurd rfl hc, h.kills⟩
  | reset =>
    simp only [step] at hst
    split_ifs at hst with hp
    cases hst
    refine ⟨h.childPid, fun hc => ?_, fun _ => by simp, nofun, fun hc => ?_, h.kills⟩
    all_goals exact absurd (h.after hc) (by simp [hp])
  | restore =>
    simp only [step] at hst
    split_ifs at hst
    split at hst <;> cases hst
    rename_i hs
    exact ⟨h.childPid, h.stored, fun _ => h.held (by simp [hs]), h.before, h.after, h.kills⟩
  | clear =>
    simp only [step] at hst
    split_ifs at hst with hp
    cases hst
    refine ⟨h.childPid, fun hc => ?_, fun hs => absurd hp.2 hs, nofun, fun hc => ?_, h.kills⟩
    all_goals exact absurd (h.after hc) (by simp [hp.1])

theorem not_targetsChild_step (h : Inv s) (hok : ¬ s.OnlyLive e) (hst : s.step e = some t) :
    ¬ t.TargetsChild := by
  cases e with
  | deliver sig =>
    obtain ⟨hsig, hc⟩ : sig ∈ s.handlers ∧ s.child = .reaped := by simpa [OnlyLive] using hok
    simp only [step, hsig, if_true] at hst
    split_ifs at hst
    cases hst
    exact forward_not_targetsChild
      ⟨h.childPid, h.stored, h.held, h.before, h.after, h.kills⟩ hsig hc
  | _ => exact absurd trivial hok

/-- **Every signal goes to the child before it is waited for**, exactly if no handler runs after
that. -/
theorem targets_child_iff {s s' : State} (hs : s.Start) {ls : List Event}
    (hr : waiter.run s ls = some s') :
    waiter.Always TargetsChild s ls ↔ waiter.Along OnlyLive s ls :=
  Machine.always_iff_along (I := Inv) (fun _ h => h.kills)
    (fun _ _ _ h hok hst => inv_step h hok hst)
    (fun _ _ _ h hst hok => not_targetsChild_step h hok hst) (inv_of_start hs) hr

/-! ### Two runs -/

/-- The parent of the child 7. -/
def start : State where
  point := .waiting
  childPid := 7
  child := .running
  maybeChildProcess := some 7
  handlers := [.int, .term, .hup]
  pending := []
  reload := false
  kills := []

/-- The run in which a request to terminate comes in time. -/
def timely : List Event :=
  [.send .term, .deliver .term, .interrupted, .childExits, .reap, .reset, .restore, .restore,
    .restore, .clear]

theorem targets_child_timely : waiter.Always TargetsChild start timely := by
  obtain ⟨s', hr⟩ : ∃ s', waiter.run start timely = some s' :=
    Option.isSome_iff_exists.1 (by decide)
  refine (targets_child_iff ⟨rfl, by decide, by decide, rfl, rfl, rfl⟩ hr).2 ?_
  simp [Machine.Along, timely, waiter, step, OnlyLive, start, forward, kill]

/-- The run in which SIGINT comes when `wait` has returned. -/
def late : List Event := [.childExits, .reap, .reset, .send .int, .deliver .int]

/-- **The whole process group is signalled.** -/
theorem kill_zero : ((waiter.run start late).map State.kills) = some [⟨0, .int, true⟩] ∧
    ¬ waiter.Always TargetsChild start late := by
  have hrun : (waiter.run start late).map State.kills = some [⟨0, .int, true⟩] := by decide
  refine ⟨hrun, fun h => ?_⟩
  obtain ⟨s', hs', hk⟩ := Option.map_eq_some_iff.1 hrun
  have hlast := h.last hs' ⟨0, .int, true⟩ (by simp [hk])
  exact hlast.2.1 rfl

end Forward

end Process

end Wsddn

import Wsddn.Process.Signals

/-!
# Requests to terminate

The manual says that SIGTERM and SIGINT end the daemon and that SIGHUP makes it reload.  When both
kinds of signal arrive in the same round of `runServer`, reloading can win: the outcome of a round
is a single flag, which nothing takes back, and the `signal_set` of `serve` listens once.

* `observed` : the daemon with two history variables: a request to terminate was delivered to
  `waitForChild` or to the standalone `serve()`, and a child or a `serve()` was started after it.
* `Unmixed` : the condition on a step.  A request to terminate comes while no reload is due
  (`ReloadDue`), and after it no SIGHUP reaches the handlers of `waitForChild` or is the first
  signal of the child; and these handlers get no signal when there is no child any more.
* `terminate_not_lost` : **in a run whose steps all meet the condition** nothing is started after a
  request to terminate, and the daemon ends: as long as it has not, one of the two processes has a
  step to take, and after seven such steps it has.
* `terminate_lost` : SIGTERM during the graceful stop for a SIGHUP; a new child is started.
-/

namespace Wsddn

namespace Process

/-- What has been seen of a run. -/
structure History where
  /-- A request to terminate was delivered. -/
  asked : Bool := false
  /-- A child or a `serve()` was started after that. -/
  restarted : Bool := false
  deriving DecidableEq, Repr

/-- A signal that asks to terminate. -/
def Signal.Terminates : Signal → Bool
  | .hup => false
  | .int | .term => true

namespace State

/-- A signal delivered now goes to a handler of `waitForChild`, or to the standalone `serve()`. -/
def listens (s : State) : Bool :=
  match s.phase with
  | .waiting | .reaped _ | .spinning | .serving _ => true
  | _ => false

end State

/-- The history after an event. -/
def History.observe (h : History) (s : State) : Event → History
  | .deliver sig => { h with asked := h.asked || (s.listens && sig.Terminates) }
  | .reloaded _ => { h with restarted := h.restarted || h.asked }
  | _ => h

/-- The daemon and its history. -/
def observed : Machine (State × History) Event := daemon.withHistory {} History.observe

/-- The child was told to reload first. -/
def Child.ReloadDue (c : Child) : Prop :=
  c.reload = true ∨ c.phase = .exited (.exited exitReload)

namespace State

/-- This round ends in a reload, if it ends well: SIGHUP came to the parent, or was the first
signal that came to the process that serves. -/
def ReloadDue (s : State) : Prop :=
  match s.phase with
  | .waiting => s.reload = true ∨ ∃ c, s.child = some c ∧ c.ReloadDue
  | .reaped st => s.reload = true ∨ st = .exited exitReload
  | .serving sv => sv.first = some .hup
  | _ => False

/-- SIGHUP would go to the handler of `waitForChild`. -/
def InWaitForChild (s : State) : Prop :=
  match s.phase with
  | .waiting | .reaped _ => True
  | _ => False

/-- The handlers of `waitForChild` have no child to pass a signal to. -/
def Childless (s : State) : Prop :=
  match s.phase with
  | .reaped _ => True
  | _ => False

/-- The process has ended. -/
def Over (s : State) : Prop := ∃ st, s.phase = .over st

end State

open State

/-- A step that does not mix a reload with a request to terminate. -/
def Unmixed (x : State × History) : Event → Prop
  | .deliver .int | .deliver .term => ¬ x.1.ReloadDue ∧ ¬ x.1.Childless
  | .deliver .hup => (x.2.asked = true → ¬ x.1.InWaitForChild) ∧ ¬ x.1.Childless
  | .childHandle .hup => x.2.asked = false
  | _ => True

/-! ### What an event can do -/

/-- The steps of a child. -/
inductive Child.Stepped (c : Child) : Event → Child → Prop where
  | sent (sig : Signal) : c.Stepped (.sendChild sig) { c with pending := c.pending.insert sig }
  | serves (hp : c.phase = .starting) : c.Stepped .childServe { c with phase := .serving false }
  | handles (sig : Signal) (hp : c.phase = .serving false) :
    c.Stepped (.childHandle sig) { c with phase := .serving true, pending := c.pending.erase sig
                                          reload := c.reload || sig = .hup }
  | ignores (sig : Signal) (hp : c.phase = .serving true) :
    c.Stepped (.childDeliver sig) { c with pending := c.pending.erase sig }
  | killed (sig : Signal) (hp : c.phase = .exiting) :
    c.Stepped (.childDeliver sig) { c with phase := .exited (.signaled sig.number) }
  | finishes (hp : c.phase = .serving true) : c.Stepped .childFinish { c with phase := .exiting }
  | exits (hp : c.phase = .exiting) :
    c.Stepped .childExit { c with phase := .exited (.exited
      (if c.reload = true then exitReload else exitSuccess)) }
  | dies (st : WaitStatus) (hst : st ≠ .exited exitReload) :
    c.Stepped (.childDies st) { c with phase := .exited st }

/-- The steps of the daemon. -/
inductive State.Stepped (s : State) : Event → State → Prop where
  | send (sig : Signal) : s.Stepped (.send sig) { s with pending := s.pending.insert sig }
  | deliver {sig : Signal} {t : State}
    (h : { s with pending := s.pending.erase sig }.deliver sig = some t) :
    s.Stepped (.deliver sig) t
  | block (hp : s.phase = .top) : s.Stepped .block { s with phase := .reloading }
  | fork (hp : s.phase = .reloading) :
    s.Stepped (.reloaded true) { s with phase := .forked, reload := false, child := some {} }
  | serve (hp : s.phase = .reloading) :
    s.Stepped (.reloaded false) { s with phase := .serving {}, reload := false }
  | wait (hp : s.phase = .forked) : s.Stepped .wait { s with phase := .waiting }
  | reap {c : Child} {st : WaitStatus} (hp : s.phase = .waiting) (hc : s.child = some c)
    (hst : c.phase = .exited st) : s.Stepped .reap { s with phase := .reaped st, child := none }
  | restore {st : WaitStatus} (hp : s.phase = .reaped st) :
    s.Stepped .restore { s with phase := .waited st }
  | decide {st : WaitStatus} (hp : s.phase = .waited st) : s.Stepped .decide (s.afterWait st)
  | again (hp : s.phase = .served) (hr : s.reload = true) :
    s.Stepped .decide { s with phase := .top }
  | done (hp : s.phase = .served) (hr : s.reload = false) :
    s.Stepped .decide { s with phase := .over (.exited exitSuccess) }
  | handle {sig : Signal} (hp : s.phase = .serving ⟨some sig, false⟩) :
    s.Stepped .handle { s with phase := .serving ⟨some sig, true⟩
                               reload := s.reload || sig = .hup }
  | finish {first : Option Signal} (hp : s.phase = .serving ⟨first, true⟩) :
    s.Stepped .finish { s with phase := .served, sigDfl := true }
  | fail (hp : s.phase ≠ .spinning) : s.Stepped .fail { s with phase := .over (.exited exitFailure) }
  | child {e : Event} {c c' : Child} (hp : s.phase = .forked ∨ s.phase = .waiting)
    (hc : s.child = some c) (h : c.Stepped e c') : s.Stepped e { s with child := some c' }

namespace State

variable {s t : State}

/-- A step of the child, seen from the whole. -/
theorem stepped_of_stepChild {f : Child → Option Child} {e : Event}
    (hf : ∀ c c', f c = some c' → c.Stepped e c') (h : s.stepChild f = some t) :
    s.Stepped e t := by
  unfold stepChild at h
  split at h
  · rename_i c hp hc
    obtain ⟨c', hcc', rfl⟩ := Option.map_eq_some_iff.1 h
    exact .child (.inl hp) hc (hf c c' hcc')
  · rename_i c hp hc
    obtain ⟨c', hcc', rfl⟩ := Option.map_eq_some_iff.1 h
    exact .child (.inr hp) hc (hf c c' hcc')
  · cases h

/-- Every event does one of these steps. -/
theorem stepped_of_step {e : Event} (h : s.step e = some t) : s.Stepped e t := by
  cases e with
  | send sig =>
    simp only [step] at h
    split at h <;> cases h
    exact .send sig
  | deliver sig =>
    simp only [step] at h
    split_ifs at h
    exact .deliver h
  | block =>
    simp only [step] at h
    split at h <;> cases h
    exact .block ‹_›
  | reloaded shouldFork =>
    simp only [step] at h
    split at h
    · cases shouldFork <;> cases h
      · exact .serve ‹_›
      · exact .fork ‹_›
    · cases h
  | wait =>
    simp only [step] at h
    split at h <;> cases h
    exact .wait ‹_›
  | reap =>
    simp only [step] at h
    split at h <;> cases h
    exact .reap ‹_› ‹_› rfl
  | restore =>
    simp only [step] at h
    split at h <;> cases h
    exact .restore ‹_›
  | decide =>
    simp only [step] at h
    split at h
    · cases h
      exact .decide ‹_›
    · split_ifs at h with hr <;> cases h
      · exact .again ‹_› hr
      · exact .done ‹_› (by simpa using hr)
    · cases h
  | handle =>
    simp only [step] at h
    split at h <;> cases h
    exact .handle ‹_›
  | finish =>
    simp only [step] at h
    split at h <;> cases h
    exact .finish ‹_›
  | fail =>
    simp only [step] at h
    split at h
    · cases h
    · cases h
    · rename_i hns
      cases h
      exact .fail hns
  | sendChild sig =>
    refine stepped_of_stepChild ?_ h
    rintro c _ ⟨⟩
    exact .sent sig
  | childServe =>
    refine stepped_of_stepChild (fun c c' hcc' => ?_) h
    split at hcc' <;> cases hcc'
    exact .serves ‹_›
  | childHandle sig =>
    refine stepped_of_stepChild (fun c c' hcc' => ?_) h
    split_ifs at hcc'
    split at hcc' <;> cases hcc'
    exact .handles sig ‹_›
  | childDeliver sig =>
    refine stepped_of_stepChild (fun c c' hcc' => ?_) h
    split_ifs at hcc'
    split at hcc' <;> cases hcc'
    · exact .ignores sig ‹_›
    · exact .killed sig ‹_›
  | childFinish =>
    refine stepped_of_stepChild (fun c c' hcc' => ?_) h
    split at hcc' <;> cases hcc'
    exact .finishes ‹_›
  | childExit =>
    refine stepped_of_stepChild (fun c c' hcc' => ?_) h
    split at hcc' <;> cases hcc'
    exact .exits ‹_›
  | childDies st =>
    refine stepped_of_stepChild (fun c c' hcc' => ?_) h
    split at hcc'
    · cases hcc'
    · split_ifs at hcc' with hst
      cases hcc'
      exact .dies st hst

end State

/-! ### The end of the daemon -/

/-- A child that is ending, or will when the signal that was sent to it is delivered, and that
does not ask for a reload. -/
structure Child.Ending (c : Child) : Prop where
  noReload : ¬ c.ReloadDue
  told : c.phase = .starting ∨ c.phase = .serving false → .int ∈ c.pending ∨ .term ∈ c.pending

namespace State

/-- The daemon is on its way out. -/
def Ending (s : State) : Prop :=
  match s.phase with
  | .waiting => s.reload = false ∧ ∃ c, s.child = some c ∧ c.Ending
  | .reaped st | .waited st => s.reload = false ∧ st ≠ .exited exitReload
  | .serving sv => s.reload = false ∧ ∃ sig, sv.first = some sig ∧ sig ≠ .hup
  | .served => s.reload = false
  | .over _ => True
  | _ => False

/-- What holds at all times, if no signal comes when there is no child to pass it to: there is a
child to wait for, and the standalone process reloads only because SIGHUP came first. -/
def Consistent (s : State) : Prop :=
  match s.phase with
  | .forked | .waiting => ∃ c, s.child = some c
  | .spinning => False
  | .serving sv => s.reload = true → sv.first = some .hup
  | _ => True

variable {s t : State}

/-- Where the old handlers are back, a signal is ignored or ends the process. -/
theorem defaultAction_cases (s : State) (sig : Signal) :
    s.defaultAction sig = s ∨ (s.defaultAction sig).Over := by
  unfold defaultAction
  split_ifs
  · exact .inr ⟨_, rfl⟩
  · cases sig
    · exact .inl rfl
    all_goals exact .inr ⟨_, rfl⟩

/-- What `runServer` does after `waitForChild`. -/
theorem afterWait_cases (s : State) (st : WaitStatus) :
    (s.afterWait st).Over ∨
      (s.afterWait st).phase = .top ∧ (s.reload = true ∨ st = .exited exitReload) := by
  cases st with
  | signaled termsig =>
    simp only [afterWait]
    split_ifs with hint hr
    · exact .inr ⟨rfl, .inl hr⟩
    · exact .inl ⟨_, rfl⟩
    · exact .inl ⟨_, rfl⟩
  | exited code =>
    simp only [afterWait]
    by_cases hc : code = exitReload
    · subst hc
      exact .inr ⟨rfl, .inr rfl⟩
    · simp only [hc, if_false]
      split_ifs with hs hr
      · exact .inr ⟨rfl, .inl hr⟩
      · exact .inl ⟨_, rfl⟩
      · exact .inl ⟨_, rfl⟩

theorem Over.consistent (h : s.Over) : s.Consistent := by
  obtain ⟨st, hst⟩ := h
  simp [Consistent, hst]

theorem Over.ending (h : s.Over) : s.Ending := by
  obtain ⟨st, hst⟩ := h
  simp [Ending, hst]

theorem deliver_consistent (hs : s.Consistent) (hc : ¬ s.Childless) {sig : Signal}
    (h : s.deliver sig = some t) : t.Consistent := by
  cases hp : s.phase <;> simp only [deliver, hp, reduceCtorEq] at h
  case waiting =>
    obtain ⟨c, hc⟩ : ∃ c, s.child = some c := by simpa [Consistent, hp] using hs
    cases sig <;> cases h <;> simp [Consistent, forward, hp, hc]
  case reaped => exact absurd (by simp [Childless, hp]) hc
  case spinning => simp [Consistent, hp] at hs
  case serving sv =>
    cases h
    simp only [Consistent, hp] at hs ⊢
    intro hr
    simp [Serve.deliver, hs hr]
  all_goals
    cases h
    rcases defaultAction_cases s sig with h | h
    · rwa [h]
    · exact h.consistent

theorem consistent_step (hs : s.Consistent) {e : Event}
    (hc : ∀ sig, e = .deliver sig → ¬ s.Childless) (h : s.step e = some t) : t.Consistent := by
  cases stepped_of_step h with
  | send => exact hs
  | deliver h =>
    exact deliver_consistent (s := { s with pending := s.pending.erase _ }) hs (hc _ rfl) h
  | fork => exact ⟨_, rfl⟩
  | serve => simp [Consistent]
  | wait hp => simpa [Consistent, hp] using hs
  | decide hp =>
    obtain h | ⟨h, -⟩ := afterWait_cases s _
    · exact h.consistent
    · simp [Consistent, h]
  | handle hp =>
    -- the flag is set if it was set before, or by the first signal
    simp only [Consistent, hp] at hs ⊢
    intro hr
    obtain hr | hr := Bool.or_eq_true_iff.1 hr
    · exact hs hr
    · rw [of_decide_eq_true hr]
  | child hp => obtain hp | hp := hp <;> simp [Consistent, hp]
  | block => trivial
  | reap => trivial
  | restore => trivial
  | again => trivial
  | done => trivial
  | finish => trivial
  | fail => trivial

end State

/-- A child that is sent a request to terminate, and was not told to reload before. -/
theorem Child.ending_of_send {c : Child} (h : ¬ c.ReloadDue) {sig : Signal}
    (hsig : sig.Terminates = true) :
    ({ c with pending := c.pending.insert sig } : Child).Ending := by
  refine ⟨h, fun _ => ?_⟩
  cases sig with
  | hup => cases hsig
  | int => exact .inl List.mem_insert_self
  | term => exact .inr List.mem_insert_self

/-- A child on its way out stays so. -/
theorem Child.Ending.step {c c' : Child} {e : Event} (hc : c.Ending)
    (hhup : e ≠ .childHandle .hup) (h : c.Stepped e c') : c'.Ending := by
  have hr := hc.noReload
  cases h with
  | sent sig =>
    refine ⟨hr, fun hp => ?_⟩
    exact (hc.told hp).imp (fun h => List.mem_insert_of_mem h) (fun h => List.mem_insert_of_mem h)
  | serves hp =>
    refine ⟨?_, fun _ => hc.told (.inl hp)⟩
    simpa [ReloadDue, hp] using hr
  | handles sig hp =>
    have hne : sig ≠ .hup := fun h => hhup (by rw [h])
    refine ⟨?_, by simp⟩
    simpa [ReloadDue, hp, hne] using hr
  | ignores sig hp => exact ⟨hr, by simp [hp]⟩
  | killed sig hp =>
    refine ⟨?_, by simp⟩
    simpa [ReloadDue, hp] using hr
  | finishes hp =>
    refine ⟨?_, by simp⟩
    simpa [ReloadDue, hp] using hr
  | exits hp =>
    have hno : c.reload = false := by simpa [ReloadDue, hp] using hr
    refine ⟨?_, by simp⟩
    simp [ReloadDue, hno, exitSuccess, exitReload]
  | dies st hst =>
    have hno : c.reload = false := by
      by_contra h
      exact hr (.inl (by simpa using h))
    refine ⟨?_, by simp⟩
    simp [ReloadDue, hno, hst]

namespace State

variable {s t : State}

/-- A request to terminate sends the daemon on its way out. -/
theorem deliver_asked (hs : s.Consistent) {sig : Signal} (hl : s.listens = true)
    (hsig : sig.Terminates = true) (hno : ¬ s.ReloadDue) (hch : ¬ s.Childless)
    (h : s.deliver sig = some t) : t.Ending := by
  cases hp : s.phase <;> simp only [deliver, listens, hp, reduceCtorEq, Bool.false_eq_true] at h hl
  case waiting =>
    obtain ⟨c, hc⟩ : ∃ c, s.child = some c := by simpa [Consistent, hp] using hs
    simp only [ReloadDue, hp, hc, Option.some.injEq, exists_eq_left', not_or,
      Bool.not_eq_true] at hno
    have hfwd : t = s.forward sig := by
      cases sig
      · cases hsig
      all_goals exact (Option.some.inj h).symm
    subst hfwd
    simp only [Ending, forward, hp, hc, Option.map_some, Option.some.injEq, exists_eq_left']
    exact ⟨hno.1, Child.ending_of_send hno.2 hsig⟩
  case reaped st => exact absurd (by simp [Childless, hp]) hch
  case spinning => simp [Consistent, hp] at hs
  case serving sv =>
    cases h
    simp only [Consistent, ReloadDue, hp] at hs hno
    have hr : s.reload = false := by
      by_contra hr
      exact hno (hs (by simpa using hr))
    refine ⟨hr, ?_⟩
    rcases hf : sv.first with _ | sig'
    · refine ⟨sig, by simp [Serve.deliver, hf], ?_⟩
      rintro rfl
      cases hsig
    · refine ⟨sig', by simp [Serve.deliver, hf], ?_⟩
      rintro rfl
      exact hno hf

/-- A signal does not bring the daemon back, unless SIGHUP comes to `waitForChild`. -/
theorem deliver_ending (hs : s.Ending) {sig : Signal} (hhup : sig = .hup → ¬ s.InWaitForChild)
    (hch : ¬ s.Childless) (h : s.deliver sig = some t) : t.Ending := by
  cases hp : s.phase <;> simp only [deliver, Ending, hp, reduceCtorEq] at h hs
  case waiting =>
    obtain ⟨hr, c, hc, hend⟩ := hs
    have hsig : sig.Terminates = true ∧ t = s.forward sig := by
      cases sig
      · exact absurd (by simp [InWaitForChild, hp]) (hhup rfl)
      all_goals exact ⟨rfl, (Option.some.inj h).symm⟩
    obtain ⟨hsig, rfl⟩ := hsig
    simp only [Ending, forward, hp, hc, Option.map_some, Option.some.injEq, exists_eq_left']
    exact ⟨hr, Child.ending_of_send hend.noReload hsig⟩
  case reaped st => exact absurd (by simp [Childless, hp]) hch
  case serving sv =>
    cases h
    obtain ⟨hr, sig', hf, hne⟩ := hs
    exact ⟨hr, sig', by simp [Serve.deliver, hf], hne⟩
  all_goals
    cases h
    rcases defaultAction_cases s sig with h | h
    · rw [h]
      simpa [Ending, hp] using hs
    · exact h.ending

/-- A reload was not asked for, neither by the parent nor by the child. -/
theorem Ending.over_afterWait (hs : s.Ending) {st : WaitStatus} (hp : s.phase = .waited st) :
    (s.afterWait st).Over := by
  simp only [Ending, hp] at hs
  obtain h | ⟨-, h | h⟩ := afterWait_cases s st
  · exact h
  · rw [hs.1] at h
    cases h
  · exact absurd h hs.2

theorem Ending.reload_eq_false (hs : s.Ending) (hp : s.phase = .served) : s.reload = false := by
  simpa only [Ending, hp] using hs

/-- **Once it is on its way out, the daemon stays so**, and starts nothing. -/
theorem ending_step (hs : s.Ending) {e : Event}
    (hhup : e = .deliver .hup → ¬ s.InWaitForChild) (hchild : e ≠ .childHandle .hup)
    (hch : ∀ sig, e = .deliver sig → ¬ s.Childless) (h : s.step e = some t) : t.Ending := by
  cases stepped_of_step h with
  | send => exact hs
  | deliver h =>
    refine deliver_ending (s := { s with pending := s.pending.erase _ }) hs ?_ (hch _ rfl) h
    rintro rfl
    exact hhup rfl
  | reap hp hc hst =>
    simp only [Ending, hp, hc, Option.some.injEq, exists_eq_left'] at hs ⊢
    refine ⟨hs.1, fun he => hs.2.noReload (.inr ?_)⟩
    rw [hst, he]
  | restore hp => simpa [Ending, hp] using hs
  | decide hp => exact (hs.over_afterWait hp).ending
  | again hp hr =>
    rw [hs.reload_eq_false hp] at hr
    cases hr
  | handle hp =>
    simp only [Ending, hp, Option.some.injEq, exists_eq_left'] at hs ⊢
    exact ⟨by simp [hs.1, hs.2], hs.2⟩
  | finish hp =>
    simp only [Ending, hp] at hs ⊢
    exact hs.1
  | child hp hc hcc' =>
    obtain hp | hp := hp <;> simp only [Ending, hp] at hs ⊢
    obtain ⟨hr, c₀, hc₀, hend⟩ := hs
    obtain rfl := Option.some.inj (hc.symm.trans hc₀)
    exact ⟨hr, _, rfl, hend.step hchild hcc'⟩
  | block hp => simp [Ending, hp] at hs
  | fork hp => simp [Ending, hp] at hs
  | serve hp => simp [Ending, hp] at hs
  | wait hp => simp [Ending, hp] at hs
  | done => trivial
  | fail => trivial

end State

/-! ### How far it is to the end -/

/-- The steps a child has to take before it can be waited for, and what the parent does then. -/
def Child.rank (c : Child) : ℕ :=
  match c.phase with
  | .starting => 7
  | .serving false => 6
  | .serving true => 5
  | .exiting => 4
  | .exited _ => 3

theorem Child.rank_ge (c : Child) : 3 ≤ c.rank := by
  unfold Child.rank
  split <;> decide

theorem Child.Stepped.rank {c c' : Child} {e : Event} (h : c.Stepped e c') :
    c'.rank + (if e.internal = true then 1 else 0) ≤ c.rank := by
  cases h with
  | sent sig => exact Nat.le_refl _
  | serves hp => simp [Child.rank, hp, Event.internal]
  | handles sig hp => simp [Child.rank, hp, Event.internal]
  | ignores sig hp => simp [Child.rank, hp, Event.internal]
  | killed sig hp => simp [Child.rank, hp, Event.internal]
  | finishes hp => simp [Child.rank, hp, Event.internal]
  | exits hp => simp [Child.rank, hp, Event.internal]
  | dies st hst => exact c.rank_ge

namespace State

/-- The steps that the daemon is away from its end, when it is on its way out. -/
def rank (s : State) : ℕ :=
  match s.phase with
  | .waiting => (s.child.map Child.rank).getD 0
  | .reaped _ => 2
  | .waited _ => 1
  | .serving sv => if sv.handled = true then 2 else 3
  | .served => 1
  | _ => 0

variable {s t : State}

theorem step_of_over (hs : s.Over) (e : Event) : s.step e = none := by
  obtain ⟨st, hst⟩ := hs
  cases e <;> simp [step, deliver, stepChild, hst]

theorem deliver_rank (hs : s.Ending) {sig : Signal} (h : s.deliver sig = some t) :
    t.Over ∨ t.rank ≤ s.rank := by
  cases hp : s.phase <;> simp only [deliver, Ending, hp, reduceCtorEq] at h hs
  case waiting =>
    obtain ⟨-, c, hc, -⟩ := hs
    right
    cases sig <;> cases h <;> simp [rank, forward, hp, hc, Child.rank]
  case reaped =>
    cases h
    exact .inr (Nat.zero_le _)
  case serving sv =>
    cases h
    right
    simp [rank, hp, Serve.deliver]
  all_goals
    cases h
    rcases defaultAction_cases s sig with h | h
    · exact .inr (Nat.le_of_eq (by rw [h]))
    · exact .inl h

/-- **Every step of the two processes brings the end closer**, and no other event takes the daemon
back. -/
theorem rank_step (hs : s.Ending) {e : Event} (h : s.step e = some t) :
    t.Over ∨ t.rank + (if e.internal = true then 1 else 0) ≤ s.rank := by
  cases stepped_of_step h with
  | send => exact .inr (Nat.le_refl _)
  | deliver h => exact deliver_rank (s := { s with pending := s.pending.erase _ }) hs h
  | reap hp hc hst => exact .inr (by simp [rank, hp, hc, hst, Child.rank, Event.internal])
  | restore hp => exact .inr (by simp [rank, hp, Event.internal])
  | decide hp => exact .inl (hs.over_afterWait hp)
  | again hp hr =>
    rw [hs.reload_eq_false hp] at hr
    cases hr
  | handle hp => exact .inr (by simp [rank, hp, Event.internal])
  | finish hp => exact .inr (by simp [rank, hp, Event.internal])
  | child hp hc hcc' =>
    obtain hp | hp := hp
    · simp [Ending, hp] at hs
    · exact .inr (by simpa [rank, hp, hc] using hcc'.rank)
  | block hp => simp [Ending, hp] at hs
  | fork hp => simp [Ending, hp] at hs
  | serve hp => simp [Ending, hp] at hs
  | wait hp => simp [Ending, hp] at hs
  | done => exact .inl ⟨_, rfl⟩
  | fail => exact .inl ⟨_, rfl⟩

/-- As long as the daemon is on its way out, one of the two processes has a step to take. -/
theorem progress (hs : s.Ending) (hno : ¬ s.Over) :
    ∃ e : Event, e.internal = true ∧ (s.step e).isSome = true := by
  cases hp : s.phase <;> simp only [Ending, hp] at hs
  case waiting =>
    obtain ⟨-, c, hc, -, htold⟩ := hs
    have hstep : ∀ f, (s.stepChild f).isSome = (f c).isSome := by
      intro f
      simp [stepChild, hp, hc]
    rcases hcp : c.phase with _ | handled | _ | st
    · exact ⟨.childServe, rfl, by simp [step, hstep, hcp]⟩
    · cases handled with
      | false =>
        rcases htold (.inr hcp) with h | h
        · exact ⟨.childHandle .int, rfl, by simp [step, hstep, hcp, h]⟩
        · exact ⟨.childHandle .term, rfl, by simp [step, hstep, hcp, h]⟩
      | true => exact ⟨.childFinish, rfl, by simp [step, hstep, hcp]⟩
    · exact ⟨.childExit, rfl, by simp [step, hstep, hcp]⟩
    · obtain ⟨phase, pending, reload⟩ := c
      simp only at hcp
      subst hcp
      exact ⟨.reap, rfl, by simp [step, hp, hc]⟩
  case reaped st => exact ⟨.restore, rfl, by simp [step, hp]⟩
  case waited st => exact ⟨.decide, rfl, by simp [step, hp]⟩
  case serving sv =>
    obtain ⟨-, sig, hf, -⟩ := hs
    obtain ⟨first, handled⟩ := sv
    simp only at hf
    subst hf
    cases handled with
    | false => exact ⟨.handle, rfl, by simp [step, hp]⟩
    | true => exact ⟨.finish, rfl, by simp [step, hp]⟩
  case served => exact ⟨.decide, rfl, by simp [step, hp, hs]⟩
  case «over» st => exact absurd ⟨st, hp⟩ hno

theorem rank_pos (hs : s.Ending) (hno : ¬ s.Over) : 0 < s.rank := by
  cases hp : s.phase <;> simp only [Ending, hp] at hs <;> simp only [rank, hp]
  case waiting =>
    obtain ⟨-, c, hc, -⟩ := hs
    rw [hc]
    exact Nat.lt_of_lt_of_le (by decide) c.rank_ge
  case serving sv => split_ifs <;> decide
  case «over» st => exact absurd ⟨st, hp⟩ hno
  all_goals decide

theorem rank_le (s : State) (hs : s.Ending) : s.rank ≤ 7 := by
  cases hp : s.phase <;> simp only [Ending, hp] at hs <;> simp only [rank, hp]
  case waiting =>
    obtain ⟨-, c, hc, -⟩ := hs
    simp only [hc, Option.map_some, Option.getD_some, Child.rank]
    split <;> decide
  case serving sv => split_ifs <;> decide
  all_goals decide

end State

/-! ### Whole runs -/

/-- What holds in a run that does not mix reloads with requests to terminate. -/
structure Inv (x : State × History) : Prop where
  notRestarted : x.2.restarted = false
  consistent : x.1.Consistent
  ending : x.2.asked = true → x.1.Ending

theorem inv_step {x y : State × History} {e : Event} (hx : Inv x) (hok : Unmixed x e)
    (h : observed.step x e = some y) : Inv y := by
  obtain ⟨s, hist⟩ := x
  obtain ⟨t, hist'⟩ := y
  obtain ⟨hst, rfl⟩ := Machine.withHistory_step_eq_some.1 h
  obtain ⟨hre, hcons, hend⟩ := hx
  have hst : s.step e = some t := hst
  clear h
  have hch : ∀ sig, e = .deliver sig → ¬ s.Childless := by
    rintro sig rfl
    cases sig <;> exact hok.2
  -- a daemon that was on its way out stays so
  have hstay : hist.asked = true → t.Ending := by
    intro ha
    refine ending_step (hend ha) ?_ ?_ hch hst
    · rintro rfl
      exact hok.1 ha
    · rintro rfl
      simp [Unmixed, ha] at hok
  refine ⟨?_, consistent_step hcons hch hst, ?_⟩
  · cases e with
    | reloaded shouldFork =>
      -- a daemon on its way out does not come to a reload
      have hno : hist.asked = false := by
        by_contra ha
        have hending : s.Ending := hend (by simpa using ha)
        cases stepped_of_step hst with
        | fork hp => simp [State.Ending, hp] at hending
        | serve hp => simp [State.Ending, hp] at hending
        | child _ _ h => cases h
      have hre : hist.restarted = false := hre
      simp [History.observe, hre, hno]
    | _ => exact hre
  · intro ha
    cases hasked : hist.asked with
    | true => exact hstay hasked
    | false =>
      -- this event is the request
      cases e with
      | deliver sig =>
        simp only [History.observe, hasked, Bool.false_or, Bool.and_eq_true] at ha
        have hno : ¬ s.ReloadDue := by
          cases sig
          · cases ha.2
          all_goals exact hok.1
        cases stepped_of_step hst with
        | deliver hd =>
          exact deliver_asked (s := { s with pending := s.pending.erase sig }) hcons ha.1 ha.2
            hno (hch sig rfl) hd
        | child _ _ h => cases h
      | _ => simp [History.observe, hasked] at ha

theorem asked_step {x y : State × History} {e : Event} (hx : x.2.asked = true)
    (h : observed.step x e = some y) : y.2.asked = true := by
  obtain ⟨-, hh⟩ := Machine.withHistory_step_eq_some.1 h
  rw [hh]
  cases e <;> simp [History.observe, hx]

/-- **A request to terminate is not lost**, in a run that does not mix it with a reload.  Nothing
is started after it; and from then on, as long as the daemon has not ended, one of its processes
has a step to take, and seven such steps lead to the end. -/
theorem terminate_not_lost {ls : List Event} {x : State × History}
    (hr : observed.run ({}, {}) ls = some x) (hok : observed.Along Unmixed ({}, {}) ls) :
    x.2.restarted = false ∧
    (x.2.asked = true → ∀ ls' y, observed.run x ls' = some y → observed.Along Unmixed x ls' →
      y.2.restarted = false ∧ (7 ≤ ls'.countP Event.internal → y.1.Over) ∧
      (¬ y.1.Over → ∃ e : Event, e.internal = true ∧ (observed.step y e).isSome = true)) := by
  have hinit : Inv ({}, {}) := ⟨rfl, trivial, by simp⟩
  have hx : Inv x :=
    (Machine.always_of_along (I := Inv) (fun _ _ _ hI hok h => inv_step hI hok h) hinit hok).last hr
  refine ⟨hx.notRestarted, fun ha ls' y hr' hok' => ?_⟩
  have hboth : ∀ z e w, (Inv z ∧ z.2.asked = true) → Unmixed z e → observed.step z e = some w →
      Inv w ∧ w.2.asked = true :=
    fun z e w hz hok h => ⟨inv_step hz.1 hok h, asked_step hz.2 h⟩
  have hy := (Machine.always_of_along (I := fun z => Inv z ∧ z.2.asked = true) hboth
    ⟨hx, ha⟩ hok').last hr'
  refine ⟨hy.1.notRestarted, fun hn => ?_, fun hno => ?_⟩
  · refine Machine.done_of_rank (I := fun z => Inv z ∧ z.2.asked = true) (D := fun z => z.1.Over)
      (fun z => z.1.rank) hboth ?_ ?_ ?_ ⟨hx, ha⟩ hok' hr'
      (Nat.le_trans (rank_le x.1 (hx.ending ha)) hn)
    · intro z e w hz _ h _
      exact rank_step (hz.1.ending hz.2) (Machine.withHistory_step_eq_some.1 h).1
    · intro z hz hno
      exact rank_pos (hz.1.ending hz.2) hno
    · intro z e w hz h
      have := (Machine.withHistory_step_eq_some.1 h).1
      simp only [daemon] at this
      rw [step_of_over hz e] at this
      cases this
  · obtain ⟨e, he, hs⟩ := progress (hy.1.ending hy.2) hno
    exact ⟨e, he, by simpa [observed, Machine.withHistory, daemon] using hs⟩

/-! ### Two runs -/

/-- A child is started, and a signal is delivered to its parent. -/
def startAndSignal (sig : Signal) : List Event :=
  [.reloaded true, .wait, .send sig, .deliver sig]

/-- The child stops for the signal that was passed on to it, and the parent goes on. -/
def childStops (sig : Signal) : List Event :=
  [.childServe, .childHandle sig, .childFinish, .childExit, .reap, .restore, .decide]

/-- **SIGTERM is lost** when it comes while the child stops for a SIGHUP: a new child is
started. -/
theorem terminate_lost :
    ((observed.run ({}, {}) (startAndSignal .hup ++ [.send .term, .deliver .term] ++
      childStops .int ++ [.block, .reloaded true])).map fun x => x.2) =
        some { asked := true, restarted := true } := by
  decide

/-- The daemon after SIGTERM alone. -/
def afterTerm : State × History :=
  (observed.run ({}, {}) (startAndSignal .term)).get (by decide)

/-- The same after the child has stopped. -/
def atEnd : State × History := (observed.run afterTerm (childStops .term)).get (by decide)

/-- After SIGTERM alone the daemon ends. -/
theorem over_atEnd : atEnd.1.Over ∧ atEnd.2.restarted = false := by
  have hok : observed.Along Unmixed ({}, {}) (startAndSignal .term) := by
    simp [startAndSignal, Machine.Along, observed, Machine.withHistory, daemon, State.step,
      Unmixed, State.ReloadDue, State.Childless, Child.ReloadDue]
  have hok' : observed.Along Unmixed afterTerm (childStops .term) := by
    simp [childStops, Machine.Along, Unmixed]
  have h := (terminate_not_lost (Option.some_get _).symm hok).2 (by decide) (childStops .term)
    atEnd (Option.some_get _).symm hok'
  exact ⟨h.2.1 (by decide), h.1⟩

end Process

end Wsddn

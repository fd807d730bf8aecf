import Wsddn.Machine.Basic
import Wsddn.Netlink.Truncated

/-!
# The interface monitor at work (`InterfaceMonitorImpl` of `interface_monitor_linux.cpp`)

The monitor asks the kernel for all addresses and then reads its socket, one receive after the
other.  When a message does not fit the buffer, the buffer is doubled and all addresses are asked
for again; so they are after an error.

* `InterfaceMonitor.step` : what happens when a receive is completed, and when the monitor is
  stopped.
* `Sound` : what holds in every state; kept by `Sound.step`.
* `buffer_kept` : **the buffer is not reallocated while the kernel writes to it.**
* `kernel` : the monitor with a kernel that sends datagrams of well-formed messages.
* `told` : **what was asked for is told**, and it is only asked for so often.
-/

namespace Wsddn

namespace Netlink

/-- The monitor, with the object that is its handler, the sizes of the buffers of the receives that
are not completed, and what it has done. -/
structure InterfaceMonitor (σ : Type) where
  handler : σ
  /-- `m_handler` is set. -/
  attached : Bool := false
  isOpen : Bool := true
  /-- `m_recvBuffer.size()` -/
  bufferSize : ℕ
  receives : List ℕ := []
  requests : ℕ := 0
  calls : List Call := []
  /-- An exception has left a handler, and the event loop. -/
  raised : Bool := false
  /-- Bytes outside of the buffer were read. -/
  outside : Bool := false

namespace InterfaceMonitor

variable {σ : Type}

/-- The monitor that is created. -/
def create (pageSize : ℕ) (handler : σ) : InterfaceMonitor σ where
  handler
  bufferSize := 2 * pageSize

/-- All addresses are asked for. -/
def requestAll (sent : Bool) (st : InterfaceMonitor σ) : InterfaceMonitor σ :=
  if st.isOpen && sent then { st with requests := st.requests + 1 } else { st with raised := true }

/-- The next receive is started, for the whole buffer. -/
def read (st : InterfaceMonitor σ) : InterfaceMonitor σ :=
  if st.raised then st else { st with receives := st.receives ++ [st.bufferSize] }

/-- The handler is set and all addresses are asked for. -/
def start (sent : Bool) (st : InterfaceMonitor σ) : InterfaceMonitor σ :=
  (requestAll sent { st with attached := true }).read

/-- The socket is closed and the handler is gone. -/
def stop (st : InterfaceMonitor σ) : InterfaceMonitor σ :=
  { st with isOpen := false, attached := false }

/-- The events: a receive is completed, and its completion handler runs, or `stop` is called.  The
answers of the system, and whether a request can be sent, are part of the event. -/
inductive Event where
  | received (k : ℕ → Answers) (bytes : List UInt8) (sent : Bool)
  | failed (aborted : Bool)
  | stop

variable (H : (ℕ → Answers) → Handler σ) (cfg : MonitorConfig)

/-- What is done after `parseBuffer`, whose status is `none` if an exception has left it. -/
def parsed (sent : Bool) (status : Option ParseStatus) (st : InterfaceMonitor σ) :
    InterfaceMonitor σ :=
  match status with
  | none => { st with raised := true }
  | some .done => st.read
  | some .expectMore => st.read
  | some .bufferTooSmall => (requestAll sent { st with bufferSize := st.bufferSize * 2 }).read
  | some .error => (st.requestAll sent).read

/-- The completion handler of a receive. -/
def onReceived (k : ℕ → Answers) (bytes : List UInt8) (sent : Bool) (st : InterfaceMonitor σ) :
    InterfaceMonitor σ :=
  if !st.attached then st
  else
    match parseBufferFor (H k) cfg k bytes st.handler with
    | none => { st with outside := true }
    | some (status, parser) =>
      parsed sent status { st with handler := parser.handler, calls := st.calls ++ parser.calls }

/-- The same with an error; `onFatalInterfaceMonitorError` raises. -/
def onFailed (aborted : Bool) (st : InterfaceMonitor σ) : InterfaceMonitor σ :=
  if !st.attached then st else if aborted then st else { st with raised := true }

/-- What happens in an event; `H k` is the handler when the system gives the answers `k`.  A receive
gives at most as many bytes as its buffer has, and it is aborted only when the socket is closed. -/
def step (st : InterfaceMonitor σ) (e : Event) : Option (InterfaceMonitor σ) :=
  if st.raised || st.outside then none
  else
    match e, st.receives with
    | .received k bytes sent, size :: receives =>
      if bytes.length ≤ size then some (onReceived H cfg k bytes sent { st with receives })
      else none
    | .failed aborted, _ :: receives =>
      if aborted && st.isOpen then none else some (onFailed aborted { st with receives })
    | .stop, _ => some st.stop
    | _, [] => none

/-- The monitor, from its start on. -/
def machine (pageSize : ℕ) (handler : σ) : Machine (InterfaceMonitor σ) Event where
  init st := ∃ sent, st = (create pageSize handler).start sent
  step := step H cfg

/-! ### What the completion handler does -/

/-- The size of the buffer behind a status. -/
def sizeAfter (size : ℕ) : ParseStatus → ℕ
  | .bufferTooSmall => size * 2
  | _ => size

/-- The statuses for which all addresses are asked for again. -/
def AsksAgain (status : ParseStatus) : Prop := status = .bufferTooSmall ∨ status = .error

/-- What the completion handler of a receive can lead to while the monitor has a handler. -/
inductive Completed (k : ℕ → Answers) (bytes : List UInt8) (st : InterfaceMonitor σ) :
    InterfaceMonitor σ → Prop
  | outside (h : parseBufferFor (H k) cfg k bytes st.handler = none) :
      Completed k bytes st { st with outside := true }
  | raised {parser : Monitored σ}
      (h : parseBufferFor (H k) cfg k bytes st.handler = some (none, parser)) :
      Completed k bytes st
        { st with handler := parser.handler, calls := st.calls ++ parser.calls, raised := true }
  | goesOn {status : ParseStatus} {parser : Monitored σ}
      (h : parseBufferFor (H k) cfg k bytes st.handler = some (some status, parser))
      (hstatus : ¬ AsksAgain status) :
      Completed k bytes st
        { st with
          handler := parser.handler
          calls := st.calls ++ parser.calls
          receives := st.receives ++ [st.bufferSize] }
  | asks {status : ParseStatus} {parser : Monitored σ}
      (h : parseBufferFor (H k) cfg k bytes st.handler = some (some status, parser))
      (hstatus : AsksAgain status) :
      Completed k bytes st
        { st with
          handler := parser.handler
          calls := st.calls ++ parser.calls
          bufferSize := sizeAfter st.bufferSize status
          requests := st.requests + 1
          receives := st.receives ++ [sizeAfter st.bufferSize status] }
  | refused {status : ParseStatus} {parser : Monitored σ}
      (h : parseBufferFor (H k) cfg k bytes st.handler = some (some status, parser))
      (hstatus : AsksAgain status) :
      Completed k bytes st
        { st with
          handler := parser.handler
          calls := st.calls ++ parser.calls
          bufferSize := sizeAfter st.bufferSize status
          raised := true }

variable {H cfg} {st st' : InterfaceMonitor σ} {pageSize : ℕ} {handler : σ} {k : ℕ → Answers}
  {bytes : List UInt8} {sent : Bool}

theorem read_of_raised (h : st.raised = true) : st.read = st := if_pos h

theorem read_of_not_raised (h : st.raised = false) :
    st.read = { st with receives := st.receives ++ [st.bufferSize] } :=
  if_neg (by simp [h])

/-- A request is sent, or an exception leaves the event loop. -/
theorem requestAll_cases (st : InterfaceMonitor σ) (sent : Bool) :
    st.requestAll sent = { st with requests := st.requests + 1 } ∨
      st.requestAll sent = { st with raised := true } := by
  unfold requestAll
  split_ifs
  · exact .inl rfl
  · exact .inr rfl

theorem completed_onReceived (hattached : st.attached = true) (hraised : st.raised = false) :
    Completed H cfg k bytes st (onReceived H cfg k bytes sent st) := by
  unfold onReceived
  rw [if_neg (by simp [hattached])]
  cases h : parseBufferFor (H k) cfg k bytes st.handler with
  | none => exact .outside h
  | some found =>
    obtain ⟨status, parser⟩ := found
    -- what the monitor knows after `parseBuffer`
    let st₁ : InterfaceMonitor σ :=
      { st with handler := parser.handler, calls := st.calls ++ parser.calls }
    show Completed H cfg k bytes st (parsed sent status st₁)
    have hread : st₁.read = { st₁ with receives := st₁.receives ++ [st₁.bufferSize] } :=
      read_of_not_raised hraised
    cases status with
    | none => exact .raised h
    | some status =>
      cases status with
      | done =>
        rw [parsed, hread]
        exact .goesOn h (by simp [AsksAgain])
      | expectMore =>
        rw [parsed, hread]
        exact .goesOn h (by simp [AsksAgain])
      | bufferTooSmall =>
        rw [parsed]
        rcases requestAll_cases { st₁ with bufferSize := st₁.bufferSize * 2 } sent with hr | hr
        · rw [hr, read_of_not_raised]
          · exact .asks h (.inl rfl)
          · exact hraised
        · rw [hr, read_of_raised rfl]
          exact .refused h (.inl rfl)
      | error =>
        rw [parsed]
        rcases requestAll_cases st₁ sent with hr | hr
        · rw [hr, read_of_not_raised]
          · exact .asks h (.inr rfl)
          · exact hraised
        · rw [hr, read_of_raised rfl]
          exact .refused h (.inr rfl)

/-- Whatever it leads to, the calls and the handler are those of `parseBuffer`, and an exception that
leaves `parseBuffer` leaves the event loop. -/
theorem Completed.parsed (h : Completed H cfg k bytes st st') :
    parseBufferFor (H k) cfg k bytes st.handler = none ∨
      ∃ status parser, parseBufferFor (H k) cfg k bytes st.handler = some (status, parser) ∧
        (st'.raised = false → status ≠ none) ∧ st'.outside = st.outside ∧
        st'.handler = parser.handler ∧ st'.calls = st.calls ++ parser.calls := by
  cases h with
  | outside hnone => exact .inl hnone
  | raised hsome => exact .inr ⟨_, _, hsome, fun hr => (nomatch hr), rfl, rfl, rfl⟩
  | goesOn hsome => exact .inr ⟨_, _, hsome, fun _ h => (nomatch h), rfl, rfl, rfl⟩
  | asks hsome => exact .inr ⟨_, _, hsome, fun _ h => (nomatch h), rfl, rfl, rfl⟩
  | refused hsome => exact .inr ⟨_, _, hsome, fun hr => (nomatch hr), rfl, rfl, rfl⟩

/-! ### What holds in every state -/

/-- **What holds in every state**: there is at most one receive, and it has the buffer that there
is; there is one as long as the monitor is at work. -/
structure Sound (pageSize : ℕ) (st : InterfaceMonitor σ) : Prop where
  one : st.receives = [] ∨ st.receives = [st.bufferSize]
  reading : st.attached = true → st.raised = false → st.outside = false →
    st.receives = [st.bufferSize]
  isOpen : st.attached = st.isOpen
  doubled : ∃ j, st.bufferSize = 2 * pageSize * 2 ^ j

theorem sound_start (handler : σ) : ((create pageSize handler).start sent).Sound pageSize := by
  have hdoubled : ∃ j, 2 * pageSize = 2 * pageSize * 2 ^ j := ⟨0, by simp⟩
  cases sent with
  | true => exact ⟨.inr rfl, fun _ _ _ => rfl, rfl, hdoubled⟩
  | false => exact ⟨.inl rfl, fun _ h => (nomatch h), rfl, hdoubled⟩

theorem sizeAfter_doubled (status : ParseStatus)
    (h : ∃ j, st.bufferSize = 2 * pageSize * 2 ^ j) :
    ∃ j, sizeAfter st.bufferSize status = 2 * pageSize * 2 ^ j := by
  obtain ⟨j, hj⟩ := h
  cases status with
  | bufferTooSmall => exact ⟨j + 1, by rw [sizeAfter, hj, Nat.pow_succ, Nat.mul_assoc]⟩
  | _ => exact ⟨j, hj⟩

/-- The completion handler starts the next receive when there is no other. -/
theorem sound_completed (hreceives : st.receives = []) (hopen : st.attached = st.isOpen)
    (hdoubled : ∃ j, st.bufferSize = 2 * pageSize * 2 ^ j)
    (hst : Completed H cfg k bytes st st') : st'.Sound pageSize := by
  cases hst with
  | outside => exact ⟨.inl hreceives, fun _ _ h => (nomatch h), hopen, hdoubled⟩
  | raised => exact ⟨.inl hreceives, fun _ h => (nomatch h), hopen, hdoubled⟩
  | goesOn =>
    have hone : st.receives ++ [st.bufferSize] = [st.bufferSize] := by rw [hreceives]; rfl
    exact ⟨.inr hone, fun _ _ _ => hone, hopen, hdoubled⟩
  | @asks status =>
    have hone : st.receives ++ [sizeAfter st.bufferSize status] =
        [sizeAfter st.bufferSize status] := by rw [hreceives]; rfl
    exact ⟨.inr hone, fun _ _ _ => hone, hopen, sizeAfter_doubled _ hdoubled⟩
  | refused =>
    exact ⟨.inl hreceives, fun _ h => (nomatch h), hopen, sizeAfter_doubled _ hdoubled⟩

variable (H cfg) in
/-- Everything that can happen in an event. -/
inductive Stepped (st : InterfaceMonitor σ) : Event → InterfaceMonitor σ → Prop
  | completed {k : ℕ → Answers} {bytes : List UInt8} {sent : Bool} {size : ℕ} {receives : List ℕ}
      {st' : InterfaceMonitor σ} (hreceives : st.receives = size :: receives)
      (hlen : bytes.length ≤ size) (hattached : st.attached = true)
      (h : Completed H cfg k bytes { st with receives } st') :
      Stepped st (.received k bytes sent) st'
  | detached {e : Event} {size : ℕ} {receives : List ℕ} (hreceives : st.receives = size :: receives)
      (hattached : st.attached = false) : Stepped st e { st with receives }
  | failed {aborted : Bool} {size : ℕ} {receives : List ℕ}
      (hreceives : st.receives = size :: receives) (hattached : st.attached = true)
      (haborted : aborted = true → st.isOpen = false) :
      Stepped st (.failed aborted)
        (if aborted then { st with receives } else { st with receives, raised := true })
  | stop : Stepped st .stop st.stop

theorem step_cases {e : Event} (h : step H cfg st e = some st') :
    st.raised = false ∧ st.outside = false ∧ Stepped H cfg st e st' := by
  unfold step at h
  split_ifs at h with hover
  simp only [Bool.or_eq_true, not_or, Bool.not_eq_true] at hover
  refine ⟨hover.1, hover.2, ?_⟩
  cases e with
  | stop =>
    obtain rfl := Option.some.inj h
    exact .stop
  | received k bytes sent =>
    cases hreceives : st.receives with
    | nil => simp [hreceives] at h
    | cons size receives =>
      simp only [hreceives] at h
      split_ifs at h with hlen
      obtain rfl := Option.some.inj h
      by_cases hattached : st.attached = true
      · exact .completed hreceives hlen hattached (completed_onReceived hattached hover.1)
      · have hignored : onReceived H cfg k bytes sent { st with receives } = { st with receives } :=
          if_pos (by simp [hattached])
        rw [hignored]
        exact .detached hreceives (Bool.eq_false_iff.2 hattached)
  | failed aborted =>
    cases hreceives : st.receives with
    | nil => simp [hreceives] at h
    | cons size receives =>
      simp only [hreceives] at h
      split_ifs at h with haborted
      obtain rfl := Option.some.inj h
      by_cases hattached : st.attached = true
      · have hfailed : onFailed aborted { st with receives } =
            if aborted then { st with receives } else { st with receives, raised := true } :=
          if_neg (by simp [hattached])
        rw [hfailed]
        refine .failed hreceives hattached fun htrue => ?_
        simpa [htrue] using haborted
      · have hignored : onFailed aborted { st with receives } = { st with receives } :=
          if_pos (by simp [hattached])
        rw [hignored]
        exact .detached hreceives (Bool.eq_false_iff.2 hattached)

theorem Sound.step {e : Event} (h : st.Sound pageSize) (hst : step H cfg st e = some st') :
    st'.Sound pageSize := by
  obtain ⟨-, -, hstep⟩ := step_cases hst
  have hlast : ∀ {size receives}, st.receives = size :: receives →
      size = st.bufferSize ∧ receives = [] := by
    intro size receives hreceives
    rcases h.one with hnone | hone
    · rw [hnone] at hreceives
      cases hreceives
    · rw [hone] at hreceives
      obtain ⟨rfl, rfl⟩ := List.cons.inj hreceives
      exact ⟨rfl, rfl⟩
  cases hstep with
  | completed hreceives _ _ hcompleted =>
    obtain ⟨-, rfl⟩ := hlast hreceives
    refine sound_completed ?_ ?_ ?_ hcompleted
    · rfl
    · exact h.isOpen
    · exact h.doubled
  | detached hreceives hattached =>
    obtain ⟨-, rfl⟩ := hlast hreceives
    exact ⟨.inl rfl, fun hat => absurd hat (by simp [hattached]), h.isOpen, h.doubled⟩
  | @failed aborted _ _ hreceives hattached haborted =>
    obtain ⟨-, rfl⟩ := hlast hreceives
    cases aborted with
    | true =>
      have hclosed := haborted rfl
      rw [← h.isOpen, hattached] at hclosed
      cases hclosed
    | false => exact ⟨.inl rfl, fun _ hraised => (nomatch hraised), h.isOpen, h.doubled⟩
  | stop => exact ⟨h.one, fun hat => (nomatch hat), rfl, h.doubled⟩

/-- What is not changed once the monitor is stopped. -/
def SameWork (st st' : InterfaceMonitor σ) : Prop :=
  st'.attached = false ∧ st'.handler = st.handler ∧ st'.calls = st.calls ∧
    st'.requests = st.requests ∧ st'.bufferSize = st.bufferSize ∧ st'.raised = st.raised

theorem run_detached {es : List Event} (h : st.attached = false)
    (hrun : Machine.run (machine H cfg pageSize handler) st es = some st') : st.SameWork st' := by
  refine Machine.run_invariant (I := st.SameWork) (fun s e t hs hst => ?_)
    ⟨h, rfl, rfl, rfl, rfl, rfl⟩ hrun
  obtain ⟨hattached, hsame⟩ := hs
  cases (step_cases hst).2.2 with
  | completed _ _ htrue => exact absurd htrue (by simp [hattached])
  | detached => exact ⟨hattached, hsame⟩
  | failed _ htrue => exact absurd htrue (by simp [hattached])
  | stop => exact ⟨rfl, hsame⟩

/-- **The buffer is not reallocated while the kernel writes to it.**  In every run there is at most
one receive, and its buffer is the one that the monitor has; there is one until the monitor is
stopped or an exception leaves the event loop.  Once it is stopped, no call and no request is
made. -/
theorem buffer_kept (H : (ℕ → Answers) → Handler σ) (cfg : MonitorConfig) (pageSize : ℕ) (handler : σ)
    (st : InterfaceMonitor σ) (h : (machine H cfg pageSize handler).Reachable st) :
    st.Sound pageSize ∧
      ∀ es st', st.attached = false → (machine H cfg pageSize handler).run st es = some st' →
        st.SameWork st' := by
  refine ⟨h.invariant ?_ fun st e st' => Sound.step, fun es st' hattached => run_detached hattached⟩
  rintro st ⟨sent, rfl⟩
  exact sound_start handler

/-- A handler that does nothing, whatever the system answers. -/
def quiet (_ : ℕ → Answers) : Handler Unit := quietHandler

/-- A header with a length that is too short for it. -/
def shortHeader : Event := .received (fun _ => ⟨none, none, .failed⟩) [4, 0, 0, 0] true

theorem buffer_kept_shortHeader : ∃ st : InterfaceMonitor Unit,
    (machine quiet {} 4096 ()).run ((create 4096 ()).start true) [shortHeader] = some st ∧
      st.requests = 2 ∧ st.Sound 4096 := by
  have hrun : (machine quiet {} 4096 ()).run ((create 4096 ()).start true) [shortHeader] =
      some _ := rfl
  exact ⟨_, hrun, rfl, (buffer_kept quiet {} 4096 () _ ⟨_, _, ⟨true, rfl⟩, hrun⟩).1⟩

end InterfaceMonitor

/-! ### The monitor and the kernel -/

/-- What the kernel does: it sends a datagram, which is cut off at the end of the buffer, or the
receive fails; or the monitor is stopped. -/
inductive KernelEvent where
  | datagram (k : ℕ → Answers) (ms : List Message) (sent : Bool)
  | failed (aborted : Bool)
  | stop

namespace KernelEvent

/-- What the monitor sees of it, with a buffer of this size. -/
def event (size : ℕ) : KernelEvent → InterfaceMonitor.Event
  | datagram k ms sent => .received k ((Message.encodeAll ms).take size) sent
  | failed aborted => .failed aborted
  | stop => .stop

/-- The datagrams that are sent. -/
def datagrams : KernelEvent → List (List Message)
  | datagram _ ms _ => [ms]
  | _ => []

end KernelEvent

/-- The monitor, with the calls that it had made when it last asked for all addresses, and the
datagrams that it was sent since then. -/
structure Watched (σ : Type) where
  monitor : InterfaceMonitor σ
  before : List Call := []
  since : List (List Message) := []

namespace Watched

open InterfaceMonitor

variable {σ : Type} (H : (ℕ → Answers) → Handler σ) (cfg : MonitorConfig)

/-- The step of the monitor, with what is noted for a request of all addresses. -/
def step (x : Watched σ) (e : KernelEvent) : Option (Watched σ) :=
  (InterfaceMonitor.step H cfg x.monitor (e.event x.monitor.bufferSize)).map fun st =>
    if x.monitor.requests < st.requests then ⟨st, st.calls, []⟩
    else ⟨st, x.before, if x.monitor.attached then x.since ++ e.datagrams else x.since⟩

/-- The monitor that has been started. -/
def start (pageSize : ℕ) (handler : σ) (sent : Bool) : Watched σ where
  monitor := (create pageSize handler).start sent

/-- **A monitor and a kernel.** -/
def kernel (pageSize : ℕ) (handler : σ) : Machine (Watched σ) KernelEvent where
  init x := ∃ sent, x = start pageSize handler sent
  step := step H cfg

/-- What the kernel keeps to: a datagram has at most `M` bytes and reports no error, and it is not
cut off between two messages. -/
def Keeps (io : Interfaces) (M : ℕ) (x : Watched σ) : KernelEvent → Prop
  | .datagram k ms _ =>
    Answering io k 0 ms ∧ (Message.encodeAll ms).length ≤ M ∧
      (∀ m ∈ ms, m.ends = none ∨ m.ends = some .done) ∧
      ((Message.encodeAll ms).length ≤ x.monitor.bufferSize ∨
        (Message.encodeAll (Message.whole x.monitor.bufferSize ms)).length < x.monitor.bufferSize)
  | _ => True

/-- The size of the buffer, doubled so often, and never when it was large enough. -/
def Doubled (pageSize M : ℕ) (st : InterfaceMonitor σ) (j : ℕ) : Prop :=
  st.bufferSize = 2 * pageSize * 2 ^ j ∧ (j = 0 ∨ 2 * pageSize * 2 ^ (j - 1) < M)

/-- What holds in every state of a run in which the kernel keeps to it. -/
structure Told (cfg : MonitorConfig) (io : Interfaces) (pageSize M : ℕ) (x : Watched σ) : Prop where
  sound : x.monitor.Sound pageSize
  inside : x.monitor.outside = false
  told : x.monitor.raised = false → x.monitor.calls = x.before ++ x.since.flatMap (rule cfg io)
  requests : ∃ j, Doubled pageSize M x.monitor j ∧ x.monitor.requests ≤ 1 + j

variable {H cfg} {io : Interfaces} {pageSize M : ℕ} {x y : Watched σ} {st : InterfaceMonitor σ}
  {ms : List Message} {tail : List UInt8} {size : ℕ}

/-- Behind a message that ends the loop the rule gives no call. -/
theorem rule_append (pre later : List Message) {status : ParseStatus}
    (h : pre.findSome? Message.ends = some status) :
    rule cfg io (pre ++ later) = rule cfg io pre := by
  unfold rule
  rw [List.takeWhile_append, if_neg]
  intro hall
  obtain ⟨m, hm, hends⟩ := List.exists_of_findSome?_eq_some h
  have hpre := (List.takeWhile_prefix _).eq_of_length hall
  have hnone := List.takeWhile_eq_self_iff.1 hpre m hm
  simp [hends] at hnone

variable (cfg io) in
/-- What the status says of a datagram: either it has been handled completely, or it does not fit
the buffer. -/
theorem statusOf_cases
    (htail : (Message.encodeAll ms).take size = Message.encodeAll (Message.whole size ms) ++ tail)
    (hends : ∀ m ∈ ms, m.ends = none ∨ m.ends = some .done)
    (hcut : (Message.encodeAll ms).length ≤ size ∨
      (Message.encodeAll (Message.whole size ms)).length < size) :
    (¬ AsksAgain (statusOf (Message.whole size ms) tail) ∧
        rule cfg io (Message.whole size ms) = rule cfg io ms) ∨
      statusOf (Message.whole size ms) tail = .bufferTooSmall ∧
        size < (Message.encodeAll ms).length := by
  obtain ⟨later, hlater⟩ := Message.whole_prefix size ms
  unfold statusOf
  cases hfind : (Message.whole size ms).findSome? Message.ends with
  | some status =>
    -- the message at the end of a dump
    obtain ⟨m, hm, hstatus⟩ := List.exists_of_findSome?_eq_some hfind
    have hdone : status = .done := by
      rcases hends m ((Message.whole_prefix size ms).subset hm) with h | h <;>
        simp_all
    subst hdone
    refine .inl ⟨by simp [AsksAgain], ?_⟩
    exact (rule_append _ later hfind).symm.trans (congrArg (rule cfg io) hlater)
  | none =>
    have hlen := congrArg List.length htail
    rw [List.length_take, List.length_append] at hlen
    by_cases hnil : tail = []
    · rw [hnil, List.length_nil] at hlen
      have hfits : (Message.encodeAll ms).length ≤ size := by omega
      refine .inl ⟨by simp [hnil, AsksAgain], ?_⟩
      rw [Message.whole_of_le hfits]
    · refine .inr ⟨by simp [hnil], ?_⟩
      by_contra hfits
      rw [Message.whole_of_le (Nat.le_of_not_lt hfits)] at hlen
      have := List.length_pos_of_ne_nil hnil
      omega

/-- The other events change nothing of it. -/
theorem Told.same (h : x.Told cfg io pageSize M) (hsound : st.Sound pageSize)
    (hinside : st.outside = false) (hcalls : st.calls = x.monitor.calls)
    (hrequests : st.requests = x.monitor.requests) (hsize : st.bufferSize = x.monitor.bufferSize)
    (hraised : st.raised = false → x.monitor.raised = false) :
    (⟨st, x.before, x.since⟩ : Watched σ).Told cfg io pageSize M := by
  obtain ⟨j, hj, hreq⟩ := h.requests
  refine ⟨hsound, hinside, fun hr => ?_, j, ⟨hsize.trans hj.1, hj.2⟩, hrequests.le.trans hreq⟩
  rw [hcalls]
  exact h.told (hraised hr)

theorem bufferSize_mod (hpage : pageSize % 2 = 0) (h : st.Sound pageSize) :
    st.bufferSize % 4 = 0 := by
  obtain ⟨j, hj⟩ := h.doubled
  have hdvd : 4 ∣ 2 * pageSize := by omega
  rw [hj]
  exact Nat.mod_eq_zero_of_dvd (hdvd.mul_right _)

theorem Doubled.small {st' : InterfaceMonitor σ} {j : ℕ} (h : Doubled pageSize M st j)
    (hsize : st'.bufferSize = sizeAfter st.bufferSize .bufferTooSmall) (hlt : st.bufferSize < M) :
    Doubled pageSize M st' (j + 1) := by
  refine ⟨?_, .inr ?_⟩
  · rw [hsize, sizeAfter, h.1, Nat.pow_succ, Nat.mul_assoc]
  · rw [Nat.add_sub_cancel, ← h.1]
    exact hlt

/-- **A receive of a datagram**: it is handled, or all addresses are asked for again with a buffer
that was too small for it before. -/
theorem Told.completed (hpage : pageSize % 2 = 0) (h : x.Told cfg io pageSize M)
    {k : ℕ → Answers} {sent : Bool} {receives : List ℕ}
    (hok : x.Keeps io M (.datagram k ms sent)) (hattached : x.monitor.attached = true)
    (hsound : st.Sound pageSize)
    (hst : Completed H cfg k ((Message.encodeAll ms).take x.monitor.bufferSize)
      { x.monitor with receives } st) :
    (if x.monitor.requests < st.requests then ⟨st, st.calls, []⟩
      else ⟨st, x.before, if x.monitor.attached then x.since ++ [ms] else x.since⟩ :
        Watched σ).Told cfg io pageSize M := by
  obtain ⟨hk, hM, hends, hcut⟩ := hok
  obtain ⟨tail, parser, htail, hparse, hcalls, -⟩ := parseBufferFor_cut (H k) cfg
    (bufferSize_mod hpage h.sound) hk x.monitor.handler
  obtain ⟨j, hj, hreq⟩ := h.requests
  rw [if_pos hattached]
  cases hst with
  | outside hnone =>
    rw [hparse] at hnone
    cases hnone
  | raised =>
    rw [if_neg (lt_irrefl _)]
    exact ⟨hsound, h.inside, fun hr => (nomatch hr), j, hj, hreq⟩
  | goesOn hsome hstatus =>
    rw [hparse] at hsome
    obtain ⟨hraises, rfl⟩ := Prod.mk.inj (Option.some.inj hsome)
    split_ifs at hraises with hquiet
    obtain rfl := Option.some.inj hraises
    rw [if_neg (lt_irrefl _)]
    refine ⟨hsound, h.inside, fun hr => ?_, j, hj, hreq⟩
    have hrule : parser.calls = rule cfg io ms := by
      rcases statusOf_cases cfg io htail hends hcut with ⟨-, hrule⟩ | ⟨hsmall, -⟩
      · rw [hcalls, (H k).performAll_of_not_raises (Bool.eq_false_iff.2 hquiet), ← hrule]
        exact Message.calls_map_snd cfg io 0 _
      · exact absurd (.inl hsmall) hstatus
    show x.monitor.calls ++ parser.calls = _
    rw [h.told hr, hrule, List.flatMap_append, List.flatMap_singleton, List.append_assoc]
  | asks hsome hstatus =>
    rw [hparse] at hsome
    obtain ⟨hraises, rfl⟩ := Prod.mk.inj (Option.some.inj hsome)
    split_ifs at hraises with hquiet
    obtain rfl := Option.some.inj hraises
    rw [if_pos (Nat.lt_succ_self _)]
    rcases statusOf_cases cfg io htail hends hcut with ⟨hnot, -⟩ | ⟨hsmall, hlt⟩
    · exact absurd hstatus hnot
    · refine ⟨hsound, h.inside, fun _ => (List.append_nil _).symm, j + 1, ?_, ?_⟩
      · exact hj.small (congrArg (sizeAfter _) hsmall) (lt_of_lt_of_le hlt hM)
      · show x.monitor.requests + 1 ≤ _
        omega
  | refused hsome hstatus =>
    rw [hparse] at hsome
    obtain ⟨hraises, rfl⟩ := Prod.mk.inj (Option.some.inj hsome)
    split_ifs at hraises with hquiet
    obtain rfl := Option.some.inj hraises
    rw [if_neg (lt_irrefl _)]
    rcases statusOf_cases cfg io htail hends hcut with ⟨hnot, -⟩ | ⟨hsmall, hlt⟩
    · exact absurd hstatus hnot
    · refine ⟨hsound, h.inside, fun hr => (nomatch hr), j + 1, ?_, ?_⟩
      · exact hj.small (congrArg (sizeAfter _) hsmall) (lt_of_lt_of_le hlt hM)
      · show x.monitor.requests ≤ _
        omega

theorem Told.step (hpage : pageSize % 2 = 0) (h : x.Told cfg io pageSize M) {e : KernelEvent}
    (hok : x.Keeps io M e) (hst : step H cfg x e = some y) : y.Told cfg io pageSize M := by
  obtain ⟨st, hmonitor, rfl⟩ := Option.map_eq_some_iff.1 hst
  have hsound := h.sound.step hmonitor
  obtain ⟨-, -, hstep⟩ := step_cases hmonitor
  -- a receive that is completed without a handler, or with an error
  have hsame : st.outside = false → st.calls = x.monitor.calls →
      st.requests = x.monitor.requests → st.bufferSize = x.monitor.bufferSize →
      (st.raised = false → x.monitor.raised = false) →
      (x.monitor.attached = true → e.datagrams = []) →
      (if x.monitor.requests < st.requests then ⟨st, st.calls, []⟩
        else ⟨st, x.before, if x.monitor.attached then x.since ++ e.datagrams else x.since⟩ :
          Watched σ).Told cfg io pageSize M := by
    intro hinside hcalls hrequests hsize hraised hnone
    have hsince : (if x.monitor.attached then x.since ++ e.datagrams else x.since) = x.since := by
      split_ifs with hattached
      · rw [hnone hattached, List.append_nil]
      · rfl
    rw [if_neg (by omega), hsince]
    exact h.same hsound hinside hcalls hrequests hsize hraised
  cases e with
  | datagram k ms sent =>
    cases hstep with
    | completed _ _ hattached hcompleted =>
      exact h.completed hpage hok hattached hsound hcompleted
    | detached _ hattached =>
      exact hsame h.inside rfl rfl rfl id fun htrue => absurd htrue (by simp [hattached])
  | failed aborted =>
    cases hstep with
    | detached => exact hsame h.inside rfl rfl rfl id fun _ => rfl
    | failed =>
      cases aborted with
      | true => exact hsame h.inside rfl rfl rfl id fun _ => rfl
      | false => exact hsame h.inside rfl rfl rfl (fun hr => nomatch hr) fun _ => rfl
  | stop =>
    cases hstep with
    | detached => exact hsame h.inside rfl rfl rfl id fun _ => rfl
    | stop => exact hsame h.inside rfl rfl rfl id fun _ => rfl

theorem told_start (handler : σ) (sent : Bool) :
    (start pageSize handler sent).Told cfg io pageSize M := by
  have hdoubled : Doubled pageSize M (start pageSize handler sent).monitor 0 := by
    refine ⟨?_, .inl rfl⟩
    rw [Nat.pow_zero, Nat.mul_one]
    cases sent <;> rfl
  refine ⟨sound_start handler, ?_, fun _ => ?_, 0, hdoubled, ?_⟩
  · cases sent <;> rfl
  · cases sent <;> rfl
  · cases sent with
    | true => exact le_rfl
    | false => exact Nat.zero_le _

/-- **What was asked for is told.**  In every run in which the kernel keeps to it, nothing outside of
the buffer is read, and the calls that the monitor has made since it last asked for all addresses
are those that the rule gives for all messages of all datagrams since then; and it has asked again
at most once for each time that the buffer was doubled, which it never was when it was large enough
for every datagram. -/
theorem told (H : (ℕ → Answers) → Handler σ) (cfg : MonitorConfig) (io : Interfaces)
    (pageSize M : ℕ) (hpage : pageSize % 2 = 0) (handler : σ) (sent : Bool)
    (es : List KernelEvent) (x : Watched σ)
    (hok : (kernel H cfg pageSize handler).Along (Keeps io M) (start pageSize handler sent) es)
    (hrun : (kernel H cfg pageSize handler).run (start pageSize handler sent) es = some x) :
    x.monitor.outside = false ∧
      (x.monitor.raised = false →
        x.monitor.calls = x.before ++ x.since.flatMap (rule cfg io)) ∧
      ∃ j, x.monitor.bufferSize = 2 * pageSize * 2 ^ j ∧ (j = 0 ∨ 2 * pageSize * 2 ^ (j - 1) < M) ∧
        x.monitor.requests ≤ 1 + j := by
  have h : x.Told cfg io pageSize M :=
    (Machine.always_of_along (I := fun x => x.Told cfg io pageSize M)
      (fun _ _ _ hx hkeeps hst => hx.step hpage hkeeps hst) (told_start handler sent) hok).last hrun
  obtain ⟨j, hj, hreq⟩ := h.requests
  exact ⟨h.inside, h.told, j, hj.1, hj.2, hreq⟩

/-- A dump with one address. -/
def dump : KernelEvent :=
  .datagram (fun _ => ⟨some (SysString.ofLiteral "eth1"), some 0x1043, .started⟩)
    [.address labelledFrame, .other doneMessage] true

/-- The dump does not fit the buffer; it is asked for again, and the address is told. -/
theorem told_dump : ∃ x,
    (kernel quiet {} 16 ()).run (start 16 () true) [dump, dump] = some x ∧
      x.monitor.requests = 2 ∧ x.since.length = 1 ∧
      x.monitor.calls = x.before ++ x.since.flatMap (rule {} multicasting) := by
  have hfirst : (step quiet {} (start 16 () true) dump).map
      (fun x => x.monitor.bufferSize) = some 64 := by decide +kernel
  have hkeeps : ∀ x : Watched Unit, x.monitor.bufferSize = 32 ∨ x.monitor.bufferSize = 64 →
      x.Keeps multicasting 64 dump := by
    intro x hsize
    refine ⟨fun _ _ _ => ⟨rfl, rfl⟩, by decide +kernel, by decide, ?_⟩
    rcases hsize with hsize | hsize
    · rw [hsize]
      exact .inr (by decide +kernel)
    · rw [hsize]
      exact .inl (by decide +kernel)
  have hok : (kernel quiet {} 16 ()).Along (Keeps multicasting 64) (start 16 () true)
      [dump, dump] := by
    refine ⟨hkeeps _ (.inl rfl), fun y hy => ⟨hkeeps y (.inr ?_), fun _ _ => trivial⟩⟩
    have hy' : step quiet {} (start 16 () true) dump = some y := hy
    rw [hy'] at hfirst
    exact Option.some.inj hfirst
  have hrun : ((kernel quiet {} 16 ()).run (start 16 () true) [dump, dump]).map
      (fun x => (x.monitor.requests, x.since.length, x.monitor.raised)) =
        some (2, 1, false) := by decide +kernel
  obtain ⟨x, hx, hsame⟩ := Option.map_eq_some_iff.1 hrun
  simp only [Prod.mk.injEq] at hsame
  obtain ⟨-, htold, -⟩ := told quiet {} multicasting 16 64 (by decide) () true [dump, dump] x
    hok hx
  exact ⟨x, hx, hsame.1, hsame.2.1, htold hsame.2.2⟩

end Watched

end Netlink

end Wsddn

import Wsddn.Wsd.Lifecycle

/-!
# What a WSD server announces

Each message that a server makes is sent by a chain of its own, and the chains of the Hello, of
the answers and of the Bye run side by side.

* `step_udp` : everything that a step does to the chains.
* `Announces` : the chains of a server: one Hello, the answers, and the Byes.
* `announced_after_bye` : a Hello can follow a Bye, and so can an answer.
* `announcements` : **what can still be sent after a Bye**: further transmissions of the one Hello
  and answers to requests that are read while the server runs; and the server is stopped when the
  Bye has been sent.
-/

namespace Wsddn

namespace WsdServer

variable {Ctx : Type*} {E : WsdEnv Ctx} {s t : WsdServer Ctx} {l : Event}

/-! ### What a step does to the chains -/

theorem tearDown_udp (s : WsdServer Ctx) :
    s.tearDown.udp.chains = s.udp.chains ∧ s.tearDown.udp.sent = s.udp.sent := by
  have hudp : s.udpStop.udp.chains = s.udp.chains ∧ s.udpStop.udp.sent = s.udp.sent := by
    unfold udpStop withUdp
    split_ifs <;> exact ⟨rfl, rfl⟩
  have hhttp : s.tearDown.udp = s.udpStop.udp := by
    show s.udpStop.httpStop.udp = s.udpStop.udp
    unfold httpStop withHttp
    split_ifs <;> rfl
  rw [hhttp]
  exact hudp

theorem finish_udp (s : WsdServer Ctx) (o : Outcome) :
    (finish E s o).udp.chains = s.udp.chains ∧ (finish E s o).udp.sent = s.udp.sent := by
  have hstop : (stop E s false).udp.chains = s.udp.chains ∧
      (stop E s false).udp.sent = s.udp.sent := by
    unfold stop
    split
    · exact ⟨rfl, rfl⟩
    · exact tearDown_udp s
    · exact ⟨rfl, rfl⟩
  cases o with
  | returned => exact ⟨rfl, rfl⟩
  | fatal => exact hstop
  | continuation => exact hstop
  | raised => exact ⟨rfl, rfl⟩

/-- The chains and the datagrams are those of `u`. -/
def SameChains (s : WsdServer Ctx) (u : UdpServer Message) : Prop :=
  s.udp.chains = u.chains ∧ s.udp.sent = u.sent

/-- Everything that a step can do to the chains. -/
inductive ChainStep (E : WsdEnv Ctx) (s : WsdServer Ctx) (t : WsdServer Ctx) : Event → Prop
  | none {l : Event} (h : SameChains t s.udp) : ChainStep E s t l
  | bye (hr : s.state = .running) (h : SameChains t (s.udp.broadcast (byeMessage E s) true)) :
      ChainStep E s t (.stop true)
  | read {sock : UdpSocket} {ec : ErrorCode} {received : List Received} {u : UdpServer Message}
      {w : Responder} {o : Outcome} (hr : s.udp.readHandler (handleUdpRequest E) s.responder sock ec
        received = some (u, w, o)) (h : SameChains t u) : ChainStep E s t (.udpRead sock ec received)
  | sent {i : ℕ} {ec : ErrorCode} {u : UdpServer Message} {o : Outcome}
      (hr : s.udp.sendHandler i ec = some (u, o)) (h : SameChains t u)
      (ht : t = finish E { s with udp := u } o) : ChainStep E s t (.udpSent i ec)
  | timer {i : ℕ} {ec : ErrorCode} {u : UdpServer Message}
      (hr : s.udp.timerHandler i ec = some u) (h : SameChains t u) : ChainStep E s t (.udpTimer i ec)

theorem step_udp (hs : s.Inv) (hst : step E s l = some t) : ChainStep E s t l := by
  unfold step at hst
  split at hst
  · simp at hst
  · cases l with
    | stop graceful =>
      obtain rfl := Option.some.inj hst
      cases graceful with
      | false => exact .none (finish_udp s .fatal)
      | true =>
        unfold stop
        split
        · exact .none ⟨rfl, rfl⟩
        · rename_i hr
          refine .bye hr ?_
          rw [if_pos rfl, sendBye_eq (hs.pointers hr).1]
          exact ⟨rfl, rfl⟩
        · exact .none ⟨rfl, rfl⟩
    | udpRead sock ec received =>
      obtain ⟨⟨u, w, o⟩, hr, rfl⟩ := Option.map_eq_some_iff.1 hst
      exact .read hr (finish_udp _ o)
    | udpSent i ec =>
      obtain ⟨⟨u, o⟩, hr, rfl⟩ := Option.map_eq_some_iff.1 hst
      exact .sent hr (finish_udp _ o) rfl
    | udpTimer i ec =>
      obtain ⟨u, hr, rfl⟩ := Option.map_eq_some_iff.1 hst
      exact .timer hr ⟨rfl, rfl⟩
    | httpAccept ec a listenOk =>
      obtain ⟨⟨http, o⟩, -, rfl⟩ := Option.map_eq_some_iff.1 hst
      exact .none (finish_udp _ o)
    | httpTimer ec =>
      obtain ⟨http, -, rfl⟩ := Option.map_eq_some_iff.1 hst
      exact .none ⟨rfl, rfl⟩
    | httpGC k now =>
      obtain ⟨⟨http, o⟩, -, rfl⟩ := Option.map_eq_some_iff.1 hst
      exact .none (finish_udp _ o)
    | httpRead id ec bytes =>
      obtain ⟨⟨http, w⟩, -, rfl⟩ := Option.map_eq_some_iff.1 hst
      exact .none ⟨rfl, rfl⟩
    | httpWrite id ec =>
      obtain ⟨http, -, rfl⟩ := Option.map_eq_some_iff.1 hst
      exact .none ⟨rfl, rfl⟩

/-! ### The chains of a server -/

/-- The answer to a UDP request announces the host. -/
theorem isMatch_of_handleUdpRequest {w w' : Responder} {bytes : List UInt8} {m : Message}
    (h : handleUdpRequest E w bytes = (some m, w')) : m.body.isMatch = true := by
  unfold handleUdpRequest at h
  split at h
  · simp at h
  · rename_i doc _
    obtain ⟨hnone, -⟩ | ⟨m', hm', hmatch, -⟩ := Responder.handleRequest_udp E.host doc w
    · rw [h] at hnone
      cases hnone
    · rw [h] at hm'
      obtain rfl := Option.some.inj hm'
      exact hmatch

/-- The chain number `i` is what a server sends: the first is its Hello, `hello`; the others are
answers and Byes, and a Bye has a continuation. -/
def Kind (hello : Message) (i : ℕ) (c : Callback Message) : Prop :=
  (i = 0 ∧ c.buffer = hello ∧ c.socket = .multicastSend ∧ c.continuation = false) ∨
  (i ≠ 0 ∧ c.buffer.body.isBye = true ∧ c.socket = .multicastSend ∧ c.continuation = true) ∨
  (i ≠ 0 ∧ c.buffer.body.isMatch = true ∧ c.socket = .unicastSend ∧ c.continuation = false)

/-- The chains of a server that has made the Hello `hello`. -/
structure Announces (hello : Message) (u : UdpServer Message) : Prop where
  wellSent : u.WellSent
  nonempty : u.chains ≠ []
  kind : ∀ (i : ℕ) (c : Callback Message), u.chains[i]? = some c → Kind hello i c

namespace Announces

variable {hello : Message} {u u' : UdpServer Message} {i : ℕ} {c : Callback Message}

theorem congr (hu : Announces hello u) (hc : u'.chains = u.chains) (hs : u'.sent = u.sent) :
    Announces hello u' := by
  refine ⟨hu.wellSent.congr hc hs, ?_, ?_⟩
  · rw [hc]
    exact hu.nonempty
  · rw [hc]
    exact hu.kind

theorem write (hu : Announces hello u) {data : Message} {sock : UdpSocket} {dest : Endpoint}
    {isUnicast continuation : Bool}
    (hk : ∀ i, i ≠ 0 → Kind hello i ⟨data, sock, dest, isUnicast, sock.repeatCount, continuation,
      .sending⟩) : Announces hello (u.write data sock dest isUnicast continuation) := by
  refine ⟨hu.wellSent.write _ _ _ _ _, by simp [UdpServer.write], fun i c hc => ?_⟩
  obtain hc | ⟨rfl, rfl⟩ := UdpServer.write_getElem?_eq_some.1 hc
  · exact hu.kind i c hc
  · exact hk _ (by simpa using hu.nonempty)

/-- A chain goes on: what it sends is still of its kind. -/
theorem kind_setChain (hu : Announces hello u) {c' c₀ : Callback Message} {j : ℕ}
    (hj : (u.setChain i c').chains[j]? = some c₀) (hc : u.chains[i]? = some c)
    (hbuf : c'.buffer = c.buffer) (hsock : c'.socket = c.socket)
    (hk : c'.continuation = c.continuation) : Kind hello j c₀ := by
  obtain ⟨rfl, rfl⟩ | ⟨-, hj⟩ := UdpServer.setChain_getElem?_eq_some hj
  · unfold Kind
    rw [hbuf, hsock, hk]
    exact hu.kind i c hc
  · exact hu.kind j c₀ hj

theorem sendHandler (hu : Announces hello u) {ec : ErrorCode} {o : Outcome}
    (hr : u.sendHandler i ec = some (u', o)) : Announces hello u' := by
  have hwell := hu.wellSent.sendHandler hr
  obtain ⟨c, hc, -, ⟨n, rfl, -⟩ | ⟨rfl, -⟩⟩ := UdpServer.sendHandler_cases hr
  · refine ⟨hwell, by simpa [UdpServer.setChain] using hu.nonempty, fun j c₀ hj => ?_⟩
    exact hu.kind_setChain hj hc rfl rfl rfl
  · refine ⟨hwell, by simpa [UdpServer.setChain] using hu.nonempty, fun j c₀ hj => ?_⟩
    exact hu.kind_setChain hj hc rfl rfl rfl

theorem timerHandler (hu : Announces hello u) {ec : ErrorCode}
    (hr : u.timerHandler i ec = some u') : Announces hello u' := by
  have hwell := hu.wellSent.timerHandler hr
  obtain ⟨c, hc, -, ⟨-, rfl⟩ | ⟨-, rfl⟩⟩ := UdpServer.timerHandler_cases hr
  · refine ⟨hwell, by simpa [UdpServer.setChain] using hu.nonempty, fun j c₀ hj => ?_⟩
    exact hu.kind_setChain hj hc rfl rfl rfl
  · refine ⟨hwell, by simpa [UdpServer.setChain] using hu.nonempty, fun j c₀ hj => ?_⟩
    exact hu.kind_setChain hj hc rfl rfl rfl

/-- The answers that are sent while a socket is read are of their kind. -/
theorem readHandler (hu : Announces hello u) {w w' : Responder} {sock : UdpSocket} {ec : ErrorCode}
    {received : List Received} {o : Outcome}
    (hr : u.readHandler (handleUdpRequest E) w sock ec received = some (u', w', o)) :
    Announces hello u' := by
  obtain ⟨rfl, -⟩ | ⟨-, hloop⟩ := UdpServer.readHandler_cases hr
  · exact hu.congr rfl rfl
  · refine (UdpServer.readLoop_invariant (P := fun u'' _ => Announces hello u'')
      (fun _ _ _ _ hP _ => hP) ?_ (fun _ _ hP => hP.congr rfl rfl) hloop (hu.congr rfl rfl)).1
    intro u'' w'' bytes m w₁ sender hP hm
    refine hP.write fun i hi => .inr (.inr ⟨hi, ?_, rfl, rfl⟩)
    exact isMatch_of_handleUdpRequest hm

/-- A datagram with a Hello is one of the first chain. -/
theorem chain_of_isHello (hu : Announces hello u) {d : Sent Message} (hd : d ∈ u.sent)
    (hh : d.buffer.body.isHello = true) : d.chain = 0 ∧ d.buffer = hello := by
  obtain ⟨c, hc, hbuf, -⟩ := hu.wellSent.origin d hd
  rw [hbuf] at hh
  obtain ⟨h0, hb, -⟩ | ⟨-, hb, -⟩ | ⟨-, hb, -⟩ := hu.kind _ c hc
  · exact ⟨h0, hbuf.trans hb⟩
  · simp [Body.isHello_of_isBye hb] at hh
  · simp [Body.isHello_of_isMatch hb] at hh

theorem countP_isHello (hu : Announces hello u) :
    u.sent.countP (fun d => d.buffer.body.isHello) ≤ 4 := by
  have hlt : 0 < u.chains.length := List.length_pos_iff.2 hu.nonempty
  have hc : u.chains[0]? = some u.chains[0] := List.getElem?_eq_getElem hlt
  have hbudget := hu.wellSent.budget 0 _ hc
  have hsock : (u.chains[0]).socket = .multicastSend := by
    obtain ⟨-, -, h, -⟩ | ⟨h, -⟩ | ⟨h, -⟩ := hu.kind 0 _ hc
    · exact h
    · exact absurd rfl h
    · exact absurd rfl h
  rw [hsock, UdpSocket.repeatCount] at hbudget
  have hmono : u.sent.countP (fun d => d.buffer.body.isHello) ≤
      u.sent.countP (fun d => d.chain = 0) :=
    List.countP_mono_left fun d hd hh => decide_eq_true (hu.chain_of_isHello hd hh).1
  omega

/-- An answer is sent at most twice, by a chain that sends nothing else. -/
theorem countP_of_isMatch (hu : Announces hello u) (hhello : hello.body.isHello = true)
    {d : Sent Message} (hd : d ∈ u.sent) (hm : d.buffer.body.isMatch = true) :
    u.sent.countP (fun d' => d'.chain = d.chain) ≤ 2 ∧
      ∃ c, u.chains[d.chain]? = some c ∧ c.buffer.body.isMatch = true ∧ d.chain ≠ 0 := by
  obtain ⟨c, hc, hbuf, -⟩ := hu.wellSent.origin d hd
  rw [hbuf] at hm
  obtain ⟨-, hb, -⟩ | ⟨-, hb, -⟩ | ⟨h0, -, hsock, -⟩ := hu.kind _ c hc
  · rw [hb] at hm
    simp [Body.isHello_of_isMatch hm] at hhello
  · simp [Body.isMatch_of_isBye hb] at hm
  · have hbudget := hu.wellSent.budget _ c hc
    rw [hsock, UdpSocket.repeatCount] at hbudget
    · exact ⟨by omega, c, hc, hm, h0⟩
    · simp

end Announces

/-! ### Steps and runs -/

variable {hello : Message} {s₀ : WsdServer Ctx} {ls ls' : List Event}

theorem Announces.step (hs : s.Inv) (ha : Announces hello s.udp) (hst : step E s l = some t) :
    Announces hello t.udp := by
  cases step_udp hs hst with
  | none h => exact ha.congr h.1 h.2
  | bye hr h =>
    refine (ha.write fun i hi => ?_).congr h.1 h.2
    exact .inr (.inl ⟨hi, rfl, rfl, rfl⟩)
  | read hr h => exact (ha.readHandler hr).congr h.1 h.2
  | sent hr h => exact (ha.sendHandler hr).congr h.1 h.2
  | timer hr h => exact (ha.timerHandler hr).congr h.1 h.2

/-- No datagram is taken back. -/
theorem step_extends (hs : s.Inv) (hst : WsdServer.step E s l = some t) :
    UdpServer.Extends s.udp t.udp := by
  cases step_udp hs hst with
  | none h => exact .of_eq h.1 h.2
  | bye hr h => exact (UdpServer.extends_write ..).trans (.of_eq h.1 h.2)
  | read hr h => exact (UdpServer.readHandler_extends hr).trans (.of_eq h.1 h.2)
  | sent hr h => exact (UdpServer.sendHandler_extends hr).1.trans (.of_eq h.1 h.2)
  | timer hr h => exact (UdpServer.timerHandler_extends hr).1.trans (.of_eq h.1 h.2)

/-- A new answer is given while a socket is read, by a server that runs. -/
theorem step_new_answer (hs : s.Inv) (hst : WsdServer.step E s l = some t) {i : ℕ}
    {c : Callback Message} (hi : s.udp.chains.length ≤ i) (hc : t.udp.chains[i]? = some c)
    (hm : c.buffer.body.isMatch = true) :
    s.state = .running ∧ ∃ sock ec received, l = .udpRead sock ec received := by
  have hlt : i < t.udp.chains.length := (List.getElem?_eq_some_iff.1 hc).1
  cases step_udp hs hst with
  | none h =>
    rw [h.1] at hlt
    omega
  | bye hr h =>
    rw [h.1] at hc
    obtain hc | ⟨-, rfl⟩ := UdpServer.write_getElem?_eq_some.1 hc
    · have := (List.getElem?_eq_some_iff.1 hc).1
      omega
    · cases hm
  | @read sock ec received u w o hr h =>
    refine ⟨?_, sock, ec, received, rfl⟩
    -- the loop runs only if the handler is set
    obtain ⟨rfl, -⟩ | ⟨hset, -⟩ := UdpServer.readHandler_cases hr
    · rw [h.1] at hlt
      exact absurd hlt (Nat.not_lt.2 hi)
    · obtain hrun | hstop := hs.started
      · exact hrun
      · rw [(hs.deaf hstop).1.handler] at hset
        cases hset
  | sent hr h =>
    have := (UdpServer.sendHandler_extends hr).2
    rw [h.1] at hlt
    omega
  | timer hr h =>
    have := (UdpServer.timerHandler_extends hr).2
    rw [h.1] at hlt
    omega

/-- The chain `i` answers a request that the server read while it was running. -/
def AnsweredAt (E : WsdEnv Ctx) (s₀ : WsdServer Ctx) (ls : List Event) (i : ℕ) : Prop :=
  ∃ before sock ec received after s t, ls = before ++ .udpRead sock ec received :: after ∧
    (machine E).run s₀ before = some s ∧ s.state = .running ∧
    step E s (.udpRead sock ec received) = some t ∧
    s.udp.chains.length ≤ i ∧ i < t.udp.chains.length

/-- What holds all along a run from a server that has just been started. -/
structure Started (E : WsdEnv Ctx) (s₀ s : WsdServer Ctx) : Prop where
  inv : s.Inv
  announces : Announces (helloMessage E (create s₀.udp.isV4 s₀.udp.multicastDest)) s.udp

theorem Started.init (h₀ : (machine E).init s₀) : Started E s₀ s₀ := by
  have hinv := Inv.init h₀
  obtain ⟨isV4, dest, h⟩ := h₀
  rw [start_create] at h
  obtain ⟨rfl, -⟩ := Prod.mk.inj h
  refine ⟨hinv, ⟨?_, ?_, ?_⟩, ?_, fun i c hc => ?_⟩
  · simp [UdpServer.broadcast, UdpServer.write, UdpServer.start, UdpServer.read]
  · intro i c hc
    obtain hc | ⟨rfl, rfl⟩ := UdpServer.write_getElem?_eq_some.1 hc
    · simp [UdpServer.start, UdpServer.read] at hc
    · rfl
  · intro i c hc _
    obtain hc | ⟨rfl, rfl⟩ := UdpServer.write_getElem?_eq_some.1 hc
    · simp [UdpServer.start, UdpServer.read] at hc
    · simp [UdpSocket.repeatCount]
  · simp [UdpServer.broadcast, UdpServer.write]
  · obtain hc | ⟨rfl, rfl⟩ := UdpServer.write_getElem?_eq_some.1 hc
    · simp [UdpServer.start, UdpServer.read] at hc
    · exact .inl ⟨rfl, rfl, rfl, rfl⟩

theorem Started.step (h : Started E s₀ s) (hst : WsdServer.step E s l = some t) :
    Started E s₀ t :=
  ⟨h.inv.step hst, h.announces.step h.inv hst⟩

theorem Started.run (h : Started E s₀ s) (hr : (machine E).run s ls = some t) :
    Started E s₀ t :=
  Machine.run_invariant (I := Started E s₀) (fun _ _ _ h hst => h.step hst) h hr

theorem Started.extends (h : Started E s₀ s) (hr : (machine E).run s ls = some t) :
    UdpServer.Extends s.udp t.udp := by
  have := Machine.run_invariant (M := machine E)
    (I := fun t => Started E s₀ t ∧ UdpServer.Extends s.udp t.udp) ?_ ⟨h, .of_eq rfl rfl⟩ hr
  · exact this.2
  · intro t l t' ht hst
    exact ⟨ht.1.step hst, ht.2.trans (step_extends ht.1.inv hst)⟩

/-- Every answer was given to a request that was read while the server was running. -/
theorem answeredAt_of_run (h₀ : (machine E).init s₀) (hr : (machine E).run s₀ ls = some t) {i : ℕ}
    {c : Callback Message} (hi : i ≠ 0) (hc : t.udp.chains[i]? = some c)
    (hm : c.buffer.body.isMatch = true) : AnsweredAt E s₀ ls i := by
  -- the last step either gave the answer, or the run before it did
  induction ls using List.reverseRecOn generalizing t c with
  | nil =>
    rw [Machine.run_nil, Option.some.injEq] at hr
    subst hr
    have hlt := (List.getElem?_eq_some_iff.1 hc).1
    obtain ⟨isV4, dest, h⟩ := h₀
    rw [start_create] at h
    obtain ⟨rfl, -⟩ := Prod.mk.inj h
    simp [UdpServer.broadcast, UdpServer.write, UdpServer.start, UdpServer.read] at hlt
    exact absurd hlt hi
  | append_singleton ls l ih =>
    obtain ⟨s, hrs, hst⟩ := Machine.run_concat_eq_some.1 hr
    have hs := (Started.init h₀).run hrs
    by_cases hold : i < s.udp.chains.length
    · have hget : s.udp.chains[i]? = some s.udp.chains[i] := List.getElem?_eq_getElem hold
      obtain ⟨c', hc', hbuf⟩ := (step_extends hs.inv hst).chains i _ hget
      obtain rfl : c' = c := Option.some.inj (hc'.symm.trans hc)
      rw [hbuf] at hm
      obtain ⟨before, sock, ec, received, after, s₁, t₁, rfl, h⟩ := ih hrs hget hm
      exact ⟨before, sock, ec, received, after ++ [l], s₁, t₁, by simp, h⟩
    · have hge : s.udp.chains.length ≤ i := Nat.not_lt.1 hold
      obtain ⟨hrun, sock, ec, received, rfl⟩ := step_new_answer hs.inv hst hge hc hm
      exact ⟨ls, sock, ec, received, [], s, t, rfl, hrs, hrun, hst, hge,
        (List.getElem?_eq_some_iff.1 hc).1⟩

/-! ### The end of a Bye -/

/-- What asio promises about the chains: a transmission is aborted only if its socket was closed,
and a timer that nobody cancels ends without an error. -/
def ByAsio (s : WsdServer Ctx) : Event → Prop
  | .udpSent i ec => ec = .operationAborted →
      ∀ c, s.udp.chains[i]? = some c → s.udp.isOpen c.socket = false
  | .udpTimer _ ec => ec = .success
  | _ => True

/-- No Bye of a running server has come to its end. -/
def ByePending (s : WsdServer Ctx) : Prop :=
  s.state = .running → ∀ (i : ℕ) (c : Callback Message), s.udp.chains[i]? = some c →
    c.continuation = true → c.phase ≠ .over

theorem running_of_step (hs : s.Inv) (hst : WsdServer.step E s l = some t)
    (ht : t.state = .running) : s.state = .running := by
  obtain hrun | hstop := hs.started
  · exact hrun
  · rw [(step_stopped hs hstop hst).2.1] at ht
    cases ht

/-- A Bye that comes to its end stops the server. -/
theorem ByePending.step (hs : s.Inv) (hp : ByePending s) (hok : ByAsio s l)
    (hst : WsdServer.step E s l = some t) : ByePending t := by
  intro ht
  have hrun := running_of_step hs hst ht
  obtain ⟨hset, hopen⟩ := hs.live hrun
  have hpend := hp hrun
  cases step_udp hs hst with
  | none h =>
    rw [h.1]
    exact hpend
  | bye hr h =>
    rw [h.1]
    intro i c hc hk
    obtain hc | ⟨-, rfl⟩ := UdpServer.write_getElem?_eq_some.1 hc
    · exact hpend i c hc hk
    · simp
  | read hr h =>
    rw [h.1]
    obtain ⟨rfl, -⟩ | ⟨-, hloop⟩ := UdpServer.readHandler_cases hr
    · exact hpend
    · refine (UdpServer.readLoop_invariant (P := fun u _ => ∀ (i : ℕ) (c : Callback Message),
        u.chains[i]? = some c → c.continuation = true → c.phase ≠ .over) (fun _ _ _ _ hP _ => hP)
        ?_ (fun _ _ hP => hP) hloop hpend).1
      intro u w bytes m w' sender hP _ i c hc hk
      obtain hc | ⟨-, rfl⟩ := UdpServer.write_getElem?_eq_some.1 hc
      · exact hP i c hc hk
      · simp
  | @sent i ec u o hr h hfin =>
    rw [h.1]
    intro j c₀ hj hk
    obtain ⟨c, hc, -, ⟨n, rfl, hlast⟩ | ⟨rfl, -⟩⟩ := UdpServer.sendHandler_cases hr
    · obtain ⟨-, rfl⟩ | ⟨-, hj⟩ := UdpServer.setChain_getElem?_eq_some hj
      · -- the chain that ends here has a continuation, so it ends by calling it
        have hk : c.continuation = true := hk
        cases hlast with
        | stopped hnot => simp [hset] at hnot
        | aborted hec =>
          have hclosed : s.udp.isOpen c.socket = false := hok hec c hc
          simp [hopen] at hclosed
        | sent _ _ _ hk' => simp [hk] at hk'
        | fatal _ _ hk' => simp [hk] at hk'
        | continuation =>
          have hstop : t.state = .stopped := by
            rw [hfin, finish, WsdServer.stop, hrun]
            rfl
          rw [hstop] at ht
          cases ht
      · exact hpend j c₀ hj hk
    · obtain ⟨-, rfl⟩ | ⟨-, hj⟩ := UdpServer.setChain_getElem?_eq_some hj
      · simp
      · exact hpend j c₀ hj hk
  | @timer i ec u hr h =>
    rw [h.1]
    intro j c₀ hj hk
    obtain ⟨c, hc, -, ⟨hend, rfl⟩ | ⟨-, rfl⟩⟩ := UdpServer.timerHandler_cases hr
    · obtain hec | hclosed := hend
      · exact absurd hok hec
      · simp [hopen] at hclosed
    · obtain ⟨-, rfl⟩ | ⟨-, hj⟩ := UdpServer.setChain_getElem?_eq_some hj
      · simp
      · exact hpend j c₀ hj hk

theorem Started.byePending (h₀ : (machine E).init s₀)
    (hok : (machine E).Along ByAsio s₀ ls) (hr : (machine E).run s₀ ls = some s) :
    ByePending s := by
  have hinit : Started E s₀ s₀ ∧ ByePending s₀ := by
    refine ⟨.init h₀, fun _ i c hc hk => ?_⟩
    obtain ⟨-, -, -, hno⟩ | ⟨hi, -⟩ | ⟨hi, -⟩ := (Started.init h₀).announces.kind i c hc
    · simp [hk] at hno
    all_goals
      obtain ⟨isV4, dest, h⟩ := h₀
      rw [start_create] at h
      obtain ⟨rfl, -⟩ := Prod.mk.inj h
      have hlt := (List.getElem?_eq_some_iff.1 hc).1
      simp [UdpServer.broadcast, UdpServer.write, UdpServer.start, UdpServer.read] at hlt
      exact absurd hlt hi
  have hall := Machine.always_of_along (I := fun s => Started E s₀ s ∧ ByePending s)
    (fun s l t hs hok hst => ⟨hs.1.step hst, hs.2.step hs.1.inv hok hst⟩) hinit hok
  exact (hall.last hr).2

/-! ### After a Bye -/

/-- No datagram that announces the host comes after one with a Bye. -/
def SilentAfterBye (sent : List (Sent Message)) : Prop :=
  sent.Pairwise fun d d' => d.buffer.body.isBye = true → d'.buffer.body.announces = false

instance (sent : List (Sent Message)) : Decidable (SilentAfterBye sent) :=
  inferInstanceAs (Decidable (List.Pairwise _ sent))

/-- **What is sent once a Bye has been sent.**  The server is stopped as soon as none of its Byes
is on its way, and a stopped server sends nothing.  Until then, a Hello is another transmission of
the one that `start` has made, of which there are four at most, and an answer is one of at most two
transmissions of an answer to a request that was read while the server was running. -/
theorem announcements (h₀ : (machine E).init s₀) (hr : (machine E).run s₀ ls = some s)
    (hok : (machine E).Along ByAsio s₀ ls) (hbye : ∃ d ∈ s.udp.sent, d.buffer.body.isBye = true)
    (hr' : (machine E).run s ls' = some t) :
    ((∀ c ∈ s.udp.chains, c.buffer.body.isBye = true → c.phase = .over) → s.state = .stopped) ∧
    ∃ more, t.udp.sent = s.udp.sent ++ more ∧
      (s.state = .stopped → more = []) ∧
      t.udp.sent.countP (fun d => d.buffer.body.isHello) ≤ 4 ∧
      ∀ d ∈ more,
        (d.buffer.body.isHello = true → d.chain = 0 ∧
          d.buffer = helloMessage E (create s₀.udp.isV4 s₀.udp.multicastDest)) ∧
        (d.buffer.body.isMatch = true → AnsweredAt E s₀ (ls ++ ls') d.chain ∧
          t.udp.sent.countP (fun d' => d'.chain = d.chain) ≤ 2) := by
  have hs : Started E s₀ s := (Started.init h₀).run hr
  have ht : Started E s₀ t := hs.run hr'
  have hrun : (machine E).run s₀ (ls ++ ls') = some t := Machine.run_append_eq_some.2 ⟨s, hr, hr'⟩
  obtain ⟨more, hmore⟩ := (hs.extends hr').sent
  refine ⟨fun hover => ?_, more, hmore.symm, fun hstop => ?_, ht.announces.countP_isHello, ?_⟩
  · -- the chain of the Bye would still be on its way if the server were running
    obtain ⟨d, hd, hdbye⟩ := hbye
    obtain ⟨c, hc, hbuf, -⟩ := hs.announces.wellSent.origin d hd
    rw [hbuf] at hdbye
    have hphase := hover c (List.mem_of_getElem? hc) hdbye
    obtain hlive | hstop := hs.inv.started
    · refine absurd hphase (Started.byePending h₀ hok hr hlive _ c hc ?_)
      obtain ⟨-, hb, -⟩ | ⟨-, -, -, hk⟩ | ⟨-, hb, -⟩ := hs.announces.kind _ c hc
      · rw [hb] at hdbye
        cases hdbye
      · exact hk
      · simp [Body.isMatch_of_isBye hdbye] at hb
    · exact hstop
  · have hq := (run_stopped hs.inv hstop hr').1.sent
    rw [hq] at hmore
    exact List.append_right_eq_self.1 hmore
  · intro d hd
    have hmem : d ∈ t.udp.sent := hmore ▸ List.mem_append_right _ hd
    refine ⟨fun hh => ht.announces.chain_of_isHello hmem hh, fun hm => ?_⟩
    obtain ⟨hcount, c, hc, hcm, hne⟩ := ht.announces.countP_of_isMatch rfl hmem hm
    exact ⟨answeredAt_of_run h₀ hrun hne hc hcm, hcount⟩

/-- A stop right after the start: the second transmission of the Hello comes after the first one
of the Bye. -/
def earlyStop : List Event := [.stop true, .udpSent 0 .success, .udpTimer 0 .success]

/-- The server after that. -/
def afterEarlyStop : WsdServer Unit :=
  ((machine silentEnv).run silentServer earlyStop).get (by decide +kernel)

/-- A host that takes every datagram for a probe. -/
def probedEnv : WsdEnv Unit :=
  { silentEnv with
    readMemory := fun _ => some
      { header := true
        messageId := SysString.ofLiteral "urn:uuid:1"
        action := wsdUri ++ SysString.ofLiteral "/Probe"
        probe := some ⟨false, some (SysString.ofLiteral "wsdp:Device"),
          [(SysString.ofLiteral "wsdp", wsdpUri)]⟩
        resolveAddr := [] } }

/-- A probe that arrives while the Bye is on its way. -/
def lateProbe : List Event :=
  [.stop true, .udpRead .recv .success [.datagram [] (some (.v4 0x7f000002, 3702)) true,
    .wouldBlock]]

/-- The server after that. -/
def afterLateProbe : WsdServer Unit :=
  ((machine probedEnv).run (start probedEnv (create true (.v4 0xeffffffa, 3702)) true).1
    lateProbe).get (by decide +kernel)

/-- Neither the Hello nor the answers stop when the Bye is sent. -/
theorem announced_after_bye :
    ((machine silentEnv).init silentServer ∧
      (machine silentEnv).run silentServer earlyStop = some afterEarlyStop ∧
      ¬ SilentAfterBye afterEarlyStop.udp.sent) ∧
    (machine probedEnv).run (start probedEnv (create true (.v4 0xeffffffa, 3702)) true).1 lateProbe =
        some afterLateProbe ∧
      ¬ SilentAfterBye afterLateProbe.udp.sent :=
  ⟨⟨silentServer_init, (Option.some_get _).symm, by decide +kernel⟩,
    (Option.some_get _).symm, by decide +kernel⟩

/-- After `gracefulStop` the server is stopped and silent. -/
theorem announcements_afterGracefulStop : afterGracefulStop.state = .stopped ∧
    ∀ ls t, (machine silentEnv).run afterGracefulStop ls = some t →
      t.udp.sent = afterGracefulStop.udp.sent := by
  have hok : (machine silentEnv).Along ByAsio silentServer gracefulStop :=
    Machine.along_of_forall (by simp [gracefulStop, ByAsio]) _
  have hbye : ∃ d ∈ afterGracefulStop.udp.sent, d.buffer.body.isBye = true := by decide +kernel
  have hover : ∀ c ∈ afterGracefulStop.udp.chains, c.buffer.body.isBye = true →
      c.phase = .over := by decide +kernel
  have hstop := (announcements silentServer_init run_gracefulStop hok hbye (Machine.run_nil _)).1
  refine ⟨hstop hover, fun ls t ht => ?_⟩
  obtain ⟨-, more, hmore, hnil, -⟩ :=
    announcements silentServer_init run_gracefulStop hok hbye ht
  rw [hmore, hnil (hstop hover), List.append_nil]

end WsdServer

end Wsddn

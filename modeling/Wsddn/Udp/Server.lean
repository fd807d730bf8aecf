import Wsddn.Asio.Basic

/-!
# The UDP server (`UdpServerImpl` of `udp_server.cpp`)

The two sockets that are read, and the chains of retransmissions: every datagram is sent four
times to the multicast group or twice to one host, with a random delay in between, and each chain
is carried by its own copy of a `Callback`.  The messages and the handler of the requests are
parameters.

* `readLoop_invariant` : the invariant rule for the loop that reads a socket.
* `sendHandler_cases`, `timerHandler_cases` : everything that the handlers of a chain can do.
* `Deaf` : a server without a handler and with closed sockets; its handlers do nothing.
* `WellSent` : no chain sends more often than it may; preserved by every operation.
-/

namespace Wsddn

/-- The sockets of the server. -/
inductive UdpSocket where
  | recv
  | multicastSend
  | unicastSend
  deriving DecidableEq, Repr

/-- How often a datagram is sent. -/
def UdpSocket.repeatCount : UdpSocket → ℕ
  | .multicastSend => 4
  | _ => 2

/-- What a chain waits for. -/
inductive Phase where
  | sending
  | delayed
  | over
  deriving DecidableEq, Repr

/-- A chain of transmissions (`UdpServerImpl::write`, `Callback`). -/
structure Callback (Msg : Type*) where
  buffer : Msg
  socket : UdpSocket
  dest : Endpoint
  isUnicast : Bool
  repeatCount : ℕ
  /-- A continuation was given. -/
  continuation : Bool
  phase : Phase
  deriving DecidableEq, Repr

/-- How often the chain can still send. -/
def Callback.left {Msg : Type*} (c : Callback Msg) : ℕ :=
  match c.phase with
  | .sending => c.repeatCount - 1
  | .delayed => c.repeatCount
  | .over => 0

/-- A datagram handed to a socket, with the number of the chain it belongs to. -/
structure Sent (Msg : Type*) where
  chain : ℕ
  socket : UdpSocket
  buffer : Msg
  dest : Endpoint
  deriving DecidableEq, Repr

/-- The fields of a `UdpServerImpl`, with all that it has sent. -/
structure UdpServer (Msg : Type*) where
  isV4 : Bool
  multicastDest : Endpoint
  /-- `m_handler` is set. -/
  handler : Bool := false
  isOpen : UdpSocket → Bool := fun _ => true
  /-- The sockets with a pending wait. -/
  reads : List UdpSocket := []
  /-- All chains so far. -/
  chains : List (Callback Msg) := []
  /-- All datagrams handed to a socket so far. -/
  sent : List (Sent Msg) := []

/-- What `receiveSocket` gives. -/
inductive Received where
  | interrupted
  | wouldBlock
  | failed
  /-- A datagram; the sender is `none` if its address has another family, and `onInterface` is the
  answer of `checkInterfaceIndexV4`. -/
  | datagram (bytes : List UInt8) (sender : Option Endpoint) (onInterface : Bool)
  deriving DecidableEq, Repr

namespace UdpServer

variable {Msg σ : Type*}

/-- Wait until the socket can be read. -/
def read (u : UdpServer Msg) (sock : UdpSocket) : UdpServer Msg :=
  { u with reads := sock :: u.reads }

/-- The handler is set, and both sockets are waited for. -/
def start (u : UdpServer Msg) : UdpServer Msg :=
  ({ u with handler := true }.read .recv).read .unicastSend

/-- All sockets are closed and the handler is gone. -/
def stop (u : UdpServer Msg) : UdpServer Msg :=
  { u with handler := false, isOpen := fun _ => false }

/-- The first transmission of a datagram. -/
def write (u : UdpServer Msg) (data : Msg) (sock : UdpSocket) (dest : Endpoint) (isUnicast : Bool)
    (continuation : Bool) : UdpServer Msg :=
  { u with
    chains := u.chains ++ [⟨data, sock, dest, isUnicast, sock.repeatCount, continuation, .sending⟩]
    sent := u.sent ++ [⟨u.chains.length, sock, data, dest⟩] }

/-- A message to the multicast group. -/
def broadcast (u : UdpServer Msg) (data : Msg) (continuation : Bool) : UdpServer Msg :=
  u.write data .multicastSend u.multicastDest false continuation

/-- The loop that reads a socket until nothing is left; `received` are the results of
`receiveSocket`, one after the other. -/
def readLoop (handleUdpRequest : σ → List UInt8 → Option Msg × σ) (sock : UdpSocket) :
    UdpServer Msg → σ → List Received → Option (UdpServer Msg × σ × Outcome)
  | _, _, [] => none
  | u, h, .interrupted :: rs => readLoop handleUdpRequest sock u h rs
  | u, h, .wouldBlock :: _ => some (u.read sock, h, .returned)
  | u, h, .failed :: _ => some (u, h, .fatal)
  | u, h, .datagram _ none _ :: rs => readLoop handleUdpRequest sock u h rs
  | u, h, .datagram bytes (some sender) onInterface :: rs =>
    if u.isV4 && !onInterface then readLoop handleUdpRequest sock u h rs
    else
      match handleUdpRequest h bytes with
      | (none, h) => readLoop handleUdpRequest sock u h rs
      | (some reply, h) =>
        readLoop handleUdpRequest sock (u.write reply .unicastSend sender true false) h rs

/-- The handler of a wait. -/
def readHandler (handleUdpRequest : σ → List UInt8 → Option Msg × σ) (u : UdpServer Msg) (h : σ)
    (sock : UdpSocket) (ec : ErrorCode) (received : List Received) :
    Option (UdpServer Msg × σ × Outcome) :=
  if sock ∉ u.reads then none
  else
    let u := { u with reads := u.reads.erase sock }
    if !u.handler then some (u, h, .returned)
    else
      match ec with
      | .other => some (u, h, .fatal)
      | .operationAborted => some (u, h, .returned)
      | .success => readLoop handleUdpRequest sock u h received

/-- The chain `i` goes on as `c`. -/
def setChain (u : UdpServer Msg) (i : ℕ) (c : Callback Msg) : UdpServer Msg :=
  { u with chains := u.chains.set i c }

/-- The handler of a transmission of the chain `i`. -/
def sendHandler (u : UdpServer Msg) (i : ℕ) (ec : ErrorCode) :
    Option (UdpServer Msg × Outcome) :=
  match u.chains[i]? with
  | none => none
  | some c =>
    if c.phase ≠ .sending then none
    else if !u.handler then some (u.setChain i { c with phase := .over }, .returned)
    else
      match ec with
      | .operationAborted => some (u.setChain i { c with phase := .over }, .returned)
      | .other =>
        some (u.setChain i { c with phase := .over },
          if c.continuation then .continuation else .fatal)
      | .success =>
        if c.repeatCount - 1 = 0 then
          some (u.setChain i { c with repeatCount := c.repeatCount - 1, phase := .over },
            if c.continuation then .continuation else .returned)
        else
          some (u.setChain i { c with repeatCount := c.repeatCount - 1, phase := .delayed },
            .returned)

/-- The handler of the timer of the chain `i`. -/
def timerHandler (u : UdpServer Msg) (i : ℕ) (ec : ErrorCode) : Option (UdpServer Msg) :=
  match u.chains[i]? with
  | none => none
  | some c =>
    if c.phase ≠ .delayed then none
    else if ec ≠ .success || !u.isOpen c.socket then
      some (u.setChain i { c with phase := .over })
    else
      some { u.setChain i { c with phase := .sending } with
        sent := u.sent ++ [⟨i, c.socket, c.buffer, c.dest⟩] }

/-! ### What the operations do -/

section Cases

variable {u u' : UdpServer Msg} {h h' : σ} {sock : UdpSocket} {ec : ErrorCode} {o : Outcome} {i : ℕ}
  {handleUdpRequest : σ → List UInt8 → Option Msg × σ} {received : List Received}

@[simp] theorem read_handler : (u.read sock).handler = u.handler := rfl

@[simp] theorem read_isOpen : (u.read sock).isOpen = u.isOpen := rfl

@[simp] theorem read_chains : (u.read sock).chains = u.chains := rfl

@[simp] theorem read_sent : (u.read sock).sent = u.sent := rfl

@[simp] theorem setChain_handler (c : Callback Msg) : (u.setChain i c).handler = u.handler := rfl

@[simp] theorem setChain_isOpen (c : Callback Msg) : (u.setChain i c).isOpen = u.isOpen := rfl

@[simp] theorem setChain_sent (c : Callback Msg) : (u.setChain i c).sent = u.sent := rfl

theorem setChain_getElem?_eq_some {c c₀ : Callback Msg} {j : ℕ}
    (h : (u.setChain i c).chains[j]? = some c₀) :
    i = j ∧ c₀ = c ∨ i ≠ j ∧ u.chains[j]? = some c₀ := by
  simp only [setChain, List.getElem?_set] at h
  split_ifs at h with hij
  · exact .inl ⟨hij, (Option.some.inj h).symm⟩
  · exact .inr ⟨hij, h⟩

/-- A call of `write` adds one chain. -/
theorem write_getElem?_eq_some {data : Msg} {dest : Endpoint} {isUnicast continuation : Bool}
    {c : Callback Msg} :
    (u.write data sock dest isUnicast continuation).chains[i]? = some c ↔
      u.chains[i]? = some c ∨ i = u.chains.length ∧
        c = ⟨data, sock, dest, isUnicast, sock.repeatCount, continuation, .sending⟩ := by
  simp only [write, List.getElem?_append, List.getElem?_singleton]
  split_ifs with hlt hi
  · constructor
    · exact .inl
    · rintro (h | ⟨rfl, -⟩)
      · exact h
      · omega
  · obtain rfl : i = u.chains.length := by omega
    simp [eq_comm]
  · have hne : ¬ i = u.chains.length := by omega
    have hge : u.chains.length ≤ i := by omega
    simp [hne, hge]

/-- **The invariant rule for the loop that reads a socket**: what holds before it, and is preserved
by every request and by every answer that is sent, holds after it. -/
theorem readLoop_invariant {P : UdpServer Msg → σ → Prop}
    (hnone : ∀ u h bytes h', P u h → handleUdpRequest h bytes = (none, h') → P u h')
    (hsome : ∀ u h bytes m h' sender, P u h → handleUdpRequest h bytes = (some m, h') →
      P (u.write m .unicastSend sender true false) h')
    (hread : ∀ u h, P u h → P (u.read sock) h) :
    readLoop handleUdpRequest sock u h received = some (u', h', o) → P u h →
      P u' h' ∧ (o = .returned ∨ o = .fatal) := by
  -- the results of `receiveSocket` are consumed one by one
  induction received generalizing u h with
  | nil => simp [readLoop]
  | cons r rs ih =>
    intro hr hP
    match r with
    | .interrupted => exact ih hr hP
    | .wouldBlock =>
      simp only [readLoop, Option.some.injEq, Prod.mk.injEq] at hr
      obtain ⟨rfl, rfl, rfl⟩ := hr
      exact ⟨hread _ _ hP, .inl rfl⟩
    | .failed =>
      simp only [readLoop, Option.some.injEq, Prod.mk.injEq] at hr
      obtain ⟨rfl, rfl, rfl⟩ := hr
      exact ⟨hP, .inr rfl⟩
    | .datagram bytes none onInterface => exact ih hr hP
    | .datagram bytes (some sender) onInterface =>
      rw [readLoop] at hr
      split_ifs at hr with hskip
      · exact ih hr hP
      · split at hr
        · rename_i h₁ hh
          exact ih hr (hnone _ _ _ _ hP hh)
        · rename_i m h₁ hh
          exact ih hr (hsome _ _ _ _ _ _ hP hh)

/-- The handler of a wait runs the loop, or it does nothing but end. -/
theorem readHandler_cases
    (hr : readHandler handleUdpRequest u h sock ec received = some (u', h', o)) :
    (u' = { u with reads := u.reads.erase sock } ∧ h' = h ∧
      (o = .returned ∨ o = .fatal ∧ u.handler = true)) ∨
    (u.handler = true ∧ readLoop handleUdpRequest sock { u with reads := u.reads.erase sock } h
      received = some (u', h', o)) := by
  unfold readHandler at hr
  dsimp only at hr
  split_ifs at hr with hmem hh
  · simp only [Option.some.injEq, Prod.mk.injEq] at hr
    exact .inl ⟨hr.1.symm, hr.2.1.symm, .inl hr.2.2.symm⟩
  · have hset : u.handler = true := by simpa using hh
    cases ec with
    | success => exact .inr ⟨hset, hr⟩
    | operationAborted =>
      simp only [Option.some.injEq, Prod.mk.injEq] at hr
      exact .inl ⟨hr.1.symm, hr.2.1.symm, .inl hr.2.2.symm⟩
    | other =>
      simp only [Option.some.injEq, Prod.mk.injEq] at hr
      exact .inl ⟨hr.1.symm, hr.2.1.symm, .inr ⟨hr.2.2.symm, hset⟩⟩

/-- How the last transmission of a chain `c` ends. -/
inductive LastSend (u : UdpServer Msg) (c : Callback Msg) (ec : ErrorCode) : Outcome → Prop
  | stopped (h : u.handler = false) : LastSend u c ec .returned
  | aborted (h : ec = .operationAborted) : LastSend u c ec .returned
  | sent (hset : u.handler = true) (h : ec = .success) (hlast : c.repeatCount ≤ 1)
      (hk : c.continuation = false) : LastSend u c ec .returned
  | fatal (hset : u.handler = true) (h : ec = .other) (hk : c.continuation = false) :
      LastSend u c ec .fatal
  | continuation (hset : u.handler = true) (hk : c.continuation = true)
      (h : ec = .other ∨ ec = .success ∧ c.repeatCount ≤ 1) : LastSend u c ec .continuation

/-- **Everything that the handler of a transmission can do**: the chain ends, or it waits for its
next transmission. -/
theorem sendHandler_cases (hr : u.sendHandler i ec = some (u', o)) :
    ∃ c, u.chains[i]? = some c ∧ c.phase = .sending ∧
      ((∃ n, u' = u.setChain i { c with repeatCount := n, phase := .over } ∧ LastSend u c ec o) ∨
      (u' = u.setChain i { c with repeatCount := c.repeatCount - 1, phase := .delayed } ∧
        o = .returned ∧ u.handler = true ∧ ec = .success ∧ 1 < c.repeatCount)) := by
  unfold sendHandler at hr
  cases hc : u.chains[i]? with
  | none => simp [hc] at hr
  | some c =>
    simp only [hc] at hr
    by_cases hphase : c.phase = .sending
    · rw [if_neg (not_not.2 hphase)] at hr
      refine ⟨c, rfl, hphase, ?_⟩
      cases hset : u.handler with
      | false =>
        simp only [hset, Bool.not_false, if_true, Option.some.injEq, Prod.mk.injEq] at hr
        exact .inl ⟨c.repeatCount, hr.1.symm, hr.2 ▸ .stopped hset⟩
      | true =>
        simp only [hset, Bool.not_true, Bool.false_eq_true, if_false] at hr
        cases ec with
        | operationAborted =>
          simp only [Option.some.injEq, Prod.mk.injEq] at hr
          exact .inl ⟨c.repeatCount, hr.1.symm, hr.2 ▸ .aborted rfl⟩
        | other =>
          simp only [Option.some.injEq, Prod.mk.injEq] at hr
          refine .inl ⟨c.repeatCount, hr.1.symm, hr.2 ▸ ?_⟩
          cases hk : c.continuation with
          | false => exact .fatal hset rfl hk
          | true => exact .continuation hset hk (.inl rfl)
        | success =>
          by_cases hlast : c.repeatCount - 1 = 0
          · simp only [hlast, if_true, Option.some.injEq, Prod.mk.injEq] at hr
            have hle : c.repeatCount ≤ 1 := by omega
            refine .inl ⟨0, hr.1.symm, hr.2 ▸ ?_⟩
            cases hk : c.continuation with
            | false => exact .sent hset rfl hle hk
            | true => exact .continuation hset hk (.inr ⟨rfl, hle⟩)
          · simp only [hlast, if_false, Option.some.injEq, Prod.mk.injEq] at hr
            exact .inr ⟨hr.1.symm, hr.2.symm, rfl, rfl, by omega⟩
    · simp [hphase] at hr

/-- **Everything that the handler of a timer can do**: the chain ends, or its datagram is handed to
the socket once more, which is open. -/
theorem timerHandler_cases (hr : u.timerHandler i ec = some u') :
    ∃ c, u.chains[i]? = some c ∧ c.phase = .delayed ∧
      (((ec ≠ .success ∨ u.isOpen c.socket = false) ∧ u' = u.setChain i { c with phase := .over }) ∨
      (u.isOpen c.socket = true ∧ u' = { u.setChain i { c with phase := .sending } with
        sent := u.sent ++ [⟨i, c.socket, c.buffer, c.dest⟩] })) := by
  unfold timerHandler at hr
  split at hr
  · simp at hr
  · rename_i c hc
    split_ifs at hr with hphase hend
    · rw [Option.some.injEq] at hr
      exact ⟨c, hc, not_not.1 hphase, .inl ⟨by simpa using hend, hr.symm⟩⟩
    · rw [Option.some.injEq] at hr
      have hopen : u.isOpen c.socket = true := by
        by_contra hclosed
        simp [hclosed] at hend
      exact ⟨c, hc, not_not.1 hphase, .inr ⟨hopen, hr.symm⟩⟩

/-- What everything but `start` and `stop` preserves. -/
structure Keeps (u u' : UdpServer Msg) : Prop where
  handler : u'.handler = u.handler
  isOpen : u'.isOpen = u.isOpen

theorem Keeps.refl (u : UdpServer Msg) : Keeps u u := ⟨rfl, rfl⟩

theorem readHandler_keeps
    (hr : readHandler handleUdpRequest u h sock ec received = some (u', h', o)) : Keeps u u' := by
  obtain ⟨rfl, -⟩ | ⟨-, hloop⟩ := readHandler_cases hr
  · exact ⟨rfl, rfl⟩
  · refine (readLoop_invariant (P := fun u'' _ => Keeps u u'') (fun _ _ _ _ hP _ => hP) ?_ ?_ hloop
      ⟨rfl, rfl⟩).1
    · exact fun _ _ _ _ _ _ hP _ => ⟨hP.handler, hP.isOpen⟩
    · exact fun _ _ hP => ⟨hP.handler, hP.isOpen⟩

theorem sendHandler_keeps (hr : u.sendHandler i ec = some (u', o)) : Keeps u u' := by
  obtain ⟨c, -, -, ⟨n, rfl, -⟩ | ⟨rfl, -⟩⟩ := sendHandler_cases hr
  · exact ⟨rfl, rfl⟩
  · exact ⟨rfl, rfl⟩

theorem timerHandler_keeps (hr : u.timerHandler i ec = some u') : Keeps u u' := by
  obtain ⟨c, -, -, ⟨-, rfl⟩ | ⟨-, rfl⟩⟩ := timerHandler_cases hr
  · exact ⟨rfl, rfl⟩
  · exact ⟨rfl, rfl⟩

/-- Chains are added and go on with their datagrams, and datagrams are sent. -/
structure Extends (u u' : UdpServer Msg) : Prop where
  chains : ∀ (i : ℕ) (c : Callback Msg), u.chains[i]? = some c →
    ∃ c', u'.chains[i]? = some c' ∧ c'.buffer = c.buffer
  sent : u.sent <+: u'.sent

theorem Extends.of_eq (hc : u'.chains = u.chains) (hs : u'.sent = u.sent) : Extends u u' := by
  refine ⟨fun i c h => ⟨c, by rw [hc, h], rfl⟩, [], ?_⟩
  rw [hs, List.append_nil]

theorem Extends.trans {u'' : UdpServer Msg} (h : Extends u u') (h' : Extends u' u'') :
    Extends u u'' := by
  refine ⟨fun i c hc => ?_, h.sent.trans h'.sent⟩
  obtain ⟨c', hc', hb⟩ := h.chains i c hc
  obtain ⟨c'', hc'', hb'⟩ := h'.chains i c' hc'
  exact ⟨c'', hc'', hb'.trans hb⟩

theorem extends_write (u : UdpServer Msg) (data : Msg) (sock : UdpSocket) (dest : Endpoint)
    (isUnicast continuation : Bool) : Extends u (u.write data sock dest isUnicast continuation) :=
  ⟨fun _ c hc => ⟨c, write_getElem?_eq_some.2 (.inl hc), rfl⟩, List.prefix_append _ _⟩

theorem extends_of_set {c c' : Callback Msg} (hc : u.chains[i]? = some c)
    (hset : u'.chains = u.chains.set i c') (hb : c'.buffer = c.buffer) (hs : u.sent <+: u'.sent) :
    Extends u u' := by
  refine ⟨fun j c₀ hj => ?_, hs⟩
  have hlt : i < u.chains.length := (List.getElem?_eq_some_iff.1 hc).1
  rw [hset]
  by_cases hij : i = j
  · subst hij
    rw [hc, Option.some.injEq] at hj
    exact ⟨c', by simp [hlt], hb.trans (hj ▸ rfl)⟩
  · exact ⟨c₀, by rw [List.getElem?_set_ne hij, hj], rfl⟩

theorem readHandler_extends
    (hr : readHandler handleUdpRequest u h sock ec received = some (u', h', o)) : Extends u u' := by
  obtain ⟨rfl, -⟩ | ⟨-, hloop⟩ := readHandler_cases hr
  · exact .of_eq rfl rfl
  · refine (readLoop_invariant (P := fun u'' _ => Extends u u'') (fun _ _ _ _ hP _ => hP) ?_ ?_ hloop
      (.of_eq rfl rfl)).1
    · exact fun _ _ _ _ _ _ hP _ => hP.trans (extends_write ..)
    · exact fun _ _ hP => hP.trans (.of_eq rfl rfl)

theorem sendHandler_extends (hr : u.sendHandler i ec = some (u', o)) :
    Extends u u' ∧ u'.chains.length = u.chains.length := by
  obtain ⟨c, hc, -, ⟨n, rfl, -⟩ | ⟨rfl, -⟩⟩ := sendHandler_cases hr
  · exact ⟨extends_of_set hc rfl rfl List.prefix_rfl, by simp [setChain]⟩
  · exact ⟨extends_of_set hc rfl rfl List.prefix_rfl, by simp [setChain]⟩

theorem timerHandler_extends (hr : u.timerHandler i ec = some u') :
    Extends u u' ∧ u'.chains.length = u.chains.length := by
  obtain ⟨c, hc, -, ⟨-, rfl⟩ | ⟨-, rfl⟩⟩ := timerHandler_cases hr
  · exact ⟨extends_of_set hc rfl rfl List.prefix_rfl, by simp [setChain]⟩
  · exact ⟨extends_of_set hc rfl rfl (List.prefix_append _ _), by simp [setChain]⟩

/-! ### After `stop` -/

/-- No handler, and no open socket. -/
structure Deaf (u : UdpServer Msg) : Prop where
  handler : u.handler = false
  closed : ∀ sock, u.isOpen sock = false

theorem stop_deaf : u.stop.Deaf := ⟨rfl, fun _ => rfl⟩

theorem readHandler_deaf (hu : u.Deaf)
    (hr : readHandler handleUdpRequest u h sock ec received = some (u', h', o)) :
    u'.Deaf ∧ u'.sent = u.sent ∧ h' = h ∧ o = .returned := by
  have hne : ¬ u.handler = true := by simp [hu.handler]
  obtain ⟨rfl, rfl, rfl | ⟨-, hset⟩⟩ | ⟨hset, -⟩ := readHandler_cases hr
  · exact ⟨⟨hu.handler, hu.closed⟩, rfl, rfl, rfl⟩
  · exact absurd hset hne
  · exact absurd hset hne

theorem sendHandler_deaf (hu : u.Deaf) (hr : u.sendHandler i ec = some (u', o)) :
    u'.Deaf ∧ u'.sent = u.sent ∧ o = .returned := by
  have hne : ¬ u.handler = true := by simp [hu.handler]
  obtain ⟨c, -, -, ⟨n, rfl, hlast⟩ | ⟨-, -, hset, -⟩⟩ := sendHandler_cases hr
  · refine ⟨⟨hu.handler, hu.closed⟩, rfl, ?_⟩
    cases hlast with
    | stopped => rfl
    | aborted => rfl
    | sent => rfl
    | fatal hset => exact absurd hset hne
    | continuation hset => exact absurd hset hne
  · exact absurd hset hne

theorem timerHandler_deaf (hu : u.Deaf) (hr : u.timerHandler i ec = some u') :
    u'.Deaf ∧ u'.sent = u.sent := by
  obtain ⟨c, -, -, ⟨-, rfl⟩ | ⟨hopen, -⟩⟩ := timerHandler_cases hr
  · exact ⟨⟨hu.handler, hu.closed⟩, rfl⟩
  · rw [hu.closed] at hopen
    cases hopen

end Cases

/-! ### The number of transmissions -/

/-- The datagrams of every chain are what was given to `write`, and there are not more of them
than the socket allows. -/
structure WellSent (u : UdpServer Msg) : Prop where
  origin : ∀ d ∈ u.sent, ∃ c, u.chains[d.chain]? = some c ∧ d.buffer = c.buffer ∧
    d.socket = c.socket
  budget : ∀ (i : ℕ) (c : Callback Msg), u.chains[i]? = some c →
    u.sent.countP (fun d => d.chain = i) + c.left ≤ c.socket.repeatCount
  pending : ∀ (i : ℕ) (c : Callback Msg), u.chains[i]? = some c → c.phase ≠ .over → 1 ≤ c.repeatCount

namespace WellSent

variable {u u' : UdpServer Msg} {i : ℕ} {c : Callback Msg}

/-- Only the chains and the datagrams matter. -/
theorem congr (hu : u.WellSent) (hc : u'.chains = u.chains) (hs : u'.sent = u.sent) :
    u'.WellSent := by
  refine ⟨?_, ?_, ?_⟩
  · rw [hc, hs]
    exact hu.origin
  · rw [hc, hs]
    exact hu.budget
  · rw [hc]
    exact hu.pending

/-- A new chain. -/
theorem write (hu : u.WellSent) (data : Msg) (sock : UdpSocket) (dest : Endpoint)
    (isUnicast continuation : Bool) :
    (u.write data sock dest isUnicast continuation).WellSent := by
  have hnone : u.sent.countP (fun d => d.chain = u.chains.length) = 0 := by
    rw [List.countP_eq_zero]
    intro d hd
    obtain ⟨c, hc, -⟩ := hu.origin d hd
    have := (List.getElem?_eq_some_iff.1 hc).1
    simp only [decide_eq_true_eq]
    omega
  constructor
  · intro d hd
    simp only [UdpServer.write, List.mem_append, List.mem_singleton] at hd
    obtain hd | rfl := hd
    · obtain ⟨c, hc, h⟩ := hu.origin d hd
      exact ⟨c, write_getElem?_eq_some.2 (.inl hc), h⟩
    · exact ⟨_, write_getElem?_eq_some.2 (.inr ⟨rfl, rfl⟩), rfl, rfl⟩
  · intro i c hc
    have hsent : (u.write data sock dest isUnicast continuation).sent =
        u.sent ++ [⟨u.chains.length, sock, data, dest⟩] := rfl
    rw [hsent, List.countP_append]
    obtain hc | ⟨rfl, rfl⟩ := write_getElem?_eq_some.1 hc
    · have hlt := (List.getElem?_eq_some_iff.1 hc).1
      have hne : ¬ u.chains.length = i := by omega
      simpa [hne] using hu.budget i c hc
    · rw [hnone]
      cases sock <;> simp [Callback.left, UdpSocket.repeatCount]
  · intro i c hc hphase
    obtain hc | ⟨rfl, rfl⟩ := write_getElem?_eq_some.1 hc
    · exact hu.pending i c hc hphase
    · cases sock <;> simp [UdpSocket.repeatCount]

/-- A chain goes on as `c'`, and perhaps sends. -/
theorem setChain (hu : u.WellSent) (hc : u.chains[i]? = some c) (c' : Callback Msg)
    (hbuf : c'.buffer = c.buffer) (hsock : c'.socket = c.socket)
    (hpend : c'.phase ≠ .over → 1 ≤ c'.repeatCount) (more : List (Sent Msg))
    (hmore : ∀ d ∈ more, d.chain = i ∧ d.buffer = c.buffer ∧ d.socket = c.socket)
    (hleft : more.length + c'.left ≤ c.left) :
    ({ u.setChain i c' with sent := u.sent ++ more } : UdpServer Msg).WellSent := by
  have hlt : i < u.chains.length := (List.getElem?_eq_some_iff.1 hc).1
  constructor
  · intro d hd
    have hget : (u.chains.set i c')[i]? = some c' := by simp [hlt]
    simp only [UdpServer.setChain, List.mem_append] at hd ⊢
    obtain hd | hd := hd
    · obtain ⟨c₀, hc₀, h⟩ := hu.origin d hd
      by_cases hi : d.chain = i
      · rw [hi, hc, Option.some.injEq] at hc₀
        subst hc₀
        exact ⟨c', by rw [hi, hget], h.1.trans hbuf.symm, h.2.trans hsock.symm⟩
      · exact ⟨c₀, by rw [List.getElem?_set_ne (Ne.symm hi), hc₀], h⟩
    · obtain ⟨hi, hb, hs⟩ := hmore d hd
      exact ⟨c', by rw [hi, hget], hb.trans hbuf.symm, hs.trans hsock.symm⟩
  · intro j c₀ hc₀
    dsimp only
    rw [List.countP_append]
    obtain ⟨rfl, rfl⟩ | ⟨hij, hc₀⟩ := setChain_getElem?_eq_some hc₀
    · have hcount : more.countP (fun d => d.chain = i) = more.length :=
        List.countP_eq_length.2 fun d hd => by simp [(hmore d hd).1]
      have := hu.budget i c hc
      rw [hcount, hsock]
      omega
    · have hcount : more.countP (fun d => d.chain = j) = 0 :=
        List.countP_eq_zero.2 fun d hd => by simp [(hmore d hd).1, hij]
      rw [hcount]
      exact hu.budget j c₀ hc₀
  · intro j c₀ hc₀ hphase
    obtain ⟨rfl, rfl⟩ | ⟨-, hc₀⟩ := setChain_getElem?_eq_some hc₀
    · exact hpend hphase
    · exact hu.pending j c₀ hc₀ hphase

/-- A chain goes on and does not send. -/
theorem setChain_nil (hu : u.WellSent) (hc : u.chains[i]? = some c) {c' : Callback Msg}
    (hbuf : c'.buffer = c.buffer) (hsock : c'.socket = c.socket)
    (hpend : c'.phase ≠ .over → 1 ≤ c'.repeatCount) (hleft : c'.left ≤ c.left) :
    (u.setChain i c').WellSent :=
  (hu.setChain hc c' hbuf hsock hpend [] (by simp) (by simpa using hleft)).congr rfl
    (List.append_nil _).symm

theorem sendHandler (hu : u.WellSent) {ec : ErrorCode} {o : Outcome}
    (hr : u.sendHandler i ec = some (u', o)) : u'.WellSent := by
  obtain ⟨c, hc, hphase, ⟨n, rfl, -⟩ | ⟨rfl, -, -, -, hlt⟩⟩ := sendHandler_cases hr
  · exact hu.setChain_nil hc rfl rfl (by simp) (by simp [Callback.left])
  · refine hu.setChain_nil hc rfl rfl (fun _ => ?_) ?_
    · show 1 ≤ c.repeatCount - 1
      omega
    · simp [Callback.left, hphase]

theorem timerHandler (hu : u.WellSent) {ec : ErrorCode} (hr : u.timerHandler i ec = some u') :
    u'.WellSent := by
  obtain ⟨c, hc, hphase, ⟨-, rfl⟩ | ⟨-, rfl⟩⟩ := timerHandler_cases hr
  · exact hu.setChain_nil hc rfl rfl (by simp) (by simp [Callback.left])
  · have hpos : 1 ≤ c.repeatCount := hu.pending i c hc (by simp [hphase])
    refine hu.setChain hc { c with phase := .sending } rfl rfl (fun _ => hpos)
      [⟨i, c.socket, c.buffer, c.dest⟩] (by simp) ?_
    simp only [Callback.left, hphase, List.length_singleton]
    omega

end WellSent

end UdpServer

end Wsddn

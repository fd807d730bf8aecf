import Mathlib.Logic.Function.Basic
import Wsddn.Machine.Basic
import Wsddn.Machine.Law
import Wsddn.Udp.Server

/-!
# A chain of retransmissions (`UdpServerImpl::write`)

Every call of `write` starts a chain, and its handlers run one after the other among those of the
other chains.  What happens to a chain is logged, and the law says what may happen when.

* `chainMachine` : a started server with the logs of its chains: calls of `write` and `stop` and the
  handlers of the chains, in any order.
* `chainLaw` : the law of a chain that may send `copies` times.
* `ChainInv` : where a chain is, by its log.
* `retransmits_of_write` : **every log obeys the law**, and a chain of which nothing fails comes to
  its end, with all its transmissions and its continuation, unless the server is stopped.
-/

namespace Wsddn

/-- What happens to a chain. -/
inductive ChainEvent where
  /-- The datagram is handed to the socket. -/
  | handed
  /-- The handler of a transmission is called. -/
  | completed (ec : ErrorCode)
  /-- The handler of a timer is called. -/
  | expired (ec : ErrorCode)
  /-- The continuation is called. -/
  | continued
  /-- `onFatalUdpError` is called. -/
  | fatal
  /-- The server is stopped. -/
  | stopped
  deriving DecidableEq, Repr

namespace ChainEvent

/-- The error code, for the call of a handler of the chain. -/
@[simp] def code : ChainEvent → Option ErrorCode
  | .completed ec | .expired ec => some ec
  | _ => none

/-- The error codes of all its handlers. -/
def codes (log : List ChainEvent) : List ErrorCode :=
  log.filterMap code

/-- The last transmission was the first one to fail, and was not aborted. -/
def FirstError (log : List ChainEvent) : Prop :=
  ∃ before, log = before ++ [.completed .other] ∧ .completed .other ∉ before

/-- The last transmission succeeded, and so did `copies` of them. -/
def LastSuccess (copies : ℕ) (log : List ChainEvent) : Prop :=
  ∃ before, log = before ++ [.completed .success] ∧
    log.count (.completed .success) = copies

/-- The law of a chain with `copies` transmissions and perhaps a continuation. -/
def chainLaw (copies : ℕ) (continuation : Bool) (log : List ChainEvent) : ChainEvent → Prop
  | .handed => log.count .handed < copies ∧ .stopped ∉ log
  | .continued => continuation = true ∧ .continued ∉ log ∧ .stopped ∉ log ∧
      (LastSuccess copies log ∨ FirstError log)
  | .fatal => continuation = false ∧ .fatal ∉ log ∧ .stopped ∉ log ∧ FirstError log
  | _ => True

section Codes

variable {log more : List ChainEvent}

@[simp] theorem codes_nil : codes [] = [] := rfl

@[simp] theorem codes_cons (e : ChainEvent) : codes (e :: log) = (code e).toList ++ codes log := by
  cases e <;> rfl

@[simp] theorem codes_append : codes (log ++ more) = codes log ++ codes more :=
  List.filterMap_append

end Codes

/-- No handler was called with an error. -/
def AllSuccess (log : List ChainEvent) : Prop :=
  ∀ ec ∈ codes log, ec = .success

/-- What the end of a handler is in the log. -/
def ofOutcome : Outcome → List ChainEvent
  | .continuation => [.continued]
  | .fatal => [.fatal]
  | .returned | .raised => []

end ChainEvent

open ChainEvent

namespace UdpServer

variable {Msg : Type*}

/-- A server with the logs of its chains. -/
structure Logged (Msg : Type*) where
  server : UdpServer Msg
  log : ℕ → List ChainEvent := fun _ => []

/-- Something is added to the log of the chain `i`. -/
def note (log : ℕ → List ChainEvent) (i : ℕ) (more : List ChainEvent) : ℕ → List ChainEvent :=
  Function.update log i (log i ++ more)

/-- What a server can be asked for, and the handlers of its chains. -/
inductive ChainCall (Msg : Type*) where
  | write (data : Msg) (sock : UdpSocket) (dest : Endpoint) (isUnicast continuation : Bool)
  | stop
  /-- The sockets are read, which changes the pending waits. -/
  | waits (reads : List UdpSocket)
  | sent (i : ℕ) (ec : ErrorCode)
  | timer (i : ℕ) (ec : ErrorCode)

namespace Logged

/-- What a call does, and what is noted of it for its chain. -/
def step (x : Logged Msg) : ChainCall Msg → Option (Logged Msg)
  | .write data sock dest isUnicast continuation =>
    some { server := x.server.write data sock dest isUnicast continuation
           log := note x.log x.server.chains.length [.handed] }
  | .stop =>
    some { server := x.server.stop
           log := fun i => if i < x.server.chains.length then x.log i ++ [.stopped] else x.log i }
  | .waits reads => some { x with server := { x.server with reads } }
  | .sent i ec =>
    (x.server.sendHandler i ec).map fun (u, o) =>
      { server := u, log := note x.log i (.completed ec :: ofOutcome o) }
  | .timer i ec =>
    (x.server.timerHandler i ec).map fun u =>
      -- the datagram is handed to the socket again if there is one more in the list
      let handed := if x.server.sent.length < u.sent.length then [.handed] else []
      { server := u, log := note x.log i (.expired ec :: handed) }

/-- A server that has been started and has sent nothing. -/
def Fresh (x : Logged Msg) : Prop :=
  x.server.handler = true ∧ (∀ sock, x.server.isOpen sock = true) ∧ x.server.chains = [] ∧
    x.server.sent = [] ∧ ∀ i, x.log i = []

end Logged

/-- A started server. -/
def chainMachine : Machine (Logged Msg) (ChainCall Msg) where
  init := Logged.Fresh
  step := Logged.step

/-! ### Where a chain is -/

/-- Where the chain `c` is, by its log; `live` is set while the server is not stopped. -/
structure ChainInv (live : Bool) (c : Callback Msg) (log : List ChainEvent) : Prop where
  lawful : Lawful (chainLaw c.socket.repeatCount c.continuation) log
  notStopped : live = true → .stopped ∉ log
  handed : log.count (.completed .success) ≤ log.count .handed
  /-- The chain goes on: what is left, and how often its handlers were called. -/
  left : c.phase ≠ .over → log.count (.completed .success) + c.repeatCount = c.socket.repeatCount ∧
    1 ≤ c.repeatCount
  sending : c.phase = .sending → log.count .handed = log.count (.completed .success) + 1 ∧
    (codes log).length = 2 * log.count (.completed .success)
  delayed : c.phase = .delayed → log.count .handed = log.count (.completed .success) ∧
    (codes log).length + 1 = 2 * log.count (.completed .success)
  untouched : c.phase ≠ .over → .completed .other ∉ log ∧ .continued ∉ log ∧ .fatal ∉ log
  /-- The chain is over and nothing has failed. -/
  complete : c.phase = .over → live = true → AllSuccess log →
    (codes log).length + 1 = 2 * c.socket.repeatCount ∧ log.count .handed = c.socket.repeatCount ∧
      log.count .continued = if c.continuation then 1 else 0

namespace ChainInv

variable {live : Bool} {c : Callback Msg} {log more : List ChainEvent} {u : UdpServer Msg}
  {ec : ErrorCode} {o : Outcome}

/-- A new chain. -/
theorem written (live : Bool) (data : Msg) (sock : UdpSocket) (dest : Endpoint)
    (isUnicast continuation : Bool) :
    ChainInv live ⟨data, sock, dest, isUnicast, sock.repeatCount, continuation, .sending⟩
      [.handed] where
  lawful := by
    refine lawful_singleton.2 ⟨?_, List.not_mem_nil⟩
    cases sock <;> simp [UdpSocket.repeatCount]
  notStopped _ := by decide
  handed := by decide
  left _ := ⟨by simp, by cases sock <;> simp [UdpSocket.repeatCount]⟩
  sending _ := by decide
  delayed h := by cases h
  untouched _ := by decide
  complete h := by cases h

/-- The server is stopped. -/
theorem stop (h : ChainInv live c log) : ChainInv false c (log ++ [.stopped]) where
  lawful := lawful_concat.2 ⟨h.lawful, trivial⟩
  notStopped hl := by cases hl
  handed := by simpa [List.count_append] using h.handed
  left hp := by simpa [List.count_append] using h.left hp
  sending hp := by simpa [List.count_append] using h.sending hp
  delayed hp := by simpa [List.count_append] using h.delayed hp
  untouched hp := by simpa using h.untouched hp
  complete _ hl := by cases hl

theorem sentOn (h : ChainInv live c log) (hp : c.phase = .sending) (hlt : 1 < c.repeatCount) :
    ChainInv live { c with repeatCount := c.repeatCount - 1, phase := .delayed }
      (log ++ [.completed .success]) := by
  have hne : c.phase ≠ .over := by simp [hp]
  obtain ⟨hleft, -⟩ := h.left hne
  obtain ⟨hh, hr⟩ := h.sending hp
  constructor
  case lawful => exact lawful_concat.2 ⟨h.lawful, trivial⟩
  case notStopped => exact fun hl => by simpa using h.notStopped hl
  case handed => simp [List.count_append, hh]
  case left =>
    intro _
    simp only [List.count_append, List.count_singleton_self]
    omega
  case sending => exact fun hp => by cases hp
  case delayed =>
    intro _
    simp [List.count_append]
    omega
  case untouched => exact fun _ => by simpa using h.untouched hne
  case complete => exact fun hp => by cases hp

/-- The chain comes to its end. -/
theorem ended (h : ChainInv live c log) (hs : .stopped ∉ more)
    (hh : (log ++ more).count (.completed .success) ≤ (log ++ more).count .handed)
    (hlaw : Lawful (chainLaw c.socket.repeatCount c.continuation) (log ++ more))
    (hend : live = true → AllSuccess (log ++ more) →
      (codes (log ++ more)).length + 1 = 2 * c.socket.repeatCount ∧
        (log ++ more).count .handed = c.socket.repeatCount ∧
        (log ++ more).count .continued = if c.continuation then 1 else 0) (n : ℕ) :
    ChainInv live { c with repeatCount := n, phase := .over } (log ++ more) where
  lawful := hlaw
  notStopped hl hmem := (List.mem_append.1 hmem).elim (h.notStopped hl) hs
  handed := hh
  left hp := absurd rfl hp
  sending hp := by cases hp
  delayed hp := by cases hp
  untouched hp := absurd rfl hp
  complete _ := hend

theorem sentLast (h : ChainInv u.handler c log) (hp : c.phase = .sending)
    (hlast : LastSend u c ec o) (n : ℕ) :
    ChainInv u.handler { c with repeatCount := n, phase := .over }
      (log ++ .completed ec :: ofOutcome o) := by
  have hne : c.phase ≠ .over := by simp [hp]
  obtain ⟨hleft, hpos⟩ := h.left hne
  obtain ⟨hh, hr⟩ := h.sending hp
  obtain ⟨hother, hcont, hfatal⟩ := h.untouched hne
  have hlaw : Lawful (chainLaw c.socket.repeatCount c.continuation) (log ++ [.completed ec]) :=
    lawful_concat.2 ⟨h.lawful, trivial⟩
  have hcount : (log ++ .completed ec :: ofOutcome o).count (.completed .success) ≤
      (log ++ .completed ec :: ofOutcome o).count .handed := by
    cases ec <;> cases o <;> simp [List.count_append, ofOutcome] <;> omega
  -- one case for each way in which a chain ends
  cases hlast with
  | stopped hdown => exact h.ended (by simp [ofOutcome]) hcount hlaw (by simp [hdown]) n
  | aborted hec =>
    subst hec
    refine h.ended (by simp [ofOutcome]) hcount hlaw (fun _ hall => ?_) n
    have := hall .operationAborted (by simp)
    cases this
  | sent hset hec hle hk =>
    subst hec
    refine h.ended (by simp [ofOutcome]) hcount hlaw (fun _ _ => ?_) n
    simp [ofOutcome, List.count_append, hk, List.count_eq_zero.2 hcont]
    omega
  | fatal hset hec hk =>
    subst hec
    have hstop := h.notStopped hset
    refine h.ended (by simp [ofOutcome]) hcount ?_ (fun _ hall => ?_) n
    · have : Lawful (chainLaw c.socket.repeatCount c.continuation)
          ((log ++ [.completed .other]) ++ [.fatal]) :=
        lawful_concat.2 ⟨hlaw, hk, by simpa using hfatal, by simpa using hstop, log, rfl, hother⟩
      simpa [ofOutcome] using this
    · have := hall .other (by simp)
      cases this
  | continuation hset hk hwhy =>
    have hstop := h.notStopped hset
    refine h.ended (by simp [ofOutcome]) hcount ?_ (fun _ hall => ?_) n
    · have hwhy : LastSuccess c.socket.repeatCount (log ++ [.completed ec]) ∨
          FirstError (log ++ [.completed ec]) := by
        obtain rfl | ⟨rfl, hle⟩ := hwhy
        · exact .inr ⟨log, rfl, hother⟩
        · refine .inl ⟨log, rfl, ?_⟩
          rw [List.count_append, List.count_singleton_self]
          omega
      have : Lawful (chainLaw c.socket.repeatCount c.continuation)
          ((log ++ [.completed ec]) ++ [.continued]) :=
        lawful_concat.2 ⟨hlaw, hk, by simpa using hcont, by simpa using hstop, hwhy⟩
      simpa [ofOutcome] using this
    · obtain rfl | ⟨rfl, hle⟩ := hwhy
      · have := hall .other (by simp)
        cases this
      · simp [ofOutcome, List.count_append, hk, List.count_eq_zero.2 hcont]
        omega

/-- The datagram is handed to the socket once more. -/
theorem again (h : ChainInv true c log) (hp : c.phase = .delayed) (ec : ErrorCode) :
    ChainInv true { c with phase := .sending } (log ++ [.expired ec, .handed]) := by
  have hne : c.phase ≠ .over := by simp [hp]
  obtain ⟨hleft, hpos⟩ := h.left hne
  obtain ⟨hh, hr⟩ := h.delayed hp
  have hstop := h.notStopped rfl
  constructor
  case lawful =>
    have hlaw : Lawful (chainLaw c.socket.repeatCount c.continuation) (log ++ [.expired ec]) :=
      lawful_concat.2 ⟨h.lawful, trivial⟩
    have : Lawful (chainLaw c.socket.repeatCount c.continuation)
        ((log ++ [.expired ec]) ++ [.handed]) := by
      refine lawful_concat.2 ⟨hlaw, ?_, by simpa using hstop⟩
      simp only [List.count_append]
      simp
      omega
    simpa using this
  case notStopped => exact fun _ => by simpa using hstop
  case handed => simp [List.count_append, hh]
  case left => exact fun _ => by simpa [List.count_append] using h.left hne
  case sending =>
    intro _
    simp [List.count_append]
    omega
  case delayed => exact fun hp => by cases hp
  case untouched => exact fun _ => by simpa using h.untouched hne
  case complete => exact fun hp => by cases hp

theorem expiredLast (h : ChainInv live c log) (hp : c.phase = .delayed)
    (hwhy : ec ≠ .success ∨ live = false) :
    ChainInv live { c with phase := .over } (log ++ [.expired ec]) := by
  obtain ⟨hh, -⟩ := h.delayed hp
  have hlaw : Lawful (chainLaw c.socket.repeatCount c.continuation) (log ++ [.expired ec]) :=
    lawful_concat.2 ⟨h.lawful, trivial⟩
  refine h.ended (by simp) (by simp [List.count_append, hh]) hlaw (fun hl hall => ?_) c.repeatCount
  obtain hec | hdown := hwhy
  · exact absurd (hall ec (by simp)) hec
  · rw [hl] at hdown
    cases hdown

end ChainInv

/-! ### All chains of a server -/

namespace Logged

/-- Every chain is where its log says. -/
structure Inv (x : Logged Msg) : Prop where
  awake : x.server.handler = true ∧ (∀ sock, x.server.isOpen sock = true) ∨ x.server.Deaf
  chain : ∀ i c, x.server.chains[i]? = some c → ChainInv x.server.handler c (x.log i)
  none : ∀ i, x.server.chains.length ≤ i → x.log i = []
  sent : ∀ i, x.server.sent.countP (fun d => d.chain = i) = (x.log i).count .handed

variable {x y z : Logged Msg} {i : ℕ} {c c' : Callback Msg} {l : ChainCall Msg}

theorem note_self (log : ℕ → List ChainEvent) (i : ℕ) (more : List ChainEvent) :
    note log i more i = log i ++ more :=
  Function.update_self ..

theorem note_of_ne (log : ℕ → List ChainEvent) {i j : ℕ} (h : j ≠ i) (more : List ChainEvent) :
    note log i more j = log j :=
  Function.update_of_ne h ..

theorem Fresh.inv (h : x.Fresh) : x.Inv := by
  obtain ⟨hset, hopen, hchains, hsent, hlog⟩ := h
  refine ⟨.inl ⟨hset, hopen⟩, ?_, fun i _ => hlog i, fun i => ?_⟩
  · simp [hchains]
  · simp [hsent, hlog]

/-- A handler of the chain `i` lets it go on as `c'`. -/
theorem Inv.handled {u : UdpServer Msg} (hx : x.Inv) (hc : x.server.chains[i]? = some c)
    (hu : Keeps x.server u) (hset : u.chains = x.server.chains.set i c') {moreSent : List (Sent Msg)}
    (hsent : u.sent = x.server.sent ++ moreSent) {moreLog : List ChainEvent}
    (hmore : ∀ d ∈ moreSent, d.chain = i) (hcount : moreSent.length = moreLog.count .handed)
    (hc' : ChainInv x.server.handler c' (x.log i ++ moreLog)) :
    Inv { server := u, log := note x.log i moreLog } := by
  have hlt : i < x.server.chains.length := (List.getElem?_eq_some_iff.1 hc).1
  constructor
  case awake =>
    refine hx.awake.imp (fun h => ?_) fun h => ⟨hu.handler.trans h.handler, ?_⟩
    · exact ⟨hu.handler.trans h.1, by rw [hu.isOpen]; exact h.2⟩
    · rw [hu.isOpen]
      exact h.closed
  case chain =>
    intro j c₀ hj
    dsimp only at hj ⊢
    rw [hset, List.getElem?_set] at hj
    rw [hu.handler]
    split_ifs at hj with hij
    · obtain rfl := Option.some.inj hj
      rw [← hij, note_self]
      exact hc'
    · rw [note_of_ne _ (Ne.symm hij)]
      exact hx.chain j c₀ hj
  case none =>
    intro j hj
    simp only [hset, List.length_set] at hj ⊢
    rw [note_of_ne _ (by omega)]
    exact hx.none j hj
  case sent =>
    intro j
    dsimp only
    rw [hsent, List.countP_append, hx.sent]
    by_cases hij : j = i
    · subst hij
      have : moreSent.countP (fun d => d.chain = j) = moreSent.length :=
        List.countP_eq_length.2 fun d hd => by simp [hmore d hd]
      rw [note_self, List.count_append, this, hcount]
    · have : moreSent.countP (fun d => d.chain = j) = 0 :=
        List.countP_eq_zero.2 fun d hd => by simp [hmore d hd, Ne.symm hij]
      rw [note_of_ne _ hij, this, Nat.add_zero]

theorem Inv.write (hx : x.Inv) (data : Msg) (sock : UdpSocket) (dest : Endpoint)
    (isUnicast continuation : Bool) :
    Inv { server := x.server.write data sock dest isUnicast continuation
          log := note x.log x.server.chains.length [.handed] } := by
  have hnone : x.log x.server.chains.length = [] := hx.none _ le_rfl
  constructor
  case awake => exact hx.awake.imp (fun h => h) fun h => ⟨h.handler, h.closed⟩
  case chain =>
    intro j c₀ hj
    obtain hj | ⟨rfl, rfl⟩ := write_getElem?_eq_some.1 hj
    · have hlt := (List.getElem?_eq_some_iff.1 hj).1
      dsimp only
      rw [note_of_ne _ (by omega)]
      exact hx.chain j c₀ hj
    · dsimp only
      rw [note_self, hnone]
      exact .written ..
  case none =>
    intro j hj
    simp only [UdpServer.write, List.length_append, List.length_singleton] at hj ⊢
    rw [note_of_ne _ (by omega)]
    exact hx.none j (by omega)
  case sent =>
    intro j
    simp only [UdpServer.write, List.countP_append, hx.sent]
    by_cases hj : j = x.server.chains.length
    · subst hj
      simp [note_self, hnone]
    · simp [note_of_ne _ hj, Ne.symm hj]

theorem Inv.stop (hx : x.Inv) :
    Inv { server := x.server.stop
          log := fun i => if i < x.server.chains.length then x.log i ++ [.stopped] else x.log i } := by
  refine ⟨.inr stop_deaf, fun j c₀ hj => ?_, fun j hj => ?_, fun j => ?_⟩
  · have hlt : j < x.server.chains.length := (List.getElem?_eq_some_iff.1 hj).1
    dsimp only
    rw [if_pos hlt]
    exact (hx.chain j c₀ hj).stop
  · have hge : x.server.chains.length ≤ j := hj
    dsimp only
    rw [if_neg (by omega)]
    exact hx.none j hge
  · dsimp only
    split_ifs with hlt
    · rw [List.count_append]
      exact hx.sent j
    · exact hx.sent j

theorem Inv.sentHandler (hx : x.Inv) {ec : ErrorCode} {u : UdpServer Msg} {o : Outcome}
    (hr : x.server.sendHandler i ec = some (u, o)) :
    Inv { server := u, log := note x.log i (.completed ec :: ofOutcome o) } := by
  have hnil : x.server.sent = x.server.sent ++ [] := (List.append_nil _).symm
  have hcount : 0 = (ChainEvent.completed ec :: ofOutcome o).count .handed := by
    cases o <;> simp [ofOutcome]
  have hu := sendHandler_keeps hr
  obtain ⟨c, hc, hphase, ⟨n, rfl, hlast⟩ | ⟨rfl, rfl, hset, rfl, hlt⟩⟩ := sendHandler_cases hr
  · exact hx.handled hc hu rfl hnil (by simp) hcount ((hx.chain i c hc).sentLast hphase hlast n)
  · exact hx.handled hc hu rfl hnil (by simp) hcount ((hx.chain i c hc).sentOn hphase hlt)

theorem Inv.timerHandler (hx : x.Inv) {ec : ErrorCode} {u : UdpServer Msg}
    (hr : x.server.timerHandler i ec = some u) :
    Inv { server := u
          log := note x.log i (.expired ec ::
            if x.server.sent.length < u.sent.length then [.handed] else []) } := by
  have hu := timerHandler_keeps hr
  obtain ⟨c, hc, hphase, ⟨hwhy, rfl⟩ | ⟨hopen, rfl⟩⟩ := timerHandler_cases hr
  · have hwhy : ec ≠ .success ∨ x.server.handler = false := by
      refine hwhy.imp (fun h => h) fun hclosed => ?_
      obtain ⟨-, hopen⟩ | hdeaf := hx.awake
      · rw [hopen] at hclosed
        cases hclosed
      · exact hdeaf.handler
    have hnil : x.server.sent = x.server.sent ++ [] := (List.append_nil _).symm
    rw [setChain_sent, if_neg (lt_irrefl _)]
    exact hx.handled hc hu rfl hnil (by simp) (by simp)
      ((hx.chain i c hc).expiredLast hphase hwhy)
  · -- a server with an open socket has its handler
    have hset : x.server.handler = true := by
      obtain ⟨hset, -⟩ | hdeaf := hx.awake
      · exact hset
      · rw [hdeaf.closed] at hopen
        cases hopen
    have hchain : ChainInv true c (x.log i) := hset ▸ hx.chain i c hc
    rw [if_pos (by simp)]
    refine hx.handled hc hu rfl rfl (by simp) (by simp) ?_
    rw [hset]
    exact hchain.again hphase ec

theorem Inv.step (hx : x.Inv) (hst : x.step l = some y) : y.Inv := by
  cases l with
  | write data sock dest isUnicast continuation =>
    obtain rfl := Option.some.inj hst
    exact hx.write data sock dest isUnicast continuation
  | stop =>
    obtain rfl := Option.some.inj hst
    exact hx.stop
  | waits reads =>
    obtain rfl := Option.some.inj hst
    exact ⟨hx.awake.imp (fun h => h) fun h => ⟨h.handler, h.closed⟩, hx.chain, hx.none, hx.sent⟩
  | sent i ec =>
    obtain ⟨⟨u, o⟩, hr, rfl⟩ := Option.map_eq_some_iff.1 hst
    exact hx.sentHandler hr
  | timer i ec =>
    obtain ⟨u, hr, rfl⟩ := Option.map_eq_some_iff.1 hst
    exact hx.timerHandler hr

theorem inv_of_reachable (h : chainMachine.Reachable x) : x.Inv :=
  h.invariant (fun _ => Fresh.inv) fun _ _ _ hx hst => hx.step hst

theorem step_getElem? (hc : x.server.chains[i]? = some c) (hst : x.step l = some y) :
    ∃ c', y.server.chains[i]? = some c' ∧ c'.socket = c.socket ∧
      c'.continuation = c.continuation := by
  have hlt : i < x.server.chains.length := (List.getElem?_eq_some_iff.1 hc).1
  -- a handler replaces the chain it belongs to
  have hset : ∀ (j : ℕ) (cj cj' : Callback Msg), x.server.chains[j]? = some cj →
      cj'.socket = cj.socket → cj'.continuation = cj.continuation →
      ∃ c', (x.server.chains.set j cj')[i]? = some c' ∧ c'.socket = c.socket ∧
        c'.continuation = c.continuation := by
    intro j cj cj' hj hsock hk
    by_cases hij : j = i
    · subst hij
      obtain rfl := Option.some.inj (hc.symm.trans hj)
      exact ⟨cj', by simp [hlt], hsock, hk⟩
    · exact ⟨c, by rw [List.getElem?_set_ne hij, hc], rfl, rfl⟩
  cases l with
  | write data sock dest isUnicast continuation =>
    obtain rfl := Option.some.inj hst
    exact ⟨c, write_getElem?_eq_some.2 (.inl hc), rfl, rfl⟩
  | stop =>
    obtain rfl := Option.some.inj hst
    exact ⟨c, hc, rfl, rfl⟩
  | waits reads =>
    obtain rfl := Option.some.inj hst
    exact ⟨c, hc, rfl, rfl⟩
  | sent j ec =>
    obtain ⟨⟨u, o⟩, hr, rfl⟩ := Option.map_eq_some_iff.1 hst
    obtain ⟨cj, hj, -, ⟨n, rfl, -⟩ | ⟨rfl, -⟩⟩ := sendHandler_cases hr
    · exact hset j cj _ hj rfl rfl
    · exact hset j cj _ hj rfl rfl
  | timer j ec =>
    obtain ⟨u, hr, rfl⟩ := Option.map_eq_some_iff.1 hst
    obtain ⟨cj, hj, -, ⟨-, rfl⟩ | ⟨-, rfl⟩⟩ := timerHandler_cases hr
    · exact hset j cj _ hj rfl rfl
    · exact hset j cj _ hj rfl rfl

/-- While a chain is not over, one of its handlers can be called. -/
theorem pending (hc : x.server.chains[i]? = some c) (hp : c.phase ≠ .over) (ec : ErrorCode) :
    (x.server.sendHandler i ec).isSome ∨ (x.server.timerHandler i ec).isSome := by
  match hphase : c.phase with
  | .sending =>
    left
    simp only [UdpServer.sendHandler, hc, hphase]
    cases ec <;> simp <;> split_ifs <;> rfl
  | .delayed =>
    right
    simp only [UdpServer.timerHandler, hc, hphase]
    simp only [ne_eq, not_true_eq_false, if_false]
    split_ifs <;> rfl
  | .over => exact absurd hphase hp

/-- What is true of the chain `i`, which may send `copies` times. -/
structure Retransmits (copies : ℕ) (continuation : Bool) (x : Logged Msg) (i : ℕ) : Prop where
  lawful : Lawful (chainLaw copies continuation) (x.log i)
  /-- The log has every transmission. -/
  sent : x.server.sent.countP (fun d => d.chain = i) = (x.log i).count .handed
  handed_le : (x.log i).count .handed ≤ copies
  success_le : (x.log i).count (.completed .success) ≤ (x.log i).count .handed
  continued_le : (x.log i).count .continued ≤ 1
  fatal_le : (x.log i).count .fatal ≤ 1
  /-- A chain of which nothing fails goes on to its end, while the server is not stopped. -/
  complete : x.server.handler = true → AllSuccess (x.log i) →
    ((codes (x.log i)).length + 1 < 2 * copies ∧ .continued ∉ x.log i ∧
      ∀ ec, (x.server.sendHandler i ec).isSome ∨ (x.server.timerHandler i ec).isSome) ∨
    ((codes (x.log i)).length + 1 = 2 * copies ∧ (x.log i).count .handed = copies ∧
      (x.log i).count .continued = if continuation then 1 else 0)

theorem Inv.retransmits (hx : x.Inv) (hc : x.server.chains[i]? = some c) :
    Retransmits c.socket.repeatCount c.continuation x i := by
  have h := hx.chain i c hc
  refine ⟨h.lawful, hx.sent i, h.lawful.count_le fun _ hlaw => hlaw.1, h.handed,
    h.lawful.count_le fun _ hlaw => ?_, h.lawful.count_le fun _ hlaw => ?_, fun hset hall => ?_⟩
  · rw [List.count_eq_zero.2 hlaw.2.1]
    exact Nat.one_pos
  · rw [List.count_eq_zero.2 hlaw.2.1]
    exact Nat.one_pos
  · by_cases hp : c.phase = .over
    · exact .inr (h.complete hp hset hall)
    · obtain ⟨hleft, hpos⟩ := h.left hp
      refine .inl ⟨?_, (h.untouched hp).2.1, pending hc hp⟩
      match hphase : c.phase with
      | .sending =>
        have := (h.sending hphase).2
        omega
      | .delayed =>
        have := (h.delayed hphase).2
        omega
      | .over => exact absurd hphase hp

/-- **Every call of `write`**, on a server that was started, and whatever happens afterwards. -/
theorem retransmits_of_write (hx : chainMachine.Reachable x) {data : Msg} {sock : UdpSocket}
    {dest : Endpoint} {isUnicast continuation : Bool} {ls : List (ChainCall Msg)}
    (hst : x.step (.write data sock dest isUnicast continuation) = some y)
    (hr : chainMachine.run y ls = some z) :
    Retransmits sock.repeatCount continuation z x.server.chains.length := by
  have hy : y.Inv := (inv_of_reachable hx).step hst
  -- the invariant, and the chain that was started
  have hrun := Machine.run_invariant (M := chainMachine)
    (I := fun z : Logged Msg => z.Inv ∧ ∃ c, z.server.chains[x.server.chains.length]? = some c ∧
      c.socket = sock ∧ c.continuation = continuation) ?_ ?_ hr
  · obtain ⟨hz, c, hc, rfl, rfl⟩ := hrun
    exact hz.retransmits hc
  · rintro z l z' ⟨hz, c, hc, rfl, rfl⟩ hst'
    exact ⟨hz.step hst', step_getElem? hc hst'⟩
  · obtain rfl := Option.some.inj hst
    exact ⟨hy, _, write_getElem?_eq_some.2 (.inr ⟨rfl, rfl⟩), rfl, rfl⟩

end Logged

end UdpServer

end Wsddn

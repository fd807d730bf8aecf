import Wsddn.Asio.Basic
import Wsddn.Http.Connection

/-!
# The HTTP server (`HttpServerImpl` and the sockets of its connections, `http_server.cpp`)

The table of connections, the accept loop and the timer that drops stale connections.  What a
connection makes of the bytes it reads is `HttpConnection.parseIncoming`; here is what it reads
and writes, and when.

A timer that is cancelled or set again queues the handler of its pending wait, which then sees
`operation_aborted`; a handler that is queued already is not affected.  `gcPending` and `gcQueued`
keep the two apart.

* `Owned` : a connection that has an owner is in the table; preserved by every operation.
* `Deaf` : a server without a handler and with no connections; its handlers do nothing
  (`acceptHandler_deaf` and the others).
-/

namespace Wsddn

/-- The connections from one address that there can be. -/
def httpMaxConnectionsFromSameAddress : ℕ := 20

/-- Five seconds, in the nanoseconds of the steady clock. -/
def httpMaxConnectionDuration : ℕ := 5 * 10 ^ 9

/-- The size of `m_readBuffer`. -/
def httpReadBufferSize : ℕ := 8192

/-- The operation that a connection waits for. -/
inductive ConnOp where
  | read
  | write (finalWrite : Bool)
  deriving DecidableEq, Repr

/-- An `HttpConnection` with its socket. -/
structure Connection (Ctx Reply : Type*) where
  remoteAddr : IpAddress
  startTime : ℕ
  /-- `m_owner` is set. -/
  owner : Bool := false
  isOpen : Bool := true
  pending : Option ConnOp := none
  parsing : HttpConnection Ctx Reply := {}

/-- An operation started on the socket of a connection. -/
inductive IoStart where
  | read (con : ℕ)
  | write (con : ℕ) (finalWrite : Bool)
  deriving DecidableEq, Repr

/-- The fields of an `HttpServerImpl`, with all connections that it has made. -/
structure HttpServer (Ctx Reply : Type*) where
  /-- `m_handler` is set. -/
  handler : Bool := false
  acceptorOpen : Bool := true
  /-- An accept is pending. -/
  accepting : Bool := false
  /-- A wait for the timer is pending. -/
  gcPending : Bool := false
  /-- The handlers of waits that have ended. -/
  gcQueued : List ErrorCode := []
  /-- All connections that were ever made. -/
  objects : List (Connection Ctx Reply) := []
  /-- `m_connections`, in the order of the set. -/
  connections : List ℕ := []
  /-- All operations started on connections so far. -/
  started : List IoStart := []

/-- What `accept` leads to besides a new socket: the address that the first `remote_endpoint()`
gives (`none` if it raises), the one that the constructor of the connection gets, the time, and
where the set puts the new connection. -/
structure Accepted where
  remoteAddr : Option IpAddress
  remoteAddr' : Option IpAddress
  now : ℕ
  position : ℕ
  deriving DecidableEq, Repr

namespace HttpServer

variable {Ctx Doc Reply σ : Type*}

/-- Change one connection. -/
def update (s : HttpServer Ctx Reply) (id : ℕ) (f : Connection Ctx Reply → Connection Ctx Reply) :
    HttpServer Ctx Reply :=
  { s with objects := s.objects.modify id f }

/-! ### The sockets of the connections -/

/-- `HttpConnection::read`. -/
def read (s : HttpServer Ctx Reply) (id : ℕ) : HttpServer Ctx Reply :=
  { s.update id fun c => { c with pending := some .read } with
    started := s.started ++ [.read id] }

/-- `HttpConnection::write`. -/
def write (s : HttpServer Ctx Reply) (id : ℕ) (finalWrite : Bool) : HttpServer Ctx Reply :=
  { s.update id fun c => { c with pending := some (.write finalWrite) } with
    started := s.started ++ [.write id finalWrite] }

/-- `HttpConnection::stop`. -/
def stopConnection (s : HttpServer Ctx Reply) (id : ℕ) : HttpServer Ctx Reply :=
  s.update id fun c => { c with isOpen := false, owner := false }

/-! ### The timer -/

/-- `m_gcTimer.cancel()`. -/
def cancelGC (s : HttpServer Ctx Reply) : HttpServer Ctx Reply :=
  if s.gcPending then
    { s with gcPending := false, gcQueued := s.gcQueued ++ [.operationAborted] }
  else s

/-- The timer is set anew, for the longest time that a connection can take. -/
def scheduleGC (s : HttpServer Ctx Reply) : HttpServer Ctx Reply :=
  { s.cancelGC with gcPending := true }

/-! ### The table of connections -/

/-- The connection leaves the table, and the timer is not needed for an empty one. -/
def onConnectionFinished (s : HttpServer Ctx Reply) (id : ℕ) : HttpServer Ctx Reply :=
  let s := { s with connections := s.connections.erase id }.stopConnection id
  if s.connections = [] then s.cancelGC else s

/-- The connections from an address. -/
def fromSameAddress (s : HttpServer Ctx Reply) (addr : IpAddress) : List ℕ :=
  s.connections.filter fun id => (s.objects[id]?).any fun c => c.remoteAddr = addr

/-- When the connection was made. -/
def startTime (s : HttpServer Ctx Reply) (id : ℕ) : ℕ := (s.objects[id]?).elim 0 (·.startTime)

/-- The first of the oldest of some connections. -/
def oldest (s : HttpServer Ctx Reply) : List ℕ → Option ℕ
  | [] => none
  | id :: ids => some (ids.foldl (fun o id => if s.startTime id < s.startTime o then id else o) id)

/-- Make room for a connection from `addr`. -/
def dropOldest (s : HttpServer Ctx Reply) (addr : IpAddress) : HttpServer Ctx Reply :=
  let same := s.fromSameAddress addr
  if httpMaxConnectionsFromSameAddress ≤ same.length then
    match s.oldest same with
    | none => s
    | some id => { s.stopConnection id with connections := s.connections.erase id }
  else s

/-- The new connection enters the table, with its owner set. -/
def insertConnection (s : HttpServer Ctx Reply) (addr : IpAddress) (now position : ℕ) :
    HttpServer Ctx Reply :=
  let con : Connection Ctx Reply := { remoteAddr := addr, startTime := now, owner := true }
  { s with
    objects := s.objects ++ [con]
    connections := s.connections.take position ++ s.objects.length :: s.connections.drop position }

/-- The handler of an accepted connection; an exception leaves it if the address of the other side
cannot be found out. -/
def handleConnection (s : HttpServer Ctx Reply) (a : Accepted) : HttpServer Ctx Reply × Outcome :=
  let wasEmpty := s.connections.isEmpty
  match a.remoteAddr with
  | none => (s, .raised)
  | some addr =>
    let s := s.dropOldest addr
    match a.remoteAddr' with
    | none => (s, .raised)
    | some addr =>
      let s := (s.insertConnection addr a.now a.position).read s.objects.length
      (if wasEmpty then s.scheduleGC else s, .returned)

/-- `listen` raises if `listenOk` is not set. -/
def accept (s : HttpServer Ctx Reply) (listenOk : Bool) : HttpServer Ctx Reply × Outcome :=
  if listenOk then ({ s with accepting := true }, .returned) else (s, .raised)

/-- The handler is set, and the first connection is waited for. -/
def start (s : HttpServer Ctx Reply) (listenOk : Bool) : HttpServer Ctx Reply × Outcome :=
  { s with handler := true }.accept listenOk

/-- No new connections. -/
def closeAcceptor (s : HttpServer Ctx Reply) : HttpServer Ctx Reply :=
  { s with handler := false, acceptorOpen := false }.cancelGC

/-- The acceptor and all connections are closed. -/
def stop (s : HttpServer Ctx Reply) : HttpServer Ctx Reply :=
  { s.closeAcceptor.connections.foldl stopConnection s.closeAcceptor with connections := [] }

/-! ### Completion handlers -/

/-- The handler of an accept. -/
def acceptHandler (s : HttpServer Ctx Reply) (ec : ErrorCode) (a : Accepted) (listenOk : Bool) :
    Option (HttpServer Ctx Reply × Outcome) :=
  if !s.accepting then none
  else
    let s := { s with accepting := false }
    if !s.handler then some (s, .returned)
    else
      match ec with
      | .other => some (s, .fatal)
      | .operationAborted => some (s, .returned)
      | .success =>
        match s.handleConnection a with
        | (s, .returned) => some (s.accept listenOk)
        | r => some r

/-- The timer runs out. -/
def gcExpires (s : HttpServer Ctx Reply) (ec : ErrorCode) : Option (HttpServer Ctx Reply) :=
  if s.gcPending && ec ≠ .operationAborted then
    some { s with gcPending := false, gcQueued := s.gcQueued ++ [ec] }
  else none

/-- The connection has lasted too long. -/
def isStale (s : HttpServer Ctx Reply) (now : ℕ) (id : ℕ) : Bool :=
  httpMaxConnectionDuration < now - s.startTime id

/-- Drop the connections that have lasted too long. -/
def dropStale (s : HttpServer Ctx Reply) (now : ℕ) : HttpServer Ctx Reply :=
  { (s.connections.filter (s.isStale now)).foldl stopConnection s with
    connections := s.connections.filter fun id => !s.isStale now id }

/-- The queued handler number `k` of the timer. -/
def gcHandler (s : HttpServer Ctx Reply) (k now : ℕ) : Option (HttpServer Ctx Reply × Outcome) :=
  match s.gcQueued[k]? with
  | none => none
  | some ec =>
    let s := { s with gcQueued := s.gcQueued.eraseIdx k }
    if !s.handler then some (s, .returned)
    else
      match ec with
      | .other => some (s, .fatal)
      | .operationAborted => some (s, .returned)
      | .success =>
        let s := s.dropStale now
        some (if s.connections = [] then s else s.scheduleGC, .returned)

/-- `HttpServerImpl::handleHttpRequest`, in front of the one of the handler. -/
def handleHttpRequest (E : HttpEnv Ctx Doc Reply σ) (s : HttpServer Ctx Reply) :
    HttpEnv Ctx Doc Reply σ :=
  { E with handleHttpRequest := fun h doc =>
      if s.handler then E.handleHttpRequest h doc else (none, h) }

/-- The handler of a read. -/
def readHandler (E : HttpEnv Ctx Doc Reply σ) (s : HttpServer Ctx Reply) (h : σ) (id : ℕ)
    (ec : ErrorCode) (bytes : List UInt8) : Option (HttpServer Ctx Reply × σ) :=
  match s.objects[id]? with
  | none => none
  | some c =>
    if c.pending ≠ some .read || httpReadBufferSize < bytes.length then none
    else
      let s := s.update id fun c => { c with pending := none }
      if !c.owner then some (s, h)
      else
        match ec with
        | .other => some (s.onConnectionFinished id, h)
        | .operationAborted => some (s, h)
        | .success =>
          let r := c.parsing.parseIncoming (s.handleHttpRequest E) h bytes
          let s := s.update id fun c => { c with parsing := r.conn }
          match r.result with
          | .continue => some (s.read id, r.handler)
          | .done => some (s.write id !r.conn.keepAlive, r.handler)
          | .error => some (s.write id true, r.handler)

/-- The handler of a write. -/
def writeHandler (s : HttpServer Ctx Reply) (id : ℕ) (ec : ErrorCode) :
    Option (HttpServer Ctx Reply) :=
  match s.objects[id]? with
  | none => none
  | some c =>
    match c.pending with
    | none | some .read => none
    | some (.write finalWrite) =>
      let s := s.update id fun c => { c with pending := none }
      if !c.owner then some s
      else
        match ec with
        | .other => some (s.onConnectionFinished id)
        | .operationAborted => some s
        | .success => some (if finalWrite then s.onConnectionFinished id else s.read id)

/-- The effects of the handler of an accept, when the accept is over. -/
inductive AcceptHandled (s : HttpServer Ctx Reply) (a : Accepted) (listenOk : Bool) :
    ErrorCode → HttpServer Ctx Reply → Outcome → Prop where
  | ignored {ec : ErrorCode} (hec : s.handler = false ∨ ec = .operationAborted) :
    AcceptHandled s a listenOk ec s .returned
  | failed (hh : s.handler = true) : AcceptHandled s a listenOk .other s .fatal
  | accepted (hh : s.handler = true) {t t' : HttpServer Ctx Reply} {o : Outcome}
    (hc : s.handleConnection a = (t, .returned)) (ha : t.accept listenOk = (t', o)) :
    AcceptHandled s a listenOk .success t' o
  | refused (hh : s.handler = true) {t : HttpServer Ctx Reply} {o : Outcome}
    (hc : s.handleConnection a = (t, o)) (ho : o ≠ .returned) :
    AcceptHandled s a listenOk .success t o

/-- The effects of a handler of the timer, which has left the queue. -/
inductive GcHandled (s : HttpServer Ctx Reply) (now : ℕ) :
    ErrorCode → HttpServer Ctx Reply → Outcome → Prop where
  | ignored {ec : ErrorCode} (hec : s.handler = false ∨ ec = .operationAborted) :
    GcHandled s now ec s .returned
  | failed (hh : s.handler = true) : GcHandled s now .other s .fatal
  | expired (hh : s.handler = true) :
    GcHandled s now .success (if (s.dropStale now).connections = [] then s.dropStale now
      else (s.dropStale now).scheduleGC) .returned

/-- The effects of the handler of a read on the connection `c`, whose read is over. -/
inductive ReadHandled (E : HttpEnv Ctx Doc Reply σ) (s : HttpServer Ctx Reply) (h : σ) (id : ℕ)
    (c : Connection Ctx Reply) (bytes : List UInt8) :
    ErrorCode → HttpServer Ctx Reply → σ → Prop where
  | ignored {ec : ErrorCode} (hec : c.owner = false ∨ ec = .operationAborted) :
    ReadHandled E s h id c bytes ec s h
  | failed (ho : c.owner = true) : ReadHandled E s h id c bytes .other (s.onConnectionFinished id) h
  | continues (ho : c.owner = true)
    (hr : (c.parsing.parseIncoming (s.handleHttpRequest E) h bytes).result = .continue) :
    ReadHandled E s h id c bytes .success
      ((s.update id fun c' => { c' with
        parsing := (c.parsing.parseIncoming (s.handleHttpRequest E) h bytes).conn }).read id)
      (c.parsing.parseIncoming (s.handleHttpRequest E) h bytes).handler
  | replies (ho : c.owner = true) {finalWrite : Bool}
    (hr : (c.parsing.parseIncoming (s.handleHttpRequest E) h bytes).result = .done ∧ finalWrite =
        !(c.parsing.parseIncoming (s.handleHttpRequest E) h bytes).conn.keepAlive ∨
      (c.parsing.parseIncoming (s.handleHttpRequest E) h bytes).result = .error ∧
        finalWrite = true) :
    ReadHandled E s h id c bytes .success
      ((s.update id fun c' => { c' with
        parsing := (c.parsing.parseIncoming (s.handleHttpRequest E) h bytes).conn }).write id
          finalWrite)
      (c.parsing.parseIncoming (s.handleHttpRequest E) h bytes).handler

/-- The effects of the handler of a write. -/
inductive WriteHandled (s : HttpServer Ctx Reply) (id : ℕ) (c : Connection Ctx Reply) :
    ErrorCode → HttpServer Ctx Reply → Prop where
  | ignored {ec : ErrorCode} (hec : c.owner = false ∨ ec = .operationAborted) :
    WriteHandled s id c ec s
  | finished {ec : ErrorCode} (ho : c.owner = true)
    (hec : ec = .other ∨ ec = .success ∧ c.pending = some (.write true)) :
    WriteHandled s id c ec (s.onConnectionFinished id)
  | reads (ho : c.owner = true) (hp : c.pending = some (.write false)) :
    WriteHandled s id c .success (s.read id)

section Handled

variable {s s' : HttpServer Ctx Reply} {h h' : σ} {id : ℕ} {ec : ErrorCode} {o : Outcome}

theorem acceptHandled {a : Accepted} {listenOk : Bool}
    (hr : s.acceptHandler ec a listenOk = some (s', o)) :
    AcceptHandled { s with accepting := false } a listenOk ec s' o := by
  unfold acceptHandler at hr
  dsimp only at hr
  split at hr
  · cases hr
  · split at hr
    · rename_i hh
      cases hr
      exact .ignored (.inl (by simpa using hh))
    · rename_i hh
      have hhandler : ({ s with accepting := false } : HttpServer Ctx Reply).handler = true :=
      (by simpa using hh : s.handler = true)
      split at hr
      · cases hr
        exact .failed hhandler
      · cases hr
        exact .ignored (.inr rfl)
      · split at hr
        · exact .accepted hhandler ‹_› (Option.some.inj hr)
        · rename_i hne
          have hc := Option.some.inj hr
          refine .refused hhandler hc ?_
          rintro rfl
          exact hne s' hc

theorem gcHandled {k now : ℕ} (hr : s.gcHandler k now = some (s', o)) :
    ∃ ec, s.gcQueued[k]? = some ec ∧
      GcHandled { s with gcQueued := s.gcQueued.eraseIdx k } now ec s' o := by
  unfold gcHandler at hr
  split at hr
  · cases hr
  rename_i ec hk
  refine ⟨ec, hk, ?_⟩
  dsimp only at hr
  split at hr
  · rename_i hh
    cases hr
    exact .ignored (.inl (by simpa using hh))
  · rename_i hh
    have hhandler : s.handler = true := by simpa using hh
    split at hr <;> cases hr
    · exact .failed hhandler
    · exact .ignored (.inr rfl)
    · exact .expired hhandler

theorem readHandled {E : HttpEnv Ctx Doc Reply σ} {bytes : List UInt8}
    (hr : s.readHandler E h id ec bytes = some (s', h')) :
    ∃ c, s.objects[id]? = some c ∧ c.pending = some .read ∧ bytes.length ≤ httpReadBufferSize ∧
      ReadHandled E (s.update id fun c => { c with pending := none }) h id c bytes ec s' h' := by
  unfold readHandler at hr
  split at hr
  · cases hr
  rename_i c hc
  dsimp only at hr
  split_ifs at hr with hready ho
  all_goals
    obtain ⟨hp, hlen⟩ : c.pending = some .read ∧ bytes.length ≤ httpReadBufferSize := by
      simpa using hready
    refine ⟨c, hc, hp, hlen, ?_⟩
  · cases hr
    exact .ignored (.inl (by simpa using ho))
  · have howner : c.owner = true := by simpa using ho
    split at hr
    · cases hr
      exact .failed howner
    · cases hr
      exact .ignored (.inr rfl)
    · split at hr <;> cases hr
      · exact .continues howner ‹_›
      · exact .replies howner (.inl ⟨‹_›, rfl⟩)
      · exact .replies howner (.inr ⟨‹_›, rfl⟩)

theorem writeHandled (hr : s.writeHandler id ec = some s') :
    ∃ c, s.objects[id]? = some c ∧
      WriteHandled (s.update id fun c => { c with pending := none }) id c ec s' := by
  unfold writeHandler at hr
  split at hr
  · cases hr
  rename_i c hc
  split at hr
  · cases hr
  · cases hr
  rename_i finalWrite hp
  refine ⟨c, hc, ?_⟩
  dsimp only at hr
  split at hr
  · rename_i ho
    cases hr
    exact .ignored (.inl (by simpa using ho))
  · rename_i ho
    have howner : c.owner = true := by simpa using ho
    split at hr <;> cases hr
    · exact .finished howner (.inl rfl)
    · exact .ignored (.inr rfl)
    · cases finalWrite with
      | true => exact .finished howner (.inr ⟨rfl, hp⟩)
      | false => exact .reads howner hp

end Handled

/-! ### Owners -/

/-- A connection that has an owner is in the table. -/
def Owned (s : HttpServer Ctx Reply) : Prop :=
  ∀ (id : ℕ) (c : Connection Ctx Reply), s.objects[id]? = some c → c.owner = true →
    id ∈ s.connections

/-- What everything but `start` and `stop` preserves. -/
structure Keeps (s s' : HttpServer Ctx Reply) : Prop where
  handler : s'.handler = s.handler
  owned : s.Owned → s'.Owned

section Keeps

variable {s s' s'' : HttpServer Ctx Reply} {h h' : σ} {id : ℕ} {ec : ErrorCode} {o : Outcome}

theorem Keeps.refl (s : HttpServer Ctx Reply) : Keeps s s := ⟨rfl, id⟩

theorem Keeps.trans (h : Keeps s s') (h' : Keeps s' s'') : Keeps s s'' :=
  ⟨h'.handler.trans h.handler, h'.owned ∘ h.owned⟩

/-- Only the connections matter for `Owned`. -/
theorem Keeps.of_eq (hh : s'.handler = s.handler) (ho : s'.objects = s.objects)
    (hc : s'.connections = s.connections) : Keeps s s' := by
  refine ⟨hh, fun hs id c => ?_⟩
  rw [ho, hc]
  exact hs id c

theorem update_getElem?_eq_some {f : Connection Ctx Reply → Connection Ctx Reply} {j : ℕ}
    {c : Connection Ctx Reply} :
    (s.update id f).objects[j]? = some c ↔
      ∃ c₀, s.objects[j]? = some c₀ ∧ (if id = j then f c₀ else c₀) = c := by
  simp only [update, List.getElem?_modify, Option.map_eq_map, Option.map_eq_some_iff]

/-- A change of one connection that does not give it an owner. -/
theorem Keeps.update (s : HttpServer Ctx Reply) (id : ℕ)
    (f : Connection Ctx Reply → Connection Ctx Reply)
    (hf : ∀ c, (f c).owner = true → c.owner = true) : Keeps s (s.update id f) := by
  refine ⟨rfl, fun hs j c hc ho => ?_⟩
  obtain ⟨c₀, hc₀, rfl⟩ := update_getElem?_eq_some.1 hc
  refine hs j c₀ hc₀ ?_
  split_ifs at ho
  · exact hf c₀ ho
  · exact ho

theorem keeps_read (s : HttpServer Ctx Reply) (id : ℕ) : Keeps s (s.read id) :=
  (Keeps.update s id (fun c => { c with pending := some .read }) fun _ h => h).trans
    (.of_eq rfl rfl rfl)

theorem keeps_write (s : HttpServer Ctx Reply) (id : ℕ) (finalWrite : Bool) :
    Keeps s (s.write id finalWrite) :=
  (Keeps.update s id (fun c => { c with pending := some (.write finalWrite) }) fun _ h => h).trans
    (.of_eq rfl rfl rfl)

theorem keeps_cancelGC (s : HttpServer Ctx Reply) : Keeps s s.cancelGC := by
  unfold cancelGC
  split_ifs
  · exact .of_eq rfl rfl rfl
  · exact .refl s

theorem keeps_scheduleGC (s : HttpServer Ctx Reply) : Keeps s s.scheduleGC :=
  (keeps_cancelGC s).trans (.of_eq rfl rfl rfl)

/-- Stopping connections changes nothing else. -/
theorem foldl_stopConnection_eq (ids : List ℕ) (s : HttpServer Ctx Reply) :
    ids.foldl stopConnection s = { s with objects := (ids.foldl stopConnection s).objects } := by
  induction ids generalizing s with
  | nil => rfl
  | cons id ids ih =>
    rw [List.foldl_cons, ih]
    rfl

/-- A connection that still has its owner was not stopped. -/
theorem owner_of_foldl_stopConnection {ids : List ℕ} {j : ℕ} {c : Connection Ctx Reply}
    (hc : (ids.foldl stopConnection s).objects[j]? = some c) (ho : c.owner = true) :
    j ∉ ids ∧ s.objects[j]? = some c := by
  induction ids generalizing s with
  | nil => exact ⟨by simp, hc⟩
  | cons id ids ih =>
    obtain ⟨hj, hc⟩ := ih hc
    obtain ⟨c₀, hc₀, rfl⟩ := update_getElem?_eq_some.1 hc
    split_ifs at ho hc ⊢ with hid
    · refine ⟨?_, hc₀⟩
      simp only [List.mem_cons, not_or]
      exact ⟨Ne.symm hid, hj⟩

/-- Connections are stopped and leave the table. -/
theorem keeps_remove (s : HttpServer Ctx Reply) (ids cs : List ℕ)
    (hcs : ∀ j ∈ s.connections, j ∉ ids → j ∈ cs) :
    Keeps s { ids.foldl stopConnection s with connections := cs } := by
  constructor
  · show (ids.foldl stopConnection s).handler = s.handler
    rw [foldl_stopConnection_eq]
  · intro hs j c hc ho
    obtain ⟨hj, hc⟩ := owner_of_foldl_stopConnection hc ho
    exact hcs j (hs j c hc ho) hj

theorem keeps_onConnectionFinished (s : HttpServer Ctx Reply) (id : ℕ) :
    Keeps s (s.onConnectionFinished id) := by
  have hrem : Keeps s ({ s with connections := s.connections.erase id }.stopConnection id) :=
    keeps_remove s [id] (s.connections.erase id) fun j hj hne =>
      (List.mem_erase_of_ne (by simpa using hne)).2 hj
  unfold onConnectionFinished
  dsimp only
  split_ifs
  · exact hrem.trans (keeps_cancelGC _)
  · exact hrem

theorem keeps_dropOldest (s : HttpServer Ctx Reply) (addr : IpAddress) :
    Keeps s (s.dropOldest addr) := by
  unfold dropOldest
  dsimp only
  split_ifs
  · split
    · exact .refl s
    · rename_i id _
      exact keeps_remove s [id] (s.connections.erase id) fun j hj hne =>
        (List.mem_erase_of_ne (by simpa using hne)).2 hj
  · exact .refl s

theorem keeps_insertConnection (s : HttpServer Ctx Reply) (addr : IpAddress) (now position : ℕ) :
    Keeps s (s.insertConnection addr now position) := by
  refine ⟨rfl, fun hs j c hc ho => ?_⟩
  -- an old connection stays in the table, and the new one is put into it
  simp only [insertConnection, List.mem_append, List.mem_cons]
  simp only [insertConnection, List.getElem?_append, List.getElem?_singleton] at hc
  split_ifs at hc with hlt hj
  · have hmem := hs j c hc ho
    rw [← List.take_append_drop position s.connections, List.mem_append] at hmem
    exact hmem.imp (fun h => h) .inr
  · exact .inr (.inl (by omega))

theorem keeps_handleConnection (s : HttpServer Ctx Reply) (a : Accepted) :
    Keeps s (s.handleConnection a).1 := by
  unfold handleConnection
  dsimp only
  cases a.remoteAddr with
  | none => exact .refl s
  | some addr =>
    have hdrop := keeps_dropOldest s addr
    cases a.remoteAddr' with
    | none => exact hdrop
    | some addr' =>
      have hadd := (hdrop.trans (keeps_insertConnection _ addr' a.now a.position)).trans
        (keeps_read _ (s.dropOldest addr).objects.length)
      dsimp only
      split_ifs
      · exact hadd.trans (keeps_scheduleGC _)
      · exact hadd

theorem handleConnection_outcome (s : HttpServer Ctx Reply) (a : Accepted) :
    (s.handleConnection a).2 = .returned ∨ (s.handleConnection a).2 = .raised := by
  unfold handleConnection
  dsimp only
  cases a.remoteAddr with
  | none => exact .inr rfl
  | some addr =>
    cases a.remoteAddr' with
    | none => exact .inr rfl
    | some addr' => exact .inl rfl

theorem keeps_accept (s : HttpServer Ctx Reply) (listenOk : Bool) :
    Keeps s (s.accept listenOk).1 := by
  cases listenOk with
  | false => exact .refl s
  | true => exact .of_eq rfl rfl rfl

theorem keeps_dropStale (s : HttpServer Ctx Reply) (now : ℕ) : Keeps s (s.dropStale now) := by
  refine keeps_remove s _ _ fun j hj hne => ?_
  rw [List.mem_filter] at hne ⊢
  refine ⟨hj, ?_⟩
  simpa [hj] using hne

theorem acceptHandler_keeps {a : Accepted} {listenOk : Bool}
    (hr : s.acceptHandler ec a listenOk = some (s', o)) : Keeps s s' ∧ o ≠ .continuation := by
  have hpop : Keeps s { s with accepting := false } := .of_eq rfl rfl rfl
  have hconn := keeps_handleConnection { s with accepting := false } a
  cases acceptHandled hr with
  | ignored => exact ⟨hpop, by simp⟩
  | failed => exact ⟨hpop, by simp⟩
  | @accepted _ t _ _ hc ha =>
    have hacc := keeps_accept t listenOk
    rw [hc] at hconn
    rw [ha] at hacc
    refine ⟨(hpop.trans hconn).trans hacc, ?_⟩
    rintro rfl
    cases listenOk <;> simp [accept] at ha
  | refused _ hc ho =>
    have hout := handleConnection_outcome { s with accepting := false } a
    rw [hc] at hconn hout
    obtain rfl | rfl := hout
    · exact absurd rfl ho
    · exact ⟨hpop.trans hconn, by simp⟩

theorem gcExpires_keeps (hr : s.gcExpires ec = some s') : Keeps s s' := by
  unfold gcExpires at hr
  split_ifs at hr
  exact Option.some.inj hr ▸ .of_eq rfl rfl rfl

theorem gcHandler_keeps {k now : ℕ} (hr : s.gcHandler k now = some (s', o)) :
    Keeps s s' ∧ o ≠ .continuation := by
  have hpop : Keeps s { s with gcQueued := s.gcQueued.eraseIdx k } := .of_eq rfl rfl rfl
  have hstale := hpop.trans (keeps_dropStale _ now)
  obtain ⟨ec, -, hcase⟩ := gcHandled hr
  cases hcase with
  | ignored => exact ⟨hpop, by simp⟩
  | failed => exact ⟨hpop, by simp⟩
  | expired =>
    refine ⟨?_, by simp⟩
    split_ifs
    · exact hstale
    · exact hstale.trans (keeps_scheduleGC _)

/-- A read keeps what every request keeps. -/
theorem readHandler_keeps {E : HttpEnv Ctx Doc Reply σ} {bytes : List UInt8} {P : σ → Prop}
    (hP : ∀ h doc, P h → P (E.handleHttpRequest h doc).2) (hh : P h)
    (hr : s.readHandler E h id ec bytes = some (s', h')) : Keeps s s' ∧ P h' := by
  have hP' : ∀ (s : HttpServer Ctx Reply) h doc, P h →
      P ((s.handleHttpRequest E).handleHttpRequest h doc).2 := by
    intro s h doc hh
    simp only [handleHttpRequest]
    split_ifs
    · exact hP h doc hh
    · exact hh
  have hpop := Keeps.update s id (fun c => { c with pending := none }) fun _ h => h
  obtain ⟨c, -, -, -, hcase⟩ := readHandled hr
  have hparsed := hpop.trans (Keeps.update _ id (fun c' => { c' with
    parsing := (c.parsing.parseIncoming (handleHttpRequest E
      (s.update id fun c => { c with pending := none })) h bytes).conn }) fun _ h => h)
  cases hcase with
  | ignored => exact ⟨hpop, hh⟩
  | failed => exact ⟨hpop.trans (keeps_onConnectionFinished _ id), hh⟩
  | continues =>
    exact ⟨hparsed.trans (keeps_read _ id), HttpConnection.parseIncoming_handler (hP' _) hh⟩
  | replies =>
    exact ⟨hparsed.trans (keeps_write _ id _), HttpConnection.parseIncoming_handler (hP' _) hh⟩

theorem writeHandler_keeps (hr : s.writeHandler id ec = some s') : Keeps s s' := by
  have hpop := Keeps.update s id (fun c => { c with pending := none }) fun _ h => h
  obtain ⟨c, -, hcase⟩ := writeHandled hr
  cases hcase with
  | ignored => exact hpop
  | finished => exact hpop.trans (keeps_onConnectionFinished _ id)
  | reads => exact hpop.trans (keeps_read _ id)

end Keeps

/-! ### After `stop` -/

/-- No handler, and no connection with an owner. -/
structure Deaf (s : HttpServer Ctx Reply) : Prop where
  handler : s.handler = false
  unowned : ∀ (id : ℕ) (c : Connection Ctx Reply), s.objects[id]? = some c → c.owner = false

section Deaf

variable {s s' : HttpServer Ctx Reply} {h h' : σ} {id : ℕ} {ec : ErrorCode} {o : Outcome}

/-- `stop` leaves nobody who could react. -/
theorem stop_deaf (hs : s.Owned) : s.stop.Deaf := by
  -- all owned connections are in the table, and the whole table is stopped
  have howned : s.closeAcceptor.Owned := (keeps_cancelGC _).owned hs
  have hhandler : s.closeAcceptor.handler = false := (keeps_cancelGC _).handler
  constructor
  · show (List.foldl stopConnection _ _).handler = false
    rw [foldl_stopConnection_eq]
    exact hhandler
  · intro id c hc
    by_contra ho
    rw [Bool.not_eq_false] at ho
    obtain ⟨hid, hc⟩ := owner_of_foldl_stopConnection hc ho
    exact hid (howned id c hc ho)

/-- Only the owners matter. -/
theorem Deaf.of_eq (hs : s.Deaf) (hh : s'.handler = s.handler) (ho : s'.objects = s.objects) :
    s'.Deaf := by
  refine ⟨hh.trans hs.handler, ?_⟩
  rw [ho]
  exact hs.unowned

theorem Deaf.update (hs : s.Deaf) (f : Connection Ctx Reply → Connection Ctx Reply)
    (hf : ∀ c, (f c).owner = c.owner) : (s.update id f).Deaf := by
  refine ⟨hs.handler, fun j c hc => ?_⟩
  obtain ⟨c₀, hc₀, rfl⟩ := update_getElem?_eq_some.1 hc
  have := hs.unowned j c₀ hc₀
  split_ifs
  · rw [hf, this]
  · exact this

theorem acceptHandler_deaf {a : Accepted} {listenOk : Bool} (hs : s.Deaf)
    (hr : s.acceptHandler ec a listenOk = some (s', o)) :
    s'.Deaf ∧ s'.started = s.started ∧ o = .returned := by
  cases acceptHandled hr with
  | ignored => exact ⟨hs.of_eq rfl rfl, rfl, rfl⟩
  | failed hh | accepted hh | refused hh =>
    rw [hs.handler] at hh
    cases hh

theorem gcExpires_deaf (hs : s.Deaf) (hr : s.gcExpires ec = some s') :
    s'.Deaf ∧ s'.started = s.started := by
  unfold gcExpires at hr
  split_ifs at hr
  obtain rfl := Option.some.inj hr
  exact ⟨hs.of_eq rfl rfl, rfl⟩

theorem gcHandler_deaf {k now : ℕ} (hs : s.Deaf) (hr : s.gcHandler k now = some (s', o)) :
    s'.Deaf ∧ s'.started = s.started ∧ o = .returned := by
  obtain ⟨ec, -, hcase⟩ := gcHandled hr
  cases hcase with
  | ignored => exact ⟨hs.of_eq rfl rfl, rfl, rfl⟩
  | failed hh | expired hh =>
    rw [hs.handler] at hh
    cases hh

theorem readHandler_deaf {E : HttpEnv Ctx Doc Reply σ} {bytes : List UInt8} (hs : s.Deaf)
    (hr : s.readHandler E h id ec bytes = some (s', h')) :
    s'.Deaf ∧ s'.started = s.started ∧ h' = h := by
  obtain ⟨c, hc, -, -, hcase⟩ := readHandled hr
  have hunowned := hs.unowned id c hc
  cases hcase with
  | ignored => exact ⟨hs.update _ fun _ => rfl, rfl, rfl⟩
  | failed ho | continues ho | replies ho =>
    rw [hunowned] at ho
    cases ho

theorem writeHandler_deaf (hs : s.Deaf) (hr : s.writeHandler id ec = some s') :
    s'.Deaf ∧ s'.started = s.started := by
  obtain ⟨c, hc, hcase⟩ := writeHandled hr
  have hunowned := hs.unowned id c hc
  cases hcase with
  | ignored => exact ⟨hs.update _ fun _ => rfl, rfl⟩
  | finished ho | reads ho =>
    rw [hunowned] at ho
    cases ho

end Deaf

end HttpServer

end Wsddn

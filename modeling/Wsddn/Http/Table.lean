import Mathlib.Data.List.Nodup
import Wsddn.Http.Server
import Wsddn.Machine.Basic

/-!
# The table of connections (`HttpServerImpl` of `http_server.cpp`)

`HttpServer.machine` is one HTTP server after `start` has returned: its events are `stop`, the
completion handlers of its accepts, of its timer and of the operations of its connections, in any
order, and changes of its handler by other parts of the daemon.

* `HttpServer.Inv` : what is true of the table in every state: a connection has an owner exactly if
  it is in the table, no address has more than twenty connections, and while there are connections
  there is a wait for the timer that will end.
* `HttpServer.Admits` : what `handleConnection` does to the table.
* `HttpServer.table_invariant` : both, for every run in which the peers of the accepted sockets are
  known.
-/

namespace Wsddn

namespace HttpServer

variable {Ctx Doc Reply σ : Type*}

/-- A server in the event loop, with the state of its handler. -/
structure Serving (Ctx Reply σ : Type*) where
  server : HttpServer Ctx Reply
  handler : σ
  /-- An exception has left the event loop. -/
  raised : Bool := false

/-- What can happen to a started server. -/
inductive Event (σ : Type*) where
  | stop
  | accepted (ec : ErrorCode) (a : Accepted) (listenOk : Bool)
  | timer (ec : ErrorCode)
  | gc (k now : ℕ)
  | read (con : ℕ) (ec : ErrorCode) (bytes : List UInt8)
  | write (con : ℕ) (ec : ErrorCode)
  /-- Another part of the daemon changes the handler. -/
  | handler (h : σ)

/-- The last action of a completion handler: `onFatalHttpError` leads to `stop`. -/
def Serving.finish (x : Serving Ctx Reply σ) (s : HttpServer Ctx Reply) :
    Outcome → Serving Ctx Reply σ
  | .returned => { x with server := s }
  | .fatal | .continuation => { x with server := s.stop }
  | .raised => { x with server := s, raised := true }

/-- What happens in an event; nothing happens after an exception has left the event loop. -/
def step (E : HttpEnv Ctx Doc Reply σ) (x : Serving Ctx Reply σ) (l : Event σ) :
    Option (Serving Ctx Reply σ) :=
  if x.raised then none
  else
    match l with
    | .stop => some { x with server := x.server.stop }
    | .accepted ec a listenOk =>
      (x.server.acceptHandler ec a listenOk).map fun (s, o) => x.finish s o
    | .timer ec => (x.server.gcExpires ec).map fun s => { x with server := s }
    | .gc k now => (x.server.gcHandler k now).map fun (s, o) => x.finish s o
    | .read id ec bytes =>
      (x.server.readHandler E x.handler id ec bytes).map fun (s, h) =>
        { x with server := s, handler := h }
    | .write id ec => (x.server.writeHandler id ec).map fun s => { x with server := s }
    | .handler h => some { x with handler := h }

/-- A server after `start` has returned. -/
def machine (E : HttpEnv Ctx Doc Reply σ) : Machine (Serving Ctx Reply σ) (Event σ) where
  init x := start {} true = (x.server, .returned) ∧ x.raised = false
  step := step E

/-! ### The invariant -/

/-- The connection has an owner. -/
def owned (s : HttpServer Ctx Reply) (id : ℕ) : Bool := (s.objects[id]?).any (·.owner)

/-- The address of a connection. -/
def remoteAddr (s : HttpServer Ctx Reply) (id : ℕ) : Option IpAddress :=
  (s.objects[id]?).map (·.remoteAddr)

/-- A wait for the timer is pending, or has ended and its handler is queued; that handler is not
one of a cancelled wait, so it goes through the table. -/
def Watched (s : HttpServer Ctx Reply) : Prop :=
  s.gcPending = true ∨ ∃ ec ∈ s.gcQueued, ec ≠ .operationAborted

/-- What is true of the table of connections. -/
structure Table (s : HttpServer Ctx Reply) : Prop where
  nodup : s.connections.Nodup
  owner : ∀ id, s.owned id = true ↔ id ∈ s.connections
  few : ∀ addr, (s.fromSameAddress addr).length ≤ httpMaxConnectionsFromSameAddress
  stopped : s.handler = false → s.connections = []

/-- What is true of the table and of its timer. -/
structure Inv (s : HttpServer Ctx Reply) : Prop extends Table s where
  watched : s.connections ≠ [] → s.Watched

section Inv

variable {s s' s'' : HttpServer Ctx Reply} {h h' : σ} {id : ℕ} {ec : ErrorCode} {o : Outcome}

theorem fromSameAddress_eq (s : HttpServer Ctx Reply) (addr : IpAddress) :
    s.fromSameAddress addr = s.connections.filter fun id => s.remoteAddr id = some addr := by
  unfold fromSameAddress remoteAddr
  congr 1
  funext id
  cases s.objects[id]? <;> simp

/-- Nothing of the invariant changes. -/
structure Same (s s' : HttpServer Ctx Reply) : Prop where
  handler : s'.handler = s.handler
  connections : s'.connections = s.connections
  owned : ∀ id, s'.owned id = s.owned id
  remoteAddr : ∀ id, s'.remoteAddr id = s.remoteAddr id
  gcPending : s'.gcPending = s.gcPending
  gcQueued : s'.gcQueued = s.gcQueued

theorem Same.trans (h : Same s s') (h' : Same s' s'') : Same s s'' where
  handler := h'.handler.trans h.handler
  connections := h'.connections.trans h.connections
  owned id := (h'.owned id).trans (h.owned id)
  remoteAddr id := (h'.remoteAddr id).trans (h.remoteAddr id)
  gcPending := h'.gcPending.trans h.gcPending
  gcQueued := h'.gcQueued.trans h.gcQueued

/-- A change of one connection that keeps its owner and its address. -/
theorem Same.update (s : HttpServer Ctx Reply) (id : ℕ)
    (f : Connection Ctx Reply → Connection Ctx Reply) (ho : ∀ c, (f c).owner = c.owner)
    (ha : ∀ c, (f c).remoteAddr = c.remoteAddr) : Same s (s.update id f) := by
  refine ⟨rfl, rfl, fun j => ?_, fun j => ?_, rfl, rfl⟩
  · simp only [HttpServer.owned, HttpServer.update, List.getElem?_modify]
    cases s.objects[j]? with
    | none => rfl
    | some c => by_cases hj : id = j <;> simp [hj, ho]
  · simp only [HttpServer.remoteAddr, HttpServer.update, List.getElem?_modify]
    cases s.objects[j]? with
    | none => rfl
    | some c => by_cases hj : id = j <;> simp [hj, ha]

theorem Same.parsing (s : HttpServer Ctx Reply) (id : ℕ) (p : HttpConnection Ctx Reply) :
    Same s (s.update id fun c => { c with parsing := p }) :=
  .update s id _ (fun _ => rfl) fun _ => rfl

theorem same_read (s : HttpServer Ctx Reply) (id : ℕ) : Same s (s.read id) := by
  have hu := Same.update s id (fun c => { c with pending := some .read }) (fun _ => rfl)
    fun _ => rfl
  exact ⟨hu.handler, hu.connections, hu.owned, hu.remoteAddr, hu.gcPending, hu.gcQueued⟩

theorem same_write (s : HttpServer Ctx Reply) (id : ℕ) (finalWrite : Bool) :
    Same s (s.write id finalWrite) := by
  have hu := Same.update s id (fun c => { c with pending := some (.write finalWrite) })
    (fun _ => rfl) fun _ => rfl
  exact ⟨hu.handler, hu.connections, hu.owned, hu.remoteAddr, hu.gcPending, hu.gcQueued⟩

theorem Same.fromSameAddress (h : Same s s') (addr : IpAddress) :
    s'.fromSameAddress addr = s.fromSameAddress addr := by
  rw [fromSameAddress_eq, fromSameAddress_eq, h.connections]
  congr 1
  funext id
  rw [h.remoteAddr]

theorem Table.of_same (hs : Table s) (h : Same s s') : Table s' where
  nodup := h.connections ▸ hs.nodup
  owner id := by
    rw [h.owned, h.connections]
    exact hs.owner id
  few addr := by
    rw [h.fromSameAddress]
    exact hs.few addr
  stopped hh := by
    rw [h.connections]
    exact hs.stopped (h.handler ▸ hh)

theorem Inv.of_same (hs : Inv s) (h : Same s s') : Inv s' := by
  refine ⟨hs.toTable.of_same h, fun hne => ?_⟩
  rw [h.connections] at hne
  unfold Watched
  rw [h.gcPending, h.gcQueued]
  exact hs.watched hne

/-- The table does not depend on the timer and on the acceptor. -/
theorem Table.of_eq (hs : Table s) (hh : s'.handler = s.handler) (ho : s'.objects = s.objects)
    (hc : s'.connections = s.connections) : Table s' where
  nodup := hc ▸ hs.nodup
  owner id := by
    unfold owned
    rw [ho, hc]
    exact hs.owner id
  few addr := by
    unfold fromSameAddress
    rw [ho, hc]
    exact hs.few addr
  stopped hf := hc ▸ hs.stopped (hh ▸ hf)

/-! ### Connections leave the table -/

theorem owned_foldl_stopConnection (ids : List ℕ) (s : HttpServer Ctx Reply) (j : ℕ) :
    (ids.foldl stopConnection s).owned j = (s.owned j && decide (j ∉ ids)) := by
  induction ids generalizing s with
  | nil => simp
  | cons id ids ih =>
    rw [List.foldl_cons, ih]
    simp only [owned, stopConnection, update, List.getElem?_modify]
    cases s.objects[j]? with
    | none => rfl
    | some c =>
      by_cases hj : id = j
      · simp [hj]
      · simp [hj, Ne.symm hj]

theorem remoteAddr_foldl_stopConnection (ids : List ℕ) (s : HttpServer Ctx Reply) (j : ℕ) :
    (ids.foldl stopConnection s).remoteAddr j = s.remoteAddr j := by
  induction ids generalizing s with
  | nil => rfl
  | cons id ids ih =>
    rw [List.foldl_cons, ih]
    simp only [remoteAddr, stopConnection, update, List.getElem?_modify]
    cases s.objects[j]? with
    | none => rfl
    | some c => by_cases hj : id = j <;> simp [hj]

/-- Some connections are stopped and leave the table. -/
theorem Table.remove (hs : Table s) (ids cs : List ℕ) (hsub : cs.Sublist s.connections)
    (hcs : ∀ j, j ∈ cs ↔ j ∈ s.connections ∧ j ∉ ids) :
    Table { ids.foldl stopConnection s with connections := cs } := by
  refine ⟨hs.nodup.sublist hsub, fun j => ?_, fun addr => ?_, fun hh => ?_⟩
  · show (ids.foldl stopConnection s).owned j = true ↔ j ∈ cs
    rw [owned_foldl_stopConnection, Bool.and_eq_true, hs.owner, decide_eq_true_iff, hcs]
  · rw [fromSameAddress_eq]
    refine Nat.le_trans (List.Sublist.length_le ?_) (fromSameAddress_eq s addr ▸ hs.few addr)
    show (cs.filter fun j => (ids.foldl stopConnection s).remoteAddr j = some addr).Sublist _
    simp only [remoteAddr_foldl_stopConnection]
    exact hsub.filter _
  · rw [foldl_stopConnection_eq ids s] at hh
    exact List.eq_nil_of_subset_nil (hs.stopped hh ▸ hsub.subset)

theorem Table.erase (hs : Table s) (id : ℕ) :
    Table { s.stopConnection id with connections := s.connections.erase id } :=
  hs.remove [id] (s.connections.erase id) List.erase_sublist fun j => by
    rw [hs.nodup.mem_erase_iff, List.mem_singleton, and_comm]

theorem Table.dropStale (hs : Table s) (now : ℕ) : Table (s.dropStale now) := by
  refine hs.remove _ _ List.filter_sublist fun j => ?_
  simp only [List.mem_filter, not_and, Bool.not_eq_true', Bool.not_eq_true]
  exact and_congr_right fun hj => ⟨fun h _ => h, fun h => h hj⟩

/-! ### The timer -/

theorem Table.cancelGC (hs : Table s) : Table s.cancelGC := by
  unfold HttpServer.cancelGC
  split_ifs
  · exact hs.of_eq rfl rfl rfl
  · exact hs

theorem cancelGC_connections (s : HttpServer Ctx Reply) :
    s.cancelGC.connections = s.connections := by
  unfold cancelGC
  split_ifs <;> rfl

/-- With the timer set again, the table is watched over. -/
theorem Table.scheduleGC (hs : Table s) : Inv s.scheduleGC :=
  ⟨hs.cancelGC.of_eq rfl rfl rfl, fun _ => .inl rfl⟩

theorem Inv.onConnectionFinished (hs : Inv s) (id : ℕ) : Inv (s.onConnectionFinished id) := by
  have herase : Table ({ s with connections := s.connections.erase id }.stopConnection id) :=
    hs.toTable.erase id
  unfold HttpServer.onConnectionFinished
  dsimp only
  split_ifs with he
  · exact ⟨herase.cancelGC, fun hne => absurd ((cancelGC_connections _).trans he) hne⟩
  · refine ⟨herase, fun hne => hs.watched fun he => hne ?_⟩
    show s.connections.erase id = []
    rw [he]
    rfl

theorem closeAcceptor_owned (s : HttpServer Ctx Reply) (id : ℕ) :
    s.closeAcceptor.owned id = s.owned id := by
  unfold closeAcceptor HttpServer.cancelGC
  split_ifs <;> rfl

theorem closeAcceptor_connections (s : HttpServer Ctx Reply) :
    s.closeAcceptor.connections = s.connections := by
  unfold closeAcceptor HttpServer.cancelGC
  split_ifs <;> rfl

/-- `stop` empties the table and lets no connection keep its owner. -/
theorem inv_stop (ho : ∀ id, s.owned id = true → id ∈ s.connections) : Inv s.stop := by
  refine ⟨⟨List.nodup_nil, fun id => ?_, fun addr => ?_, fun _ => rfl⟩, fun hne => absurd rfl hne⟩
  · show (s.closeAcceptor.connections.foldl stopConnection s.closeAcceptor).owned id = true ↔ id ∈ []
    rw [owned_foldl_stopConnection, closeAcceptor_owned, closeAcceptor_connections,
      Bool.and_eq_true, decide_eq_true_iff]
    simpa using ho id
  · simp [fromSameAddress, HttpServer.stop]

theorem Inv.stop (hs : Inv s) : Inv s.stop := inv_stop fun id => (hs.owner id).1

/-! ### A connection enters the table -/

theorem oldest_spec {ids : List ℕ} (h : s.oldest ids = some id) :
    id ∈ ids ∧ ∀ j ∈ ids, s.startTime id ≤ s.startTime j := by
  cases ids with
  | nil => simp [oldest] at h
  | cons i ids =>
    rw [oldest, Option.some.injEq] at h
    subst h
    induction ids generalizing i with
    | nil => simp
    | cons j ids ih =>
      rw [List.foldl_cons]
      split_ifs with hlt
      · obtain ⟨hmem, hle⟩ := ih j
        refine ⟨List.mem_cons_of_mem _ hmem, fun k hk => ?_⟩
        rcases List.mem_cons.1 hk with rfl | hk
        · exact Nat.le_trans (hle j List.mem_cons_self) (Nat.le_of_lt hlt)
        · exact hle k hk
      · obtain ⟨hmem, hle⟩ := ih i
        refine ⟨?_, fun k hk => ?_⟩
        · rcases List.mem_cons.1 hmem with he | hmem
          · rw [he]
            exact List.mem_cons_self
          · exact List.mem_cons_of_mem _ (List.mem_cons_of_mem _ hmem)
        · rcases List.mem_cons.1 hk with rfl | hk
          · exact hle k List.mem_cons_self
          · rcases List.mem_cons.1 hk with rfl | hk
            · exact Nat.le_trans (hle i List.mem_cons_self) (not_lt.1 hlt)
            · exact hle k (List.mem_cons_of_mem _ hk)

theorem oldest_isSome {ids : List ℕ} (h : 0 < ids.length) : ∃ id, s.oldest ids = some id := by
  cases ids with
  | nil => simp at h
  | cons i ids => exact ⟨_, rfl⟩

/-- What `dropOldest` does: nothing, or one of the oldest connections from the address leaves. -/
theorem dropOldest_cases (s : HttpServer Ctx Reply) (addr : IpAddress) :
    (s.dropOldest addr = s ∧
      (s.fromSameAddress addr).length < httpMaxConnectionsFromSameAddress) ∨
    ∃ id ∈ s.fromSameAddress addr,
      s.dropOldest addr = { s.stopConnection id with connections := s.connections.erase id } ∧
      httpMaxConnectionsFromSameAddress ≤ (s.fromSameAddress addr).length ∧
      ∀ j ∈ s.fromSameAddress addr, s.startTime id ≤ s.startTime j := by
  unfold dropOldest
  dsimp only
  split_ifs with hfull
  · have hpos : 0 < (s.fromSameAddress addr).length := lt_of_lt_of_le (by decide) hfull
    obtain ⟨id, hid⟩ := oldest_isSome (s := s) hpos
    obtain ⟨hmem, hle⟩ := oldest_spec hid
    rw [hid]
    exact .inr ⟨id, hmem, rfl, hfull, hle⟩
  · exact .inl ⟨rfl, not_le.1 hfull⟩

/-- After `dropOldest` there is room for a connection from the address. -/
theorem Table.dropOldest (hs : Table s) (addr : IpAddress) : Table (s.dropOldest addr) ∧
    ((s.dropOldest addr).fromSameAddress addr).length < httpMaxConnectionsFromSameAddress := by
  obtain ⟨he, hlt⟩ | ⟨id, hid, he, -, -⟩ := dropOldest_cases s addr
  · rw [he]
    exact ⟨hs, hlt⟩
  · rw [he]
    refine ⟨hs.erase id, ?_⟩
    rw [fromSameAddress_eq] at hid ⊢
    have hrem : ∀ j, ({ s.stopConnection id with
        connections := s.connections.erase id } : HttpServer Ctx Reply).remoteAddr j =
        s.remoteAddr j := remoteAddr_foldl_stopConnection [id] s
    simp only [hrem]
    show ((s.connections.erase id).filter _).length < _
    rw [← List.erase_filter, List.length_erase_of_mem hid]
    have := hs.few addr
    rw [fromSameAddress_eq] at this
    have hpos := List.length_pos_of_mem hid
    omega

theorem insertConnection_owned (s : HttpServer Ctx Reply) (addr : IpAddress) (now position id : ℕ) :
    (s.insertConnection addr now position).owned id =
      if id = s.objects.length then true else s.owned id := by
  simp only [owned, insertConnection, List.getElem?_append, List.getElem?_singleton]
  rcases Nat.lt_trichotomy id s.objects.length with hlt | rfl | hgt
  · rw [if_pos hlt, if_neg (Nat.ne_of_lt hlt)]
  · simp
  · rw [if_neg (by omega), if_neg (by omega), if_neg (by omega), List.getElem?_eq_none (by omega)]

theorem insertConnection_remoteAddr (s : HttpServer Ctx Reply) (addr : IpAddress)
    (now position id : ℕ) : (s.insertConnection addr now position).remoteAddr id =
      if id = s.objects.length then some addr else s.remoteAddr id := by
  simp only [remoteAddr, insertConnection, List.getElem?_append, List.getElem?_singleton]
  rcases Nat.lt_trichotomy id s.objects.length with hlt | rfl | hgt
  · rw [if_pos hlt, if_neg (Nat.ne_of_lt hlt)]
  · simp
  · rw [if_neg (by omega), if_neg (by omega), if_neg (by omega), List.getElem?_eq_none (by omega)]

theorem mem_insertConnection (s : HttpServer Ctx Reply) (addr : IpAddress) (now position id : ℕ) :
    id ∈ (s.insertConnection addr now position).connections ↔
      id = s.objects.length ∨ id ∈ s.connections := by
  have hmem : id ∈ s.connections ↔ id ∈ s.connections.take position ∨
      id ∈ s.connections.drop position := by
    rw [← List.mem_append, List.take_append_drop]
  simp only [insertConnection, List.mem_append, List.mem_cons]
  rw [hmem]
  constructor
  · rintro (h | h | h)
    · exact .inr (.inl h)
    · exact .inl h
    · exact .inr (.inr h)
  · rintro (h | h | h)
    · exact .inr (.inl h)
    · exact .inl h
    · exact .inr (.inr h)

/-- The members of the table were made before. -/
theorem Table.lt_of_mem (hs : Table s) (h : id ∈ s.connections) : id < s.objects.length := by
  have ho := (hs.owner id).2 h
  by_contra hge
  rw [owned, List.getElem?_eq_none (Nat.le_of_not_lt hge)] at ho
  simp at ho

theorem perm_insertConnection (s : HttpServer Ctx Reply) (addr : IpAddress) (now position : ℕ) :
    (s.insertConnection addr now position).connections.Perm (s.objects.length :: s.connections) := by
  have := @List.perm_middle _ s.objects.length (s.connections.take position)
    (s.connections.drop position)
  rwa [List.take_append_drop] at this

theorem Table.insertConnection (hs : Table s) {addr : IpAddress} (now position : ℕ)
    (hroom : (s.fromSameAddress addr).length < httpMaxConnectionsFromSameAddress)
    (hh : s.handler = true) : Table (s.insertConnection addr now position) := by
  have hperm := perm_insertConnection s addr now position
  refine ⟨?_, fun id => ?_, fun addr' => ?_, fun hf => ?_⟩
  · rw [hperm.nodup_iff, List.nodup_cons]
    exact ⟨fun h => Nat.lt_irrefl _ (hs.lt_of_mem h), hs.nodup⟩
  · rw [insertConnection_owned, mem_insertConnection]
    split_ifs with hid
    · simp [hid]
    · rw [hs.owner]
      simp [hid]
  · rw [fromSameAddress_eq, (hperm.filter _).length_eq, List.filter_cons]
    -- for the old members the filter is the old one
    have hold : s.connections.filter (fun id =>
        (s.insertConnection addr now position).remoteAddr id = some addr') =
        s.fromSameAddress addr' := by
      rw [fromSameAddress_eq]
      refine List.filter_congr fun id hid => ?_
      rw [insertConnection_remoteAddr, if_neg (Nat.ne_of_lt (hs.lt_of_mem hid))]
    rw [hold, insertConnection_remoteAddr, if_pos rfl]
    have := hs.few addr'
    split_ifs with he
    · obtain rfl : addr = addr' := by simpa using he
      exact hroom
    · exact this
  · exact absurd (hh.symm.trans hf) (by simp)

/-- What `handleConnection` does to the table, for a socket whose peer is `addr`: the new
connection, from `addr'`, is in it, and of the others at most one is not any more, one of the
oldest from the same address. -/
structure Admits (s s' : HttpServer Ctx Reply) (addr addr' : IpAddress) (dropped : Option ℕ) :
    Prop where
  new : s.objects.length ∈ s'.connections ∧ s'.remoteAddr s.objects.length = some addr'
  kept : ∀ id ∈ s.connections, dropped ≠ some id → id ∈ s'.connections
  only : ∀ id ∈ s'.connections, id = s.objects.length ∨ id ∈ s.connections
  oldest : ∀ id, dropped = some id → id ∈ s.fromSameAddress addr ∧
    httpMaxConnectionsFromSameAddress ≤ (s.fromSameAddress addr).length ∧
    ∀ j ∈ s.fromSameAddress addr, s.startTime id ≤ s.startTime j
  untouched : ∀ id < s.objects.length, dropped ≠ some id → s'.objects[id]? = s.objects[id]?

/-- The state in which `handleConnection` leaves the table, before it starts the timer. -/
theorem handleConnection_eq {a : Accepted} {addr addr' : IpAddress} (ha : a.remoteAddr = some addr)
    (ha' : a.remoteAddr' = some addr') :
    s.handleConnection a =
      (if s.connections.isEmpty then
        (((s.dropOldest addr).insertConnection addr' a.now a.position).read
          (s.dropOldest addr).objects.length).scheduleGC
      else ((s.dropOldest addr).insertConnection addr' a.now a.position).read
        (s.dropOldest addr).objects.length, .returned) := by
  unfold handleConnection
  simp only [ha, ha']

theorem dropOldest_objects_length (s : HttpServer Ctx Reply) (addr : IpAddress) :
    (s.dropOldest addr).objects.length = s.objects.length := by
  obtain ⟨he, -⟩ | ⟨id, -, he, -⟩ := dropOldest_cases s addr
  · rw [he]
  · rw [he]
    exact List.length_modify _ _ _

theorem dropOldest_handler (s : HttpServer Ctx Reply) (addr : IpAddress) :
    (s.dropOldest addr).handler = s.handler := (keeps_dropOldest s addr).handler

theorem dropOldest_watched (s : HttpServer Ctx Reply) (addr : IpAddress) :
    (s.dropOldest addr).Watched ↔ s.Watched := by
  obtain ⟨he, -⟩ | ⟨id, -, he, -⟩ := dropOldest_cases s addr <;> rw [he]
  exact Iff.rfl

/-- A connection from an address that both queries give keeps the table in order. -/
theorem Inv.handleConnection (hs : Inv s) {a : Accepted} {addr : IpAddress}
    (ha : a.remoteAddr = some addr) (ha' : a.remoteAddr' = some addr) (hh : s.handler = true) :
    Inv (s.handleConnection a).1 := by
  obtain ⟨hdrop, hroom⟩ := hs.toTable.dropOldest addr
  have hins := (hdrop.insertConnection a.now a.position hroom
    ((dropOldest_handler s addr).trans hh)).of_same (same_read _ s.objects.length)
  rw [handleConnection_eq ha ha', dropOldest_objects_length]
  dsimp only
  split_ifs with hempty
  · exact hins.scheduleGC
  · -- the timer was set when the first connection came
    have hne : s.connections ≠ [] := by simpa using hempty
    exact ⟨hins, fun _ => (dropOldest_watched s addr).2 (hs.watched hne)⟩

theorem scheduleGC_objects (s : HttpServer Ctx Reply) : s.scheduleGC.objects = s.objects := by
  unfold HttpServer.scheduleGC HttpServer.cancelGC
  split_ifs <;> rfl

theorem scheduleGC_connections (s : HttpServer Ctx Reply) :
    s.scheduleGC.connections = s.connections := by
  unfold HttpServer.scheduleGC HttpServer.cancelGC
  split_ifs <;> rfl

/-- **A new connection** is kept, and makes at most one other leave. -/
theorem handleConnection_admits (s : HttpServer Ctx Reply) {a : Accepted} {addr addr' : IpAddress}
    (ha : a.remoteAddr = some addr) (ha' : a.remoteAddr' = some addr') :
    ∃ dropped, Admits s (s.handleConnection a).1 addr addr' dropped := by
  have hlen := dropOldest_objects_length s addr
  have hconn : ∀ id, id ∈ (s.handleConnection a).1.connections ↔
      id = s.objects.length ∨ id ∈ (s.dropOldest addr).connections := by
    intro id
    rw [handleConnection_eq ha ha', ← hlen, ← mem_insertConnection _ addr' a.now a.position]
    dsimp only
    split_ifs
    · rw [scheduleGC_connections]
      rfl
    · rfl
  have hobj : ((s.handleConnection a).1).objects = (((s.dropOldest addr).insertConnection addr'
      a.now a.position).read s.objects.length).objects := by
    rw [handleConnection_eq ha ha', hlen]
    dsimp only
    split_ifs
    · rw [scheduleGC_objects]
    · rfl
  have hnew : s.objects.length ∈ (s.handleConnection a).1.connections ∧
      (s.handleConnection a).1.remoteAddr s.objects.length = some addr' := by
    refine ⟨(hconn _).2 (.inl rfl), ?_⟩
    unfold HttpServer.remoteAddr
    rw [hobj]
    have := insertConnection_remoteAddr (s.dropOldest addr) addr' a.now a.position s.objects.length
    rw [if_pos hlen.symm] at this
    exact ((same_read _ _).remoteAddr _).trans this
  have hkept : ∀ id < s.objects.length,
      (s.handleConnection a).1.objects[id]? = (s.dropOldest addr).objects[id]? := by
    intro id hid
    rw [hobj, HttpServer.read, HttpServer.update]
    dsimp only
    rw [List.getElem?_modify, HttpServer.insertConnection,
      List.getElem?_append_left (by rw [hlen]; exact hid)]
    cases (s.dropOldest addr).objects[id]? with
    | none => rfl
    | some c => simp [Nat.ne_of_gt hid]
  obtain ⟨he, -⟩ | ⟨old, hold, he, hfull, hle⟩ := dropOldest_cases s addr <;> rw [he] at hconn hkept
  · exact ⟨none, hnew, fun id hid _ => (hconn id).2 (.inr hid), fun id => (hconn id).1, by simp,
      fun id hid _ => hkept id hid⟩
  · refine ⟨some old, hnew, fun id hid hne => ?_, fun id hid => ?_, ?_, fun id hid hne => ?_⟩
    · refine (hconn id).2 (.inr ((List.mem_erase_of_ne ?_).2 hid))
      rintro rfl
      exact hne rfl
    · exact ((hconn id).1 hid).imp_right List.mem_of_mem_erase
    · rintro id hid
      obtain rfl := Option.some.inj hid
      exact ⟨hold, hfull, hle⟩
    · rw [hkept id hid]
      show (s.objects.modify old _)[id]? = _
      have : old ≠ id := fun h => hne (congrArg some h)
      rw [List.getElem?_modify]
      cases s.objects[id]? <;> simp [this]

/-! ### Completion handlers -/

theorem Inv.accept (hs : Inv s) (listenOk : Bool) : Inv (s.accept listenOk).1 := by
  cases listenOk with
  | false => exact hs
  | true => exact ⟨hs.toTable.of_eq rfl rfl rfl, hs.watched⟩

theorem Inv.acceptHandler (hs : Inv s) {a : Accepted} {listenOk : Bool}
    (ha : ∃ addr, a.remoteAddr = some addr ∧ a.remoteAddr' = some addr)
    (hr : s.acceptHandler ec a listenOk = some (s', o)) : Inv s' := by
  have hpop : Inv { s with accepting := false } := ⟨hs.toTable.of_eq rfl rfl rfl, hs.watched⟩
  obtain ⟨addr, ha, ha'⟩ := ha
  cases HttpServer.acceptHandled hr with
  | ignored => exact hpop
  | failed => exact hpop
  | accepted hh hc he =>
    have hconn := hpop.handleConnection ha ha' hh
    rw [hc] at hconn
    have hacc := hconn.accept listenOk
    rw [he] at hacc
    exact hacc
  | refused _ hc ho =>
    rw [handleConnection_eq ha ha'] at hc
    exact absurd (congrArg Prod.snd hc).symm ho

theorem Inv.gcExpires (hs : Inv s) (hr : s.gcExpires ec = some s') : Inv s' := by
  unfold HttpServer.gcExpires at hr
  split_ifs at hr with hec
  obtain rfl := Option.some.inj hr
  refine ⟨hs.toTable.of_eq rfl rfl rfl, fun _ => .inr ⟨ec, by simp, ?_⟩⟩
  simp only [Bool.and_eq_true, decide_eq_true_iff] at hec
  exact hec.2

/-- The handler of a cancelled wait is run: another one is still there. -/
theorem watched_eraseIdx {k : ℕ} (hk : s.gcQueued[k]? = some .operationAborted)
    (h : s.Watched) : Watched { s with gcQueued := s.gcQueued.eraseIdx k } := by
  obtain hp | ⟨ec, hec, hne⟩ := h
  · exact .inl hp
  · refine .inr ⟨ec, ?_, hne⟩
    obtain ⟨i, hi⟩ := List.mem_iff_getElem?.1 hec
    refine List.mem_eraseIdx_iff_getElem?.2 ⟨i, ?_, hi⟩
    rintro rfl
    exact hne (Option.some.inj (hi.symm.trans hk))

theorem Inv.gcHandler (hs : Inv s) {k now : ℕ} (hr : s.gcHandler k now = some (s', o)) :
    (o = .returned ∧ Inv s') ∨ (o = .fatal ∧ Inv s'.stop) := by
  have hpop : Table { s with gcQueued := s.gcQueued.eraseIdx k } := hs.toTable.of_eq rfl rfl rfl
  obtain ⟨ec, hk, hcase⟩ := HttpServer.gcHandled hr
  cases hcase with
  | ignored hec =>
    refine .inl ⟨rfl, hpop, fun hne => ?_⟩
    obtain hh | rfl := hec
    · -- after `stop` there are no connections to watch over
      exact absurd (hs.stopped hh) hne
    · exact watched_eraseIdx hk (hs.watched hne)
  | failed => exact .inr ⟨rfl, inv_stop fun id => (hs.owner id).1⟩
  | expired =>
    -- the stale connections leave, and the timer is set again if any are left
    refine .inl ⟨rfl, ?_⟩
    split_ifs with he
    · exact ⟨hpop.dropStale now, fun hne => absurd he hne⟩
    · exact (hpop.dropStale now).scheduleGC

/-- A connection that is not in the table has no owner. -/
theorem Table.owner_eq_false (hs : Table s) {c : Connection Ctx Reply}
    (hc : s.objects[id]? = some c)
    (hid : id ∉ s.connections) : c.owner = false := by
  have := mt (hs.owner id).1 hid
  simpa [owned, hc] using this

theorem Inv.readHandler_of_notMem {E : HttpEnv Ctx Doc Reply σ} {bytes : List UInt8} (hs : Inv s)
    (hid : id ∉ s.connections) (hr : s.readHandler E h id ec bytes = some (s', h')) :
    s' = s.update id (fun c => { c with pending := none }) ∧ h' = h := by
  obtain ⟨c, hc, -, -, hcase⟩ := HttpServer.readHandled hr
  have howner := hs.owner_eq_false hc hid
  cases hcase with
  | ignored => exact ⟨rfl, rfl⟩
  | failed ho | continues ho | replies ho =>
    rw [howner] at ho
    cases ho

theorem Inv.writeHandler_of_notMem (hs : Inv s) (hid : id ∉ s.connections)
    (hr : s.writeHandler id ec = some s') :
    s' = s.update id (fun c => { c with pending := none }) := by
  obtain ⟨c, hc, hcase⟩ := HttpServer.writeHandled hr
  have howner := hs.owner_eq_false hc hid
  cases hcase with
  | ignored => rfl
  | finished ho | reads ho =>
    rw [howner] at ho
    cases ho

theorem Inv.readHandler {E : HttpEnv Ctx Doc Reply σ} {bytes : List UInt8} (hs : Inv s)
    (hr : s.readHandler E h id ec bytes = some (s', h')) : Inv s' := by
  have hpop : Inv (s.update id fun c => { c with pending := none }) :=
    hs.of_same (Same.update s id _ (fun _ => rfl) fun _ => rfl)
  obtain ⟨c, -, -, -, hcase⟩ := HttpServer.readHandled hr
  cases hcase with
  | ignored => exact hpop
  | failed => exact hpop.onConnectionFinished id
  | continues => exact hpop.of_same ((Same.parsing _ id _).trans (same_read _ id))
  | replies => exact hpop.of_same ((Same.parsing _ id _).trans (same_write _ id _))

theorem Inv.writeHandler (hs : Inv s) (hr : s.writeHandler id ec = some s') : Inv s' := by
  have hpop : Inv (s.update id fun c => { c with pending := none }) :=
    hs.of_same (Same.update s id _ (fun _ => rfl) fun _ => rfl)
  obtain ⟨c, -, hcase⟩ := HttpServer.writeHandled hr
  cases hcase with
  | ignored => exact hpop
  | finished => exact hpop.onConnectionFinished id
  | reads => exact hpop.of_same (same_read _ id)

end Inv

/-! ### Runs -/

section Run

variable {E : HttpEnv Ctx Doc Reply σ} {x x₀ y : Serving Ctx Reply σ} {l : Event σ}
  {ls : List (Event σ)}

/-- Both queries for the peer of an accepted socket give its address. -/
def Event.PeerKnown : Event σ → Prop
  | .accepted _ a _ => ∃ addr, a.remoteAddr = some addr ∧ a.remoteAddr' = some addr
  | _ => True

theorem inv_init (h : (machine E).init x) : Inv x.server := by
  have hs : x.server = { handler := true, accepting := true } := (congrArg Prod.fst h.1).symm
  rw [hs]
  refine ⟨⟨List.nodup_nil, fun id => ?_, fun addr => ?_, fun _ => rfl⟩, fun hne => absurd rfl hne⟩
  · simp [owned]
  · simp [fromSameAddress]

/-- One event keeps the table in order. -/
theorem Inv.step (hs : Inv x.server) (hl : l.PeerKnown) (hst : step E x l = some y) :
    Inv y.server := by
  unfold HttpServer.step at hst
  split_ifs at hst
  cases l with
  | stop =>
    obtain rfl := Option.some.inj hst
    exact hs.stop
  | accepted ec a listenOk =>
    obtain ⟨⟨s, o⟩, hr, rfl⟩ := Option.map_eq_some_iff.1 hst
    have hs' := hs.acceptHandler hl hr
    cases o with
    | returned => exact hs'
    | fatal => exact hs'.stop
    | continuation => exact hs'.stop
    | raised => exact hs'
  | timer ec =>
    obtain ⟨s, hr, rfl⟩ := Option.map_eq_some_iff.1 hst
    exact hs.gcExpires hr
  | gc k now =>
    obtain ⟨⟨s, o⟩, hr, rfl⟩ := Option.map_eq_some_iff.1 hst
    obtain ⟨rfl, hs'⟩ | ⟨rfl, hs'⟩ := hs.gcHandler hr
    · exact hs'
    · exact hs'
  | read id ec bytes =>
    obtain ⟨⟨s, h⟩, hr, rfl⟩ := Option.map_eq_some_iff.1 hst
    exact hs.readHandler hr
  | write id ec =>
    obtain ⟨s, hr, rfl⟩ := Option.map_eq_some_iff.1 hst
    exact hs.writeHandler hr
  | handler h =>
    obtain rfl := Option.some.inj hst
    exact hs

theorem inv_of_run (h₀ : (machine E).init x₀) (hr : (machine E).run x₀ ls = some x)
    (hpeer : ∀ l ∈ ls, l.PeerKnown) : Inv x.server := by
  have hok : (machine E).Along (fun _ l => l.PeerKnown) x₀ ls :=
    Machine.along_of_forall (fun l hl _ => hpeer l hl) x₀
  have hall := Machine.always_of_along (I := fun x => Inv x.server)
    (fun x l y hs hl hst => hs.step hl hst) (inv_init h₀) hok
  exact hall.last hr

/-- The table is in order. -/
structure InOrder (E : HttpEnv Ctx Doc Reply σ) (x : Serving Ctx Reply σ) : Prop where
  few : ∀ addr, (x.server.fromSameAddress addr).length ≤ 20
  exist : ∀ id ∈ x.server.connections, id < x.server.objects.length
  owner : ∀ (id : ℕ) (c : Connection Ctx Reply), x.server.objects[id]? = some c →
    (c.owner = true ↔ id ∈ x.server.connections)
  /-- The read of a removed connection only ends. -/
  read : ∀ id ∉ x.server.connections, ∀ ec bytes y, (machine E).step x (.read id ec bytes) = some y →
    y = { x with server := x.server.update id fun c => { c with pending := none } }
  /-- The write of a removed connection only ends. -/
  write : ∀ id ∉ x.server.connections, ∀ ec y, (machine E).step x (.write id ec) = some y →
    y = { x with server := x.server.update id fun c => { c with pending := none } }
  watched : x.server.connections ≠ [] →
    x.server.gcPending = true ∨ ∃ ec ∈ x.server.gcQueued, ec ≠ .operationAborted
  admits : ∀ (a : Accepted) addr, a.remoteAddr = some addr → a.remoteAddr' = some addr →
    ∃ dropped, Admits x.server (x.server.handleConnection a).1 addr addr dropped

theorem Inv.inOrder (hs : Inv x.server) : InOrder E x := by
  refine ⟨hs.few, fun id hid => hs.lt_of_mem hid, fun id c hc => ?_, fun id hid ec bytes y hst => ?_,
    fun id hid ec y hst => ?_, hs.watched, fun a addr ha ha' => handleConnection_admits _ ha ha'⟩
  · rw [← hs.owner, owned, hc]
    rfl
  · replace hst : HttpServer.step E x (.read id ec bytes) = some y := hst
    unfold HttpServer.step at hst
    split_ifs at hst
    obtain ⟨⟨s, h⟩, hr, rfl⟩ := Option.map_eq_some_iff.1 hst
    obtain ⟨rfl, rfl⟩ := hs.readHandler_of_notMem hid hr
    rfl
  · replace hst : HttpServer.step E x (.write id ec) = some y := hst
    unfold HttpServer.step at hst
    split_ifs at hst
    obtain ⟨s, hr, rfl⟩ := Option.map_eq_some_iff.1 hst
    obtain rfl := hs.writeHandler_of_notMem hid hr
    rfl

/-- **The table of connections is in order** in every state that a started server reaches, whatever
happens in whichever order, as long as the peers of the accepted sockets are known. -/
theorem table_invariant (h₀ : (machine E).init x₀) (hr : (machine E).run x₀ ls = some x)
    (hpeer : ∀ l ∈ ls, l.PeerKnown) : InOrder E x :=
  (inv_of_run h₀ hr hpeer).inOrder

end Run

/-- A daemon that answers nothing. -/
def muteEnv : HttpEnv Unit Unit Unit Unit where
  httpPath := []
  xml := ⟨fun _ => (), fun _ _ _ => some (), fun _ => true, fun _ => ()⟩
  handleHttpRequest _ _ := (none, ())

/-- The server that waits for its first connection. -/
def startedServer : Serving Unit Unit Unit where
  server := { handler := true, accepting := true }
  handler := ()

theorem startedServer_init : (machine muteEnv).init startedServer := ⟨rfl, rfl⟩

/-- More connections from one address than there may be; then the timer runs out, and before its
handler is run a connection breaks. -/
def crowd : List (Event Unit) :=
  (List.range 21).map (fun n => .accepted .success ⟨some (.v4 1), some (.v4 1), n, 0⟩ true) ++
    [.timer .success, .read 20 .other [], .gc 0 6000000000]

theorem table_afterCrowd :
    ∃ x, (machine muteEnv).run startedServer crowd = some x ∧ InOrder muteEnv x := by
  have hsome : ((machine muteEnv).run startedServer crowd).isSome = true := by decide +kernel
  obtain ⟨x, hx⟩ := Option.isSome_iff_exists.1 hsome
  refine ⟨x, hx, table_invariant startedServer_init hx ?_⟩
  intro l hl
  rcases List.mem_append.1 hl with hl | hl
  · obtain ⟨n, -, rfl⟩ := List.mem_map.1 hl
    exact ⟨_, rfl, rfl⟩
  · simp only [List.mem_cons, List.not_mem_nil, or_false] at hl
    rcases hl with rfl | rfl | rfl <;> trivial

end HttpServer

end Wsddn

import Mathlib.Data.List.AList
import Wsddn.Wsd.Announce

/-!
# The server manager (`ServerManager` of `server_manager.cpp`)

The manager has one server for every address that the interface monitor reports.  Of a server it
knows the interface and the state; `Server` adds its address and whether it has sent a Bye, since
the continuation of a Bye is what holds a server that the manager has let go.

* `Server.simulates_stop`, `Server.simulates` : a `WsdServer` does nothing that a `Server` cannot
  do.
* `Server.bye_held` : while a server that has sent a Bye is running, the Bye is on its way, with
  the continuation that holds the server.
* `ServerManager.machine` : the manager and its servers, with the errors of the servers and the
  ends of their Byes.
-/

namespace Wsddn

/-! ### A server, as the manager sees it -/

/-- A server that was started. -/
structure Server where
  interface : NetworkInterface
  addr : IpAddress
  state : ServerState := .running
  /-- A Bye was sent. -/
  bye : Bool := false
  deriving DecidableEq, Repr

namespace Server

/-- `WsdServer::stop`, for a server that was started. -/
def stop (srv : Server) (graceful : Bool) : Server :=
  match srv.state with
  | .running => if graceful then { srv with bye := true } else { srv with state := .stopped }
  | _ => srv

@[simp] theorem stop_interface (srv : Server) (graceful : Bool) :
    (srv.stop graceful).interface = srv.interface := by
  unfold stop
  split <;> (try split_ifs) <;> rfl

@[simp] theorem stop_addr (srv : Server) (graceful : Bool) :
    (srv.stop graceful).addr = srv.addr := by
  unfold stop
  split <;> (try split_ifs) <;> rfl

theorem stop_false_state (srv : Server) : (srv.stop false).state ≠ .running := by
  unfold stop
  split
  · simp
  · assumption

/-- A stop does not make a server run, and it does not take a Bye back. -/
theorem of_stop_running {srv : Server} {graceful : Bool}
    (h : (srv.stop graceful).state = .running) :
    srv.state = .running ∧ (srv.bye = true → (srv.stop graceful).bye = true) ∧
      (graceful = true → (srv.stop graceful).bye = true) := by
  cases graceful with
  | false => exact absurd h (stop_false_state srv)
  | true =>
    cases hs : srv.state with
    | running => simp [stop, hs]
    | notStarted => simp [stop, hs] at h
    | stopped => simp [stop, hs] at h

/-- What the manager sees of a `WsdServer` for an address. -/
def ofWsd {Ctx : Type*} (interface : NetworkInterface) (addr : IpAddress) (w : WsdServer Ctx) :
    Server where
  interface := interface
  addr := addr
  state := w.state
  bye := w.udp.chains.any fun c => c.continuation

section Simulation

open WsdServer

variable {Ctx : Type*} {E : WsdEnv Ctx} {s₀ w w' : WsdServer Ctx} {l : Event}
  {interface : NetworkInterface} {addr : IpAddress}

/-- A chain that goes on keeps its continuation. -/
theorem any_continuation_set {chains : List (Callback Message)} {i : ℕ} {c c' : Callback Message}
    (hc : chains[i]? = some c) (hk : c'.continuation = c.continuation) :
    ((chains.set i c').any fun c => c.continuation) = chains.any fun c => c.continuation := by
  induction chains generalizing i with
  | nil => rfl
  | cons c₀ chains ih =>
    cases i with
    | zero =>
      obtain rfl : c₀ = c := by simpa using hc
      simp [hk]
    | succ i =>
      have := ih (i := i) (by simpa using hc)
      simp [this]

theorem any_continuation_step (hw : w.Inv) (hst : step E w l = some w') (hl : l ≠ .stop true) :
    (w'.udp.chains.any fun c => c.continuation) = w.udp.chains.any fun c => c.continuation := by
  cases step_udp hw hst with
  | none h => rw [h.1]
  | bye => exact absurd rfl hl
  | read hr h =>
    rw [h.1]
    obtain ⟨rfl, -⟩ | ⟨-, hloop⟩ := UdpServer.readHandler_cases hr
    · rfl
    · -- every answer is written without a continuation
      refine (UdpServer.readLoop_invariant (P := fun u _ => (u.chains.any fun c => c.continuation) =
        w.udp.chains.any fun c => c.continuation) (fun _ _ _ _ hP _ => hP) ?_ (fun _ _ hP => hP)
        hloop rfl).1
      intro u _ _ m _ sender hP _
      simp only [UdpServer.write, List.any_append, List.any_cons, List.any_nil, Bool.or_false]
      exact hP
  | sent hr h =>
    rw [h.1]
    obtain ⟨c, hc, -, ⟨n, rfl, -⟩ | ⟨rfl, -⟩⟩ := UdpServer.sendHandler_cases hr
    · exact any_continuation_set hc rfl
    · exact any_continuation_set hc rfl
  | timer hr h =>
    rw [h.1]
    obtain ⟨c, hc, -, ⟨-, rfl⟩ | ⟨-, rfl⟩⟩ := UdpServer.timerHandler_cases hr
    · exact any_continuation_set hc rfl
    · exact any_continuation_set hc rfl

/-- **A server does nothing but what the manager expects**, when `stop` is called. -/
theorem simulates_stop {graceful : Bool} (hw : w.Inv)
    (hst : step E w (.stop graceful) = some w') :
    ofWsd interface addr w' = (ofWsd interface addr w).stop graceful := by
  have he : WsdServer.stop E w graceful = w' := by
    unfold step at hst
    split_ifs at hst
    exact Option.some.inj hst
  subst he
  obtain hr | hstop := hw.started
  · cases graceful with
    | true =>
      have hbye : WsdServer.stop E w true = sendBye E w := by
        simp only [WsdServer.stop, hr, if_true]
      rw [hbye, sendBye_eq (hw.pointers hr).1]
      simp [ofWsd, stop, hr, UdpServer.broadcast, UdpServer.write]
    | false =>
      have htear : WsdServer.stop E w false = w.tearDown := by
        simp only [WsdServer.stop, hr, Bool.false_eq_true, if_false]
      have hstate : w.tearDown.state = .stopped := rfl
      rw [htear]
      simp [ofWsd, stop, hr, hstate, (tearDown_udp w).1]
  · simp [ofWsd, stop, WsdServer.stop, hstop]

/-- **A server does nothing but what the manager expects**, by itself: it goes on, or it stops. -/
theorem simulates (hw : w.Inv) (hst : step E w l = some w') (hl : ∀ graceful, l ≠ .stop graceful) :
    ofWsd interface addr w' = ofWsd interface addr w ∨
      ofWsd interface addr w' = (ofWsd interface addr w).stop false := by
  have hany := any_continuation_step hw hst (hl true)
  obtain hr | hstop := hw.started
  · obtain hacts | ⟨w₁, hacts, hw'⟩ := step_running hr (hw.pointers hr).1 hst
    · exact .inl (by simp [ofWsd, hany, hacts.state])
    · have hstate : w'.state = .stopped := hw' ▸ rfl
      exact .inr (by simp [ofWsd, stop, hr, hany, hstate])
  · have hstate := (step_stopped hw hstop hst).2.1
    exact .inl (by simp [ofWsd, hany, hstop, hstate])

/-- **A server that has sent a Bye is held by it while it runs**: the chain of the Bye is on its
way, and its continuation has a reference to the server. -/
theorem bye_held {ls : List Event} (h₀ : (WsdServer.machine E).init s₀)
    (hok : (WsdServer.machine E).Along ByAsio s₀ ls)
    (hr : (WsdServer.machine E).run s₀ ls = some w) (hrun : (ofWsd interface addr w).state = .running)
    (hbye : (ofWsd interface addr w).bye = true) :
    ∃ c ∈ w.udp.chains, c.continuation = true ∧ c.phase ≠ .over := by
  obtain ⟨c, hc, hk⟩ := List.any_eq_true.1 hbye
  obtain ⟨i, hi⟩ := List.getElem?_of_mem hc
  exact ⟨c, hc, hk, Started.byePending h₀ hok hr hrun i c hi hk⟩

end Simulation

end Server

/-! ### The manager -/

/-- What `createServer` leads to. -/
inductive Created where
  | started
  /-- The constructor of the server has raised a `system_error`: the null pointer. -/
  | failed
  /-- Any other exception, from the constructor or from `start`. -/
  | raised
  deriving DecidableEq, Repr

/-- The fields of the `ServerManager`, with all servers that it has made. -/
structure ServerManager where
  /-- All servers that were ever started. -/
  servers : List Server := []
  /-- `m_serversByAddress` : `some none` is an entry with the null pointer. -/
  serversByAddress : AList (fun _ : IpAddress => Option ℕ) := ∅
  /-- `stop` was called, so the interface monitor makes no more calls. -/
  stopped : Bool := false
  /-- An exception has left the event loop. -/
  raised : Bool := false

namespace ServerManager

/-- Call `stop` of one server. -/
def stopServer (m : ServerManager) (id : ℕ) (graceful : Bool) : ServerManager :=
  { m with servers := m.servers.modify id fun srv => srv.stop graceful }

/-- A server that is in charge of the address on this interface. -/
def isServing (m : ServerManager) (interface : NetworkInterface) : Option ℕ → Bool
  | none => false
  | some id => (m.servers[id]?).any fun srv => srv.interface = interface && srv.state = .running

/-- `m_serversByAddress[addr]` : a missing entry is made. -/
def reference (m : ServerManager) (addr : IpAddress) : Option ℕ × ServerManager :=
  match m.serversByAddress.lookup addr with
  | some server => (server, m)
  | none => (none, { m with serversByAddress := m.serversByAddress.insert addr none })

/-- `createServer`, with the new server assigned to the entry. -/
def assignServer (m : ServerManager) (interface : NetworkInterface) (addr : IpAddress) :
    Created → ServerManager
  | .started =>
    { m with
      servers := m.servers ++ [{ interface, addr }]
      serversByAddress := m.serversByAddress.insert addr (some m.servers.length) }
  | .failed => { m with serversByAddress := m.serversByAddress.insert addr none }
  | .raised => { m with raised := true }

/-- A server that is in charge of the address already stays; `created` is what becomes of a new one.
-/
def addAddress (m : ServerManager) (interface : NetworkInterface) (addr : IpAddress)
    (created : Created) : ServerManager :=
  let (server, m) := m.reference addr
  if m.isServing interface server then m else m.assignServer interface addr created

/-- The server is stopped only if it is for this interface. -/
def removeAddress (m : ServerManager) (interface : NetworkInterface) (addr : IpAddress) :
    ServerManager :=
  match m.serversByAddress.lookup addr with
  | none => m
  | some none => { m with serversByAddress := m.serversByAddress.erase addr }
  | some (some id) =>
    if (m.servers[id]?).any fun srv => srv.interface ≠ interface then m
    else { m.stopServer id false with serversByAddress := m.serversByAddress.erase addr }

/-- The servers in the table. -/
def stored (m : ServerManager) : List ℕ := m.serversByAddress.entries.filterMap fun e => e.2

/-- All servers are stopped and forgotten. -/
def stop (m : ServerManager) (graceful : Bool) : ServerManager :=
  { m.stored.foldl (fun m id => m.stopServer id graceful) m with
    serversByAddress := ∅
    stopped := true }

/-- What happens to the manager and to its servers. -/
inductive Event where
  | addAddress (interface : NetworkInterface) (addr : IpAddress) (created : Created)
  | removeAddress (interface : NetworkInterface) (addr : IpAddress)
  | stop (graceful : Bool)
  /-- A server has a fatal error. -/
  | fatal (id : ℕ)
  /-- A server has sent its Bye. -/
  | byeDone (id : ℕ)
  deriving DecidableEq, Repr

/-- The server can be heard of: it is running, and for the end of a Bye it has sent one. -/
def canEnd (m : ServerManager) (id : ℕ) (byBye : Bool) : Bool :=
  (m.servers[id]?).any fun srv => srv.state = .running && (!byBye || srv.bye)

/-- What happens in an event; nothing happens after an exception has left the event loop. -/
def step (m : ServerManager) (e : Event) : Option ServerManager :=
  if m.raised then none
  else
    match e with
    | .addAddress interface addr created =>
      if m.stopped then none else some (m.addAddress interface addr created)
    | .removeAddress interface addr =>
      if m.stopped then none else some (m.removeAddress interface addr)
    | .stop graceful => some (m.stop graceful)
    | .fatal id => if m.canEnd id false then some (m.stopServer id false) else none
    | .byeDone id => if m.canEnd id true then some (m.stopServer id false) else none

/-- The manager, from the start of the program on. -/
def machine : Machine ServerManager Event where
  init m := m = {}
  step := step

end ServerManager

end Wsddn

import Wsddn.Manager.Retained
import Wsddn.Udp.Sockets

/-!
# When a server cannot be brought up

`createServer` builds a server inside a `try` block that catches `system_error`, and starts it
outside of it.  What `start` raises leaves `addAddress` and the event loop, and so does any other
exception of the constructors.

* `startRaising` : `WsdServer::start`, with all that it can raise.
* `ServerManager.createServer` : what becomes of the attempt to bring a server up.
* `init_of_started` : a server that is brought up is in an initial state of `WsdServer.machine`.
* `created_eq_failed_iff` : when it fails in a way that is caught.
* `contained_iff` : **a failure does not disturb the other addresses exactly if it is a system call
  of a constructor that fails.**
* `leftover_active` : what happens to a server that raises in `start`.
-/

namespace Wsddn

namespace WsdServer

variable {Ctx : Type*} (E : WsdEnv Ctx)

/-- `start`, with the two calls that can raise: `listen` and the building of the Hello. -/
def startRaising (s : WsdServer Ctx) (listenOk helloOk : Bool) :
    WsdServer Ctx × Option Exception :=
  if s.state ≠ .notStarted then (s.call .terminate, none)
  else
    let s := s.withUdp fun u => u.start
    let o := (s.http.start listenOk).2
    let s := s.withHttp fun http => (http.start listenOk).1
    if o = .raised then ({ s with raised := true }, some .systemError)
    else if helloOk then (sendHello E { s with state := .running }, none)
    else
      -- the number of the message is taken before the message is built
      ({ s with state := .running, responder := s.responder.nextMessage E.host, raised := true },
        some .xmlError)

theorem startRaising_helloOk (s : WsdServer Ctx) (listenOk : Bool) :
    (startRaising E s listenOk true).1 = (start E s listenOk).1 := by
  unfold startRaising start
  dsimp only
  split_ifs <;> first | rfl | exact absurd rfl ‹_›

/-- One of the two servers still has a handler, to which it passes what it receives. -/
def Active (s : WsdServer Ctx) : Prop := s.udp.handler = true ∨ s.http.handler = true

end WsdServer

/-! ### Bringing a server up -/

/-- `g_WsdHttpPort`. -/
def wsdHttpPort : UInt16 := 5357

/-- The calls of the constructor of `HttpServerImpl`, for its acceptor. -/
def httpCalls (addr : IpAddress) : List (SocketCall Unit) :=
  [⟨(), .openSocket⟩, ⟨(), .reuseAddress⟩] ++
  (if addr.isV4 then [] else [⟨(), .v6Only⟩]) ++
  [⟨(), .bind (addr, wsdHttpPort)⟩]

/-- What the system and the XML library do with the calls. -/
structure BringUp where
  /-- The calls for the sockets of the UDP server that are refused. -/
  failsUdp : SocketCall UdpSocket → Bool := fun _ => false
  /-- The calls for the acceptor that are refused. -/
  failsHttp : SocketCall Unit → Bool := fun _ => false
  /-- The Hello can be built. -/
  helloOk : Bool := true

namespace BringUp

variable (b : BringUp)

/-- A call of the constructors. -/
abbrev Call := SocketCall UdpSocket ⊕ SocketCall Unit

/-- The calls of the constructors, in order. -/
def constructorCalls (cfg : UdpConfig) (iface : NetworkInterface) (addr : IpAddress) : List Call :=
  (udpCalls cfg iface addr).map .inl ++ (httpCalls addr).map .inr

/-- What a call raises. -/
def raises : Call → Option Exception
  | .inl call => call.raises b.failsUdp
  | .inr call => call.raises b.failsHttp

/-- The system refuses the call. -/
def Refuses : Call → Prop
  | .inl call => call.op.rejects = false ∧ b.failsUdp call = true
  | .inr call => call.op.rejects = false ∧ b.failsHttp call = true

/-- The call is made without an exception. -/
def Accepts : Call → Prop
  | .inl call => call.op.rejects = false ∧ b.failsUdp call = false
  | .inr call => call.op.rejects = false ∧ b.failsHttp call = false

theorem raises_eq_systemError_iff {call : Call} :
    b.raises call = some .systemError ↔ b.Refuses call := by
  cases call <;> exact SocketCall.raises_eq_systemError_iff

theorem raises_eq_none_iff {call : Call} : b.raises call = none ↔ b.Accepts call := by
  cases call <;> exact SocketCall.raises_eq_none_iff

/-- The first call of the constructors that fails is one that the system refuses. -/
def RefusedInConstructor (cfg : UdpConfig) (iface : NetworkInterface) (addr : IpAddress) : Prop :=
  ∃ before call after, constructorCalls cfg iface addr = before ++ call :: after ∧
    (∀ c ∈ before, b.Accepts c) ∧ b.Refuses call

end BringUp

/-- The attempt to bring a server up: its result, and the server object that was started. -/
structure Attempt (Ctx : Type*) where
  created : Created
  server : Option (WsdServer Ctx)

namespace ServerManager

variable {Ctx : Type*} (E : WsdEnv Ctx)

/-- The destination of the multicast messages. -/
def multicastDest (iface : NetworkInterface) (addr : IpAddress) : Endpoint :=
  (if addr.isV4 then wsdMulticastGroupV4 else wsdMulticastGroupV6 (UInt32.ofNat iface.index.toNat),
    wsdUdpPort)

/-- `createServer`, with `startRaising` outside of its `try` block. -/
def createServer (b : BringUp) (cfg : UdpConfig) (iface : NetworkInterface) (addr : IpAddress) :
    Attempt Ctx :=
  match (performCalls b.raises (BringUp.constructorCalls cfg iface addr)).2 with
  | some .systemError => ⟨.failed, none⟩
  | some _ => ⟨.raised, none⟩
  | none =>
    match WsdServer.startRaising E (.create addr.isV4 (multicastDest iface addr))
        (!b.failsHttp ⟨(), .listen⟩) b.helloOk with
    | (server, none) => ⟨.started, some server⟩
    | (server, some _) => ⟨.raised, some server⟩

variable {E} {m : ServerManager} {b : BringUp} {cfg : UdpConfig} {iface : NetworkInterface}
  {addr : IpAddress}

/-- **A server that is brought up** is where the life of a server begins (`WsdServer.machine`). -/
theorem init_of_started {w : WsdServer Ctx}
    (hcreated : (createServer E b cfg iface addr).created = .started)
    (hserver : (createServer E b cfg iface addr).server = some w) : (WsdServer.machine E).init w := by
  unfold createServer at hcreated hserver
  split at hcreated
  · cases hcreated
  · cases hcreated
  · rename_i hnone
    rw [hnone] at hserver
    dsimp only at hserver
    split at hcreated
    · rename_i server hstart
      rw [hstart, Option.some_inj] at hserver
      subst hserver
      refine ⟨addr.isV4, multicastDest iface addr, ?_⟩
      -- nothing is raised, so `listen` and the building of the Hello have succeeded
      generalize (!b.failsHttp ⟨(), .listen⟩) = listenOk at hstart
      generalize b.helloOk = helloOk at hstart
      cases listenOk with
      | false => cases (Prod.mk.inj hstart).2
      | true =>
        cases helloOk with
        | false => cases (Prod.mk.inj hstart).2
        | true =>
          have hsame := WsdServer.startRaising_helloOk E
            (.create addr.isV4 (multicastDest iface addr)) true
          rw [hstart] at hsame
          exact Prod.ext hsame.symm rfl
    · cases hcreated

/-- Only what the system refuses to the constructors is caught. -/
theorem created_eq_failed_iff :
    (createServer E b cfg iface addr).created = .failed ↔ b.RefusedInConstructor cfg iface addr := by
  have hfirst : (performCalls b.raises (BringUp.constructorCalls cfg iface addr)).2 =
      some .systemError ↔ b.RefusedInConstructor cfg iface addr := by
    simp only [performCalls_raised, List.findSome?_eq_some_iff, BringUp.raises_eq_systemError_iff,
      BringUp.raises_eq_none_iff, BringUp.RefusedInConstructor]
    tauto
  rw [← hfirst]
  unfold createServer
  split
  · rename_i h
    simp [h]
  · rename_i e hne h
    rw [h]
    simpa using hne
  · rename_i h
    rw [h]
    split <;> simp

/-- **The failure for one address does not disturb the others**: `addAddress` returns, the entry of
the address is null, no server for it is left behind, and the other entries and their servers are
what they were. -/
def Contained (m : ServerManager) (iface : NetworkInterface) (addr : IpAddress)
    (a : Attempt Ctx) : Prop :=
  (m.addAddress iface addr a.created).raised = false ∧
  (m.addAddress iface addr a.created).serversByAddress.lookup addr = some none ∧
  (∀ w ∈ a.server, ¬ w.Active) ∧
  (∀ addr' ≠ addr, (m.addAddress iface addr a.created).serversByAddress.lookup addr' =
    m.serversByAddress.lookup addr') ∧
  (m.addAddress iface addr a.created).servers = m.servers

/-- No server is in charge of the address on this interface, so one has to be created. -/
def Creates (m : ServerManager) (iface : NetworkInterface) (addr : IpAddress) : Prop :=
  (m.reference addr).2.isServing iface (m.reference addr).1 = false

theorem addAddress_of_creates (h : m.Creates iface addr) (created : Created) :
    m.addAddress iface addr created = (m.reference addr).2.assignServer iface addr created := by
  have hnot : ¬ (m.reference addr).2.isServing iface (m.reference addr).1 = true := by
    rw [show (m.reference addr).2.isServing iface (m.reference addr).1 = false from h]
    exact Bool.false_ne_true
  unfold addAddress
  exact if_neg hnot

theorem reference_raised : (m.reference addr).2.raised = m.raised := by
  unfold reference
  split <;> rfl

/-- `operator[]` makes no difference to other addresses. -/
theorem reference_lookup_ne {addr' : IpAddress} (h : addr' ≠ addr) :
    (m.reference addr).2.serversByAddress.lookup addr' = m.serversByAddress.lookup addr' := by
  unfold reference
  split
  · rfl
  · exact AList.lookup_insert_ne h

/-- **When a failure is contained.** -/
theorem contained_iff (hm : m.raised = false) (hc : m.Creates iface addr)
    (hfail : (createServer E b cfg iface addr).created ≠ .started) :
    m.Contained iface addr (createServer E b cfg iface addr) ↔
      b.RefusedInConstructor cfg iface addr := by
  rw [← created_eq_failed_iff (E := E)]
  constructor
  · rintro ⟨hraised, -⟩
    rw [addAddress_of_creates hc] at hraised
    cases hcreated : (createServer E b cfg iface addr).created with
    | started => exact absurd hcreated hfail
    | failed => rfl
    | raised =>
      rw [hcreated] at hraised
      cases hraised
  · intro hcreated
    have hserver : (createServer E b cfg iface addr).server = none := by
      unfold createServer at hcreated ⊢
      split at hcreated
      · rfl
      · rfl
      · split at hcreated <;> cases hcreated
    unfold Contained
    rw [addAddress_of_creates hc, hcreated, hserver]
    refine ⟨?_, ?_, by simp, fun addr' hne => ?_, ?_⟩
    · exact reference_raised.trans hm
    · exact AList.lookup_insert _
    · exact (AList.lookup_insert_ne hne).trans (reference_lookup_ne hne)
    · exact reference_servers

/-- The interface and the address of the examples. -/
def someInterface : NetworkInterface := ⟨SysString.ofLiteral "eth0", 2⟩

/-- The address of the examples, 10.0.0.1. -/
def someAddress : IpAddress := .v4 0x0a000001

/-- The port of the HTTP server is in use. -/
def portInUse : BringUp where
  failsHttp call := call.op = .bind (someAddress, wsdHttpPort)

theorem contained_portInUse :
    ({} : ServerManager).Creates someInterface someAddress ∧
      ({} : ServerManager).Contained someInterface someAddress
        (createServer WsdServer.silentEnv portInUse { hopLimit := 1 } someInterface someAddress) := by
  have hcreated : (createServer WsdServer.silentEnv portInUse { hopLimit := 1 } someInterface
      someAddress).created = .failed := by decide +kernel
  have hcreates : ({} : ServerManager).Creates someInterface someAddress := rfl
  exact ⟨hcreates, (contained_iff rfl hcreates (by rw [hcreated]; decide)).2
    (created_eq_failed_iff.1 hcreated)⟩

/-- A server that raises in `start` is left behind with sockets that are read. -/
theorem leftover_active {w : WsdServer Ctx} (h : (createServer E b cfg iface addr).server = some w)
    (hraised : (createServer E b cfg iface addr).created = .raised) : w.Active := by
  unfold createServer at h hraised
  split at h
  · cases h
  · cases h
  · rename_i hnone
    rw [hnone] at hraised
    have hudp : ∀ listenOk helloOk (dest : Endpoint),
        (WsdServer.startRaising E (.create addr.isV4 dest) listenOk helloOk).2 ≠ none →
        (WsdServer.startRaising E (.create addr.isV4 dest) listenOk helloOk).1.udp.handler = true := by
      intro listenOk helloOk dest hne
      cases listenOk with
      | false => rfl
      | true =>
        cases helloOk with
        | false => rfl
        | true => exact absurd rfl hne
    split at h
    · rename_i hstart
      rw [hstart] at hraised
      cases hraised
    · rename_i server e hstart
      obtain rfl := Option.some.inj h
      refine .inl ?_
      have := hudp _ _ _ (by rw [hstart]; simp)
      rwa [hstart] at this

/-- Nobody can listen at the port. -/
def portTaken : BringUp where
  failsHttp call := call.op = .listen

/-- **A failure that is not contained**: `listen` raises outside of the `try` block.  The exception
leaves `addAddress`, and the UDP server has been started. -/
theorem listen_failure_escapes :
    (({} : ServerManager).addAddress someInterface someAddress
        (createServer WsdServer.silentEnv portTaken { hopLimit := 1 } someInterface
          someAddress).created).raised = true ∧
      ¬ ({} : ServerManager).Contained someInterface someAddress
        (createServer WsdServer.silentEnv portTaken { hopLimit := 1 } someInterface
          someAddress) := by
  have hraised : (({} : ServerManager).addAddress someInterface someAddress
      (createServer WsdServer.silentEnv portTaken { hopLimit := 1 } someInterface
        someAddress).created).raised = true := by decide +kernel
  refine ⟨hraised, fun h => ?_⟩
  rw [h.1] at hraised
  cases hraised

end ServerManager

end Wsddn

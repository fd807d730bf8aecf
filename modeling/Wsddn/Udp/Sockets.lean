import Wsddn.Config.Options
import Wsddn.Udp.Server

/-!
# The sockets of the UDP server (the constructor of `UdpServerImpl`)

The constructor opens three sockets, sets their options and binds them.  Every call can be refused
by the system (`system_error`); the option for the hop limit of IPv6 checks its argument itself
(`out_of_range`), and the one of IPv4 takes a byte.  The calls are those of a build for Linux.

* `performCalls` : some calls, one after the other, up to the first that raises.
* `udpCalls` : the calls of the constructor.
* `sameHopLimit_iff` : **both families use the hop limit of the configuration exactly if it is
  between 0 and 255.**
-/

namespace Wsddn

/-! ### Calls that can raise -/

/-- The exceptions of the calls that start a server. -/
inductive Exception where
  /-- `std::system_error`. -/
  | systemError
  /-- `std::out_of_range`. -/
  | outOfRange
  /-- `XmlException`. -/
  | xmlError
  deriving DecidableEq, Repr

/-- What a socket is asked to do. -/
inductive SocketOp where
  | openSocket
  | nonBlocking
  | reuseAddress
  | v6Only
  /-- Join the group, on the interface with this index and, for IPv4, this address. -/
  | joinGroup (group : IpAddress) (addr : Option IpAddress) (index : Int)
  | multicastAll (val : Bool)
  | multicastLoop (val : Bool)
  | multicastIface (addr : Option IpAddress) (index : Int)
  /-- `SockOptIPv4MulticastTtl`. -/
  | multicastTtl (val : UInt8)
  /-- `ip::multicast::hops`. -/
  | hops (val : Int)
  | bind (endpoint : Endpoint)
  | listen
  deriving DecidableEq, Repr

/-- What raises before the system is asked: the constructor of `ip::multicast::hops` takes the
numbers of a byte. -/
def SocketOp.rejects : SocketOp → Bool
  | .hops val => val < 0 || 255 < val
  | _ => false

/-- A call for one of several sockets. -/
structure SocketCall (Sock : Type) where
  socket : Sock
  op : SocketOp
  deriving DecidableEq, Repr

/-- What a call raises; `fails` are the calls that the system refuses. -/
def SocketCall.raises {Sock : Type} (fails : SocketCall Sock → Bool) (call : SocketCall Sock) :
    Option Exception :=
  if call.op.rejects then some .outOfRange
  else if fails call then some .systemError
  else none

section Raises

variable {Sock : Type} {fails : SocketCall Sock → Bool} {call : SocketCall Sock}

theorem SocketCall.raises_eq_systemError_iff :
    call.raises fails = some .systemError ↔ call.op.rejects = false ∧ fails call = true := by
  unfold raises
  split_ifs <;> simp_all

theorem SocketCall.raises_eq_none_iff :
    call.raises fails = none ↔ call.op.rejects = false ∧ fails call = false := by
  unfold raises
  split_ifs <;> simp_all

end Raises

section Calls

variable {Call : Type}

/-- Some calls, up to the first that raises: those that were made, and what was raised. -/
def performCalls (raises : Call → Option Exception) : List Call → List Call × Option Exception
  | [] => ([], none)
  | call :: calls =>
    match raises call with
    | some e => ([], some e)
    | none => (call :: (performCalls raises calls).1, (performCalls raises calls).2)

variable {raises : Call → Option Exception} {calls : List Call} {e : Exception}

/-- Nothing is raised if no call raises, and then all calls are made. -/
theorem performCalls_of_none (h : ∀ call ∈ calls, raises call = none) :
    performCalls raises calls = (calls, none) := by
  induction calls with
  | nil => rfl
  | cons call calls ih =>
    rw [performCalls, h call List.mem_cons_self,
      ih fun call hmem => h call (List.mem_cons_of_mem _ hmem)]

/-- What is raised is what the first call raises that raises. -/
theorem performCalls_raised (raises : Call → Option Exception) (calls : List Call) :
    (performCalls raises calls).2 = calls.findSome? raises := by
  induction calls with
  | nil => rfl
  | cons call calls ih =>
    rw [performCalls, List.findSome?_cons]
    cases raises call with
    | none => exact ih
    | some e => rfl

end Calls

/-! ### The constructor -/

/-- What the server asks of the `Config`. -/
structure UdpConfig where
  hopLimit : Int
  sourcePort : UInt16 := 0
  deriving DecidableEq, Repr

/-- `Config` from the settings. -/
def UdpConfig.ofCommandLine (c : CommandLine) : UdpConfig where
  hopLimit := c.hoplimit.getD 1
  sourcePort := UInt16.ofNat (c.sourcePort.getD 0)

/-- `g_WsdUdpPort`. -/
def wsdUdpPort : UInt16 := 3702

/-- 239.255.255.250. -/
def wsdMulticastGroupV4 : IpAddress := .v4 0xeffffffa

/-- ff02::c, with a scope. -/
def wsdMulticastGroupV6 (scopeId : UInt32) : IpAddress :=
  .v6 0xff02000000000000000000000000000c scopeId

/-- A number as a `uint8_t`. -/
def toByte (n : Int) : UInt8 := UInt8.ofNat (n % 256).toNat

/-- `initAddresses` for IPv4. -/
def initAddressesV4 (cfg : UdpConfig) (bits : BitVec 32) (iface : NetworkInterface) :
    List (SocketCall UdpSocket) :=
  let addr := IpAddress.v4 bits
  [⟨.recv, .joinGroup wsdMulticastGroupV4 (some addr) iface.index⟩,
    ⟨.recv, .multicastAll false⟩,
    ⟨.recv, .bind (wsdMulticastGroupV4, wsdUdpPort)⟩,
    ⟨.unicastSend, .bind (addr, wsdUdpPort)⟩,
    ⟨.unicastSend, .multicastLoop false⟩,
    ⟨.multicastSend, .multicastIface (some addr) iface.index⟩,
    ⟨.multicastSend, .multicastLoop false⟩,
    ⟨.multicastSend, .multicastTtl (toByte cfg.hopLimit)⟩] ++
  if cfg.sourcePort ≠ 0 then [⟨.multicastSend, .bind (addr, cfg.sourcePort)⟩] else []

/-- `initAddresses` for IPv6. -/
def initAddressesV6 (cfg : UdpConfig) (bits : BitVec 128) (iface : NetworkInterface) :
    List (SocketCall UdpSocket) :=
  let scopeId := UInt32.ofNat iface.index.toNat
  let addr := IpAddress.v6 bits scopeId
  [⟨.recv, .joinGroup (wsdMulticastGroupV6 0) none iface.index⟩,
    ⟨.recv, .v6Only⟩,
    ⟨.recv, .multicastAll false⟩,
    ⟨.recv, .bind (wsdMulticastGroupV6 scopeId, wsdUdpPort)⟩,
    ⟨.unicastSend, .bind (addr, wsdUdpPort)⟩,
    ⟨.unicastSend, .multicastLoop false⟩,
    ⟨.multicastSend, .multicastLoop false⟩,
    ⟨.multicastSend, .hops cfg.hopLimit⟩,
    ⟨.multicastSend, .multicastIface none iface.index⟩] ++
  if cfg.sourcePort ≠ 0 then [⟨.multicastSend, .bind (addr, cfg.sourcePort)⟩] else []

/-- The calls of the constructor. -/
def udpCalls (cfg : UdpConfig) (iface : NetworkInterface) (addr : IpAddress) :
    List (SocketCall UdpSocket) :=
  [⟨.recv, .openSocket⟩, ⟨.multicastSend, .openSocket⟩, ⟨.unicastSend, .openSocket⟩,
    ⟨.recv, .nonBlocking⟩, ⟨.unicastSend, .nonBlocking⟩,
    ⟨.recv, .reuseAddress⟩, ⟨.unicastSend, .reuseAddress⟩] ++
  match addr with
  | .v4 bits => initAddressesV4 cfg bits iface
  | .v6 bits _ => initAddressesV6 cfg bits iface

/-- The constructor: the calls that were made, and what was raised. -/
def constructUdp (fails : SocketCall UdpSocket → Bool) (cfg : UdpConfig) (iface : NetworkInterface)
    (addr : IpAddress) : List (SocketCall UdpSocket) × Option Exception :=
  performCalls (SocketCall.raises fails) (udpCalls cfg iface addr)

/-- The hop limit that a call sets on the socket for multicast messages. -/
def hopLimitSet (call : SocketCall UdpSocket) : Option Int :=
  match call.socket, call.op with
  | .multicastSend, .multicastTtl val => some val.toNat
  | .multicastSend, .hops val => some val
  | _, _ => none

/-- The hop limit of the socket for multicast messages after some calls. -/
def multicastHopLimit (made : List (SocketCall UdpSocket)) : Option Int :=
  (made.filterMap hopLimitSet).getLast?

/-- On a system that refuses nothing, both families start and use the hop limit of the
configuration. -/
def SameHopLimit (cfg : UdpConfig) (iface : NetworkInterface) (v4 : BitVec 32) (v6 : BitVec 128)
    (scopeId : UInt32) : Prop :=
  (constructUdp (fun _ => false) cfg iface (.v4 v4)).2 = none ∧
  multicastHopLimit (constructUdp (fun _ => false) cfg iface (.v4 v4)).1 = some cfg.hopLimit ∧
  (constructUdp (fun _ => false) cfg iface (.v6 v6 scopeId)).2 = none ∧
  multicastHopLimit (constructUdp (fun _ => false) cfg iface (.v6 v6 scopeId)).1 = some cfg.hopLimit

variable {cfg : UdpConfig} {iface : NetworkInterface} {addr : IpAddress}

/-- The only call that can raise by itself. -/
theorem rejects_of_mem {call : SocketCall UdpSocket} (h : call ∈ udpCalls cfg iface addr)
    (hr : call.op.rejects = true) : addr.isV4 = false ∧ call = ⟨.multicastSend, .hops cfg.hopLimit⟩ := by
  unfold udpCalls at h
  cases addr with
  | v4 bits =>
    unfold initAddressesV4 at h
    simp only [List.mem_append, List.mem_cons, List.not_mem_nil, or_false, List.mem_ite_nil_right] at h
    obtain (rfl | rfl | rfl | rfl | rfl | rfl | rfl) |
      (rfl | rfl | rfl | rfl | rfl | rfl | rfl | rfl) | ⟨-, rfl⟩ := h <;> cases hr
  | v6 bits scopeId =>
    unfold initAddressesV6 at h
    simp only [List.mem_append, List.mem_cons, List.not_mem_nil, or_false, List.mem_ite_nil_right] at h
    refine ⟨rfl, ?_⟩
    obtain (rfl | rfl | rfl | rfl | rfl | rfl | rfl) |
      (rfl | rfl | rfl | rfl | rfl | rfl | rfl | rfl | rfl) | ⟨-, rfl⟩ := h <;>
        first | rfl | cases hr

/-- On a system that refuses nothing only the hop limit can be in the way. -/
theorem constructUdp_of_accepts
    (h : addr.isV4 = true ∨ (0 ≤ cfg.hopLimit ∧ cfg.hopLimit ≤ 255)) :
    constructUdp (fun _ => false) cfg iface addr = (udpCalls cfg iface addr, none) := by
  refine performCalls_of_none fun call hcall => ?_
  rw [SocketCall.raises_eq_none_iff, ← Bool.not_eq_true]
  have haccepts : ¬ call.op.rejects = true := by
    intro hr
    obtain ⟨hv6, rfl⟩ := rejects_of_mem hcall hr
    obtain hv4 | hlimit := h
    · rw [hv4] at hv6
      cases hv6
    · simp only [SocketOp.rejects, Bool.or_eq_true, decide_eq_true_eq] at hr
      omega
  exact ⟨haccepts, rfl⟩

theorem multicastHopLimit_v4 (bits : BitVec 32) :
    multicastHopLimit (udpCalls cfg iface (.v4 bits)) = some ((toByte cfg.hopLimit).toNat : Int) := by
  unfold multicastHopLimit udpCalls initAddressesV4
  dsimp only
  split_ifs <;> rfl

theorem multicastHopLimit_v6 (bits : BitVec 128) (scopeId : UInt32) :
    multicastHopLimit (udpCalls cfg iface (.v6 bits scopeId)) = some cfg.hopLimit := by
  unfold multicastHopLimit udpCalls initAddressesV6
  dsimp only
  split_ifs <;> rfl

theorem toByte_eq_iff {n : Int} : ((toByte n).toNat : Int) = n ↔ 0 ≤ n ∧ n ≤ 255 := by
  simp only [toByte, UInt8.toNat_ofNat']
  omega

/-- **Both families use the hop limit of the configuration exactly if it is between 0 and 255.** -/
theorem sameHopLimit_iff (c : CommandLine) (iface : NetworkInterface) (v4 : BitVec 32)
    (v6 : BitVec 128) (scopeId : UInt32) :
    SameHopLimit (.ofCommandLine c) iface v4 v6 scopeId ↔
      0 ≤ c.hoplimit.getD 1 ∧ c.hoplimit.getD 1 ≤ 255 := by
  have hv4 : constructUdp (fun _ => false) (.ofCommandLine c) iface (.v4 v4) =
      (udpCalls (.ofCommandLine c) iface (.v4 v4), none) := constructUdp_of_accepts (.inl rfl)
  constructor
  · rintro ⟨-, hlimit, -⟩
    rw [hv4, multicastHopLimit_v4] at hlimit
    exact toByte_eq_iff.1 (Option.some.inj hlimit)
  · intro h
    have hv6 : constructUdp (fun _ => false) (.ofCommandLine c) iface (.v6 v6 scopeId) =
        (udpCalls (.ofCommandLine c) iface (.v6 v6 scopeId), none) :=
      constructUdp_of_accepts (.inr h)
    refine ⟨by rw [hv4], ?_, by rw [hv6], ?_⟩
    · rw [hv4, multicastHopLimit_v4]
      exact congrArg some (toByte_eq_iff.2 h)
    · rw [hv6, multicastHopLimit_v6]

/-- **A hop limit that is accepted and cannot be used**: IPv4 takes it for 0, and the server for an
IPv6 address is not started. -/
theorem hopLimit_256 :
    CommandLine.handle CommandLine.smallSystem (.hoplimit "256") {} =
        ({ hoplimit := some 256 }, none) ∧
      multicastHopLimit (constructUdp (fun _ => false)
        (.ofCommandLine { hoplimit := some 256 }) ⟨[101], 1⟩ (.v4 0x0a000001)).1 = some 0 ∧
      (constructUdp (fun _ => false) (.ofCommandLine { hoplimit := some 256 }) ⟨[101], 1⟩
        (.v6 0xfe800000000000000000000000000001 1)).2 = some .outOfRange ∧
      ¬ SameHopLimit (.ofCommandLine { hoplimit := some 256 }) ⟨[101], 1⟩ 0x0a000001
        0xfe800000000000000000000000000001 1 := by
  have hv4 : multicastHopLimit (constructUdp (fun _ => false)
      (.ofCommandLine { hoplimit := some 256 }) ⟨[101], 1⟩ (.v4 0x0a000001)).1 = some 0 := by
    decide +kernel
  refine ⟨by decide +kernel, hv4, by decide +kernel, fun h => ?_⟩
  rw [h.2.1] at hv4
  exact absurd hv4 (by decide)

end Wsddn

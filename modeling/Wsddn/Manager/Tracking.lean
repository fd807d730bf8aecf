import Wsddn.Container.Updates
import Wsddn.Manager.BringUp
import Wsddn.Netlink.Monitor
import Wsddn.Netlink.Stale

/-!
# The servers and the addresses of the kernel

The kernel has a table of the addresses that can be used, each on its interface: one that it reports
as usable gets in, and one that it deletes gets out.  The monitor is told of this in datagrams, and
makes calls of the manager, which has a server for each address.  The servers can fail at any time.

* `Tracks` : the entries of the manager are those of a table; kept by `Tracks.perform`.
* `Netlink.Message.update` : what a message says of the table, whether or not it leads to a call.
* `Tracking.machine` : the kernel, the monitor, the manager and its servers.
* `Tracking.tracks` : **the manager has the addresses that the kernel has**, as far as they were
  mentioned, and no server runs for another one, if the deletions are not overlooked.
-/

namespace Wsddn

open Netlink Update

/-- A table of addresses with their interfaces. -/
abbrev AddressTable := IpAddress → Option NetworkInterface

/-- What a call says of the table. -/
def Netlink.Call.update : Netlink.Call → Update IpAddress NetworkInterface
  | .addAddress iface addr => .set addr iface
  | .removeAddress iface addr => .drop addr iface

namespace ServerManager

/-- The entry for an address is as the table says.  It can be without a server, when none could be
created. -/
def Follows (m : ServerManager) (a : IpAddress) : Option NetworkInterface → Prop
  | none => m.serversByAddress.lookup a = none
  | some iface => m.serversByAddress.lookup a = some none ∨
    ∃ id srv, m.serversByAddress.lookup a = some (some id) ∧ m.servers[id]? = some srv ∧
      srv.interface = iface ∧ srv.addr = a

/-- **The manager has the entries of a table**, and it has lost no running server. -/
structure Tracks (told : AddressTable) (m : ServerManager) : Prop where
  inv : m.Inv
  working : m.stopped = false
  follows : ∀ a, m.Follows a (told a)

variable {told : AddressTable} {m m' : ServerManager} {a addr : IpAddress}
  {iface : NetworkInterface} {found : Option NetworkInterface}

/-- The servers stay where they are, with what they were made with. -/
def SameServers (m m' : ServerManager) : Prop :=
  ∀ (id : ℕ) (srv : Server), m.servers[id]? = some srv →
    ∃ srv' : Server, m'.servers[id]? = some srv' ∧ srv'.interface = srv.interface ∧
      srv'.addr = srv.addr

theorem Follows.of_same (h : m.Follows a found)
    (hlookup : m'.serversByAddress.lookup a = m.serversByAddress.lookup a)
    (hservers : SameServers m m') : m'.Follows a found := by
  cases found with
  | none => exact hlookup.trans h
  | some iface =>
    rcases h with h | ⟨id, srv, hid, hsrv, rfl, rfl⟩
    · exact .inl (hlookup.trans h)
    · obtain ⟨srv', hsrv', hiface, haddr⟩ := hservers id srv hsrv
      exact .inr ⟨id, srv', hlookup.trans hid, hsrv', hiface, haddr⟩

theorem sameServers_stopServer (id : ℕ) (graceful : Bool) :
    SameServers m (m.stopServer id graceful) := by
  intro j srv h
  refine ⟨_, stopServer_getElem?_eq_some.2 ⟨srv, h, rfl⟩, ?_, ?_⟩
  · split_ifs
    · exact srv.stop_interface graceful
    · rfl
  · split_ifs
    · exact srv.stop_addr graceful
    · rfl

theorem sameServers_addAddress (created : Created) :
    SameServers m (m.addAddress iface addr created) := by
  intro id srv h
  have href : (m.reference addr).2.servers[id]? = some srv := by rw [reference_servers, h]
  unfold addAddress
  dsimp only
  split_ifs
  · exact ⟨srv, href, rfl, rfl⟩
  · cases created with
    | started =>
      refine ⟨srv, ?_, rfl, rfl⟩
      show ((m.reference addr).2.servers ++ [_])[id]? = some srv
      rw [List.getElem?_append_left (List.getElem?_eq_some_iff.1 href).1, href]
    | failed => exact ⟨srv, href, rfl, rfl⟩
    | raised => exact ⟨srv, href, rfl, rfl⟩

theorem addAddress_lookup_ne {created : Created} (ha : a ≠ addr) :
    (m.addAddress iface addr created).serversByAddress.lookup a =
      m.serversByAddress.lookup a := by
  have href := reference_lookup_ne (m := m) ha
  unfold addAddress
  dsimp only
  split_ifs
  · exact href
  · cases created with
    | started => exact (AList.lookup_insert_ne ha).trans href
    | failed => exact (AList.lookup_insert_ne ha).trans href
    | raised => exact href

theorem sameServers_removeAddress : SameServers m (m.removeAddress iface addr) := by
  intro id srv h
  unfold removeAddress
  split
  · exact ⟨srv, h, rfl, rfl⟩
  · exact ⟨srv, h, rfl, rfl⟩
  · split_ifs
    · exact ⟨srv, h, rfl, rfl⟩
    · exact sameServers_stopServer _ false id srv h

theorem removeAddress_lookup_ne (ha : a ≠ addr) :
    (m.removeAddress iface addr).serversByAddress.lookup a = m.serversByAddress.lookup a := by
  unfold removeAddress
  split
  · rfl
  · exact AList.lookup_erase_ne ha
  · split_ifs
    · rfl
    · exact AList.lookup_erase_ne ha

/-- The entry of an address that can be added on an interface is of this interface. -/
theorem Follows.interface (h : m.Follows addr (told addr))
    (hadd : told addr = none ∨ told addr = some iface) {id : ℕ} {srv : Server}
    (hid : m.serversByAddress.lookup addr = some (some id)) (hsrv : m.servers[id]? = some srv) :
    srv.interface = iface := by
  rcases hadd with hadd | hadd
  · rw [hadd, Follows, hid] at h
    cases h
  · rw [hadd] at h
    rcases h with h | ⟨id', srv', hid', hsrv', hiface, -⟩
    · rw [hid] at h
      cases h
    · rw [hid, Option.some_inj, Option.some_inj] at hid'
      subst hid'
      rw [hsrv, Option.some_inj] at hsrv'
      exact hsrv' ▸ hiface

theorem follows_addAddress (hm : m.Keyed) {created : Created}
    (hraised : (m.addAddress iface addr created).raised = false) :
    (m.addAddress iface addr created).Follows addr (some iface) := by
  unfold addAddress at hraised ⊢
  dsimp only at hraised ⊢
  split_ifs at hraised ⊢ with hserving
  · -- a server runs already
    cases hfst : (m.reference addr).1 with
    | none => simp [hfst, isServing] at hserving
    | some id =>
      have hid := reference_fst.1 hfst
      obtain ⟨srv, hsrv, haddr⟩ := hm addr id hid
      simp only [hfst, isServing, reference_servers, hsrv, Option.any_some, Bool.and_eq_true,
        decide_eq_true_eq] at hserving
      refine .inr ⟨id, srv, reference_lookup.2 hid, ?_, hserving.1, haddr⟩
      rw [reference_servers, hsrv]
  · cases created with
    | started =>
      refine .inr ⟨_, { interface := iface, addr }, AList.lookup_insert _, ?_, rfl, rfl⟩
      exact List.getElem?_concat_length
    | failed => exact .inl (AList.lookup_insert _)
    | raised => cases hraised

theorem Tracks.addAddress (h : m.Tracks told) (hadd : told addr = none ∨ told addr = some iface)
    {created : Created} (hraised : (m.addAddress iface addr created).raised = false) :
    (m.addAddress iface addr created).Tracks (Function.update told addr (some iface)) where
  inv := by
    refine h.inv.addAddress h.working ?_
    rintro - server hserver id hid srv hsrv -
    obtain rfl : server = some id := hid
    exact (h.follows addr).interface hadd hserver hsrv
  working := addAddress_stopped.trans h.working
  follows := fun a => by
    by_cases ha : a = addr
    · subst ha
      rw [Function.update_self]
      exact follows_addAddress h.inv.keyed hraised
    · rw [Function.update_of_ne ha]
      exact (h.follows a).of_same (addAddress_lookup_ne ha) (sameServers_addAddress created)

theorem Tracks.removeAddress (h : m.Tracks told)
    (hremove : told addr = none ∨ told addr = some iface) :
    (m.removeAddress iface addr).Tracks (Function.update told addr none) where
  inv := h.inv.removeAddress h.working
  working := removeAddress_stopped.trans h.working
  follows := fun a => by
    by_cases ha : a = addr
    · subst ha
      rw [Function.update_self]
      unfold ServerManager.removeAddress
      split
      · assumption
      · exact AList.lookup_erase a m.serversByAddress
      · rename_i id hid
        obtain ⟨srv, hsrv, -⟩ := h.inv.keyed a id hid
        rw [if_neg]
        · exact AList.lookup_erase a m.serversByAddress
        · simp [hsrv, (h.follows a).interface hremove hid hsrv]
    · rw [Function.update_of_ne ha]
      exact (h.follows a).of_same (removeAddress_lookup_ne ha) sameServers_removeAddress

/-- A server fails, or it has sent its Bye. -/
theorem Tracks.stopServer (h : m.Tracks told) (id : ℕ) (graceful : Bool) :
    (m.stopServer id graceful).Tracks told where
  inv := h.inv.stopServer id graceful
  working := h.working
  follows := fun a => (h.follows a).of_same rfl (sameServers_stopServer id graceful)

/-- **A call keeps the manager in step.** -/
theorem Tracks.perform (h : m.Tracks told) {k : ℕ → Answers} {n : ℕ} {c : Netlink.Call}
    (hc : c.update.Allowed told)
    (hraised : ((managerHandler k).perform n c m).2 = false) :
    ((managerHandler k).perform n c m).1.Tracks (c.update.apply told) := by
  cases c with
  | addAddress iface addr => exact h.addAddress hc hraised
  | removeAddress iface addr => exact h.removeAddress hc

theorem step_own {e : Event} {id : ℕ} (h : step m e = some m')
    (he : e = .fatal id ∨ e = .byeDone id) : m' = m.stopServer id false := by
  rcases step_cases h with ⟨_, _, _, rfl, -⟩ | ⟨_, _, rfl, -⟩ | ⟨_, rfl, -⟩ | ⟨id', he', rfl⟩
  · simp at he
  · simp at he
  · simp at he
  · have hid : id' = id := by
      rcases he with rfl | rfl <;> rcases he' with he' | he' <;> simp_all
    rw [hid]

/-- The updates of some calls. -/
def updatesOf (cs : List (ℕ × Netlink.Call)) : List (Update IpAddress NetworkInterface) :=
  cs.map fun c => c.2.update

/-- All calls for a datagram. -/
theorem Tracks.performAll {T : AddressTable} {k : ℕ → Answers} {cs : List (ℕ × Netlink.Call)}
    (h : m.Tracks told) (hpart : Part told T) (hallowed : AllowedAll T (updatesOf cs))
    (hraises : (managerHandler k).raises cs m = false) :
    ((managerHandler k).performAll cs m).2.Tracks (applyAll told (updatesOf cs)) := by
  induction cs generalizing m told T with
  | nil => exact h
  | cons c cs ih =>
    obtain ⟨n, c⟩ := c
    obtain ⟨hc, hcs⟩ := hallowed
    rw [Handler.raises] at hraises
    split_ifs at hraises with hraised
    rw [Handler.performAll, if_neg hraised]
    exact ih (h.perform (hpart.allowed hc) (Bool.eq_false_iff.2 hraised)) (hpart.apply _) hcs
      hraises

end ServerManager

/-! ### The manager and the kernel -/

/-- The monitor with the manager as its handler, and the table of the kernel. -/
structure Tracking where
  monitor : InterfaceMonitor ServerManager
  table : AddressTable

/-- The kernel sends a datagram, a receive fails, a server fails or has sent its Bye, or everything
is stopped (`ServerManager::stop`). -/
inductive TrackingEvent where
  | datagram (k : ℕ → Answers) (ms : List Netlink.Message) (sent : Bool)
  | failed (aborted : Bool)
  | fatal (id : ℕ)
  | byeDone (id : ℕ)
  | stop (graceful : Bool)

/-- The address in a message, of either family. -/
def Netlink.AddressMessage.address (m : AddressMessage) : Option IpAddress :=
  m.reportedAddress { enableIPv4 := true, enableIPv6 := true }

/-- What a message says of the table: an address that is reported as usable gets in, and an address
that is deleted gets out, whatever the flags of the message and the configuration are. -/
def Netlink.Message.update (cfg : MonitorConfig) (io : Interfaces) :
    Netlink.Message → Option (Update IpAddress NetworkInterface)
  | .address f =>
    if f.message.isNew then (f.message.call cfg io).map Netlink.Call.update
    else f.message.address.map fun addr => .drop addr ⟨f.message.ifName io, f.message.ifIndex⟩
  | .other _ => none

/-- What the call that a message leads to says of it. -/
def Netlink.Message.heard (cfg : MonitorConfig) (io : Interfaces) (m : Netlink.Message) :
    Option (Update IpAddress NetworkInterface) := (m.call cfg io).map Netlink.Call.update

theorem address_of_reportedAddress {cfg : MonitorConfig} {m : AddressMessage} {addr : IpAddress}
    (h : m.reportedAddress cfg = some addr) : m.address = some addr := by
  unfold AddressMessage.address
  unfold AddressMessage.reportedAddress at h ⊢
  split_ifs at h with h4 h6
  · rw [if_pos ⟨h4.1, rfl⟩]
    exact h
  · have hne : ¬ (m.family = afInet ∧ true = true) := by
      rw [h6.1]
      decide
    rw [if_neg hne, if_pos ⟨h6.1, rfl⟩]
    exact h

/-- The call for the deletion of an address is about this address. -/
theorem call_eq_removeAddress {cfg : MonitorConfig} {io : Interfaces} {m : AddressMessage}
    {c : Netlink.Call} (h : m.call cfg io = some c) (hnew : m.isNew = false) :
    ∃ addr, m.address = some addr ∧ c = .removeAddress ⟨m.ifName io, m.ifIndex⟩ addr := by
  cases hrep : m.reports cfg io with
  | none =>
    rw [AddressMessage.call, hrep] at h
    cases h
  | some found =>
    obtain ⟨iface, addr⟩ := found
    rw [AddressMessage.call, hrep] at h
    dsimp only at h
    rw [hnew, if_neg Bool.false_ne_true, Option.some.injEq] at h
    unfold AddressMessage.reports at hrep
    cases haddr : m.reportedAddress cfg with
    | none => simp [haddr] at hrep
    | some addr' =>
      rw [haddr] at hrep
      dsimp only at hrep
      split_ifs at hrep
      obtain ⟨rfl, rfl⟩ := Prod.mk.inj (Option.some.inj hrep)
      exact ⟨addr', address_of_reportedAddress haddr, h.symm⟩

theorem update_of_heard {cfg : MonitorConfig} {io : Interfaces} (m : Netlink.Message)
    (u : Update IpAddress NetworkInterface) (h : u ∈ m.heard cfg io) : u ∈ m.update cfg io := by
  cases m with
  | other => cases h
  | address f =>
    obtain ⟨c, hc, rfl⟩ := Option.map_eq_some_iff.1 h
    unfold Netlink.Message.update
    dsimp only
    split_ifs with hnew
    · exact Option.mem_map_of_mem _ hc
    · obtain ⟨addr, haddr, rfl⟩ := call_eq_removeAddress hc (Bool.eq_false_iff.2 hnew)
      rw [haddr]
      rfl

/-- What some messages say of the table. -/
def updates (cfg : MonitorConfig) (io : Interfaces) (ms : List Netlink.Message) :
    List (Update IpAddress NetworkInterface) := ms.filterMap (Netlink.Message.update cfg io)

/-- What the calls for them say of it. -/
def heard (cfg : MonitorConfig) (io : Interfaces) (ms : List Netlink.Message) :
    List (Update IpAddress NetworkInterface) := (rule cfg io ms).map Netlink.Call.update

/-- A message that ends the loop over the messages is the last one. -/
def EndsLast (ms : List Netlink.Message) : Prop := ∀ m ∈ ms.dropLast, m.ends = none

theorem heard_eq_filterMap {cfg : MonitorConfig} {io : Interfaces} {ms : List Netlink.Message}
    (h : EndsLast ms) : heard cfg io ms = ms.filterMap (Netlink.Message.heard cfg io) := by
  unfold heard rule
  rw [List.map_filterMap]
  show (ms.takeWhile fun m => m.ends.isNone).filterMap (Netlink.Message.heard cfg io) = _
  induction ms with
  | nil => rfl
  | cons m ms ih =>
    cases hends : m.ends with
    | none =>
      have hrest : EndsLast ms := by
        cases ms with
        | nil => simp [EndsLast]
        | cons => exact fun m' hm' => h m' (List.mem_cons_of_mem _ hm')
      rw [List.takeWhile_cons_of_pos (by simp [hends]), List.filterMap_cons, List.filterMap_cons,
        ih hrest]
    | some status =>
      cases m with
      | address f => cases hends
      | other m =>
        cases ms with
        | nil =>
          rw [List.takeWhile_cons_of_neg (by simp [hends])]
          rfl
        | cons =>
          have hnone := h _ List.mem_cons_self
          rw [hends] at hnone
          cases hnone

namespace Tracking

open InterfaceMonitor

variable (cfg : MonitorConfig) (io : Interfaces)

/-- The manager does something by itself. -/
def serverStep (x : Tracking) (e : ServerManager.Event) : Option Tracking :=
  if x.monitor.raised || x.monitor.outside then none
  else (ServerManager.step x.monitor.handler e).map fun handler =>
    { x with monitor := { x.monitor with handler } }

/-- What happens in an event.  The datagrams tell what has happened to the table. -/
def step (x : Tracking) : TrackingEvent → Option Tracking
  | .datagram k ms sent =>
    (InterfaceMonitor.step managerHandler cfg x.monitor
      (.received k ((Netlink.Message.encodeAll ms).take x.monitor.bufferSize) sent)).map fun monitor =>
        { monitor, table := applyAll x.table (updates cfg io ms) }
  | .failed aborted =>
    (InterfaceMonitor.step managerHandler cfg x.monitor (.failed aborted)).map fun monitor =>
      { x with monitor }
  | .fatal id => x.serverStep (.fatal id)
  | .byeDone id => x.serverStep (.byeDone id)
  | .stop graceful => do
    let x ← x.serverStep (.stop graceful)
    return { x with monitor := x.monitor.stop }

/-- The monitor is started; some addresses are in the table already. -/
def start (pageSize : ℕ) (table : AddressTable) (sent : Bool) : Tracking where
  monitor := (create pageSize {}).start sent
  table

/-- The monitor, from its start on. -/
def machine (pageSize : ℕ) (table : AddressTable) : Machine Tracking TrackingEvent where
  init x := ∃ sent, x = start pageSize table sent
  step := step cfg io

/-- What the kernel keeps to: it answers every question about an interface, always in the same way;
an address is on one interface at a time; every deletion of an address in the table has usable flags
and names the interface that the address was reported with, so that it leads to a call; and a datagram
that does not fit the buffer only confirms what is in the table, as the answer to a request does. -/
structure HonestDatagram (x : Tracking) (k : ℕ → Answers) (ms : List Netlink.Message) : Prop where
  answering : Answering io k 0 ms
  endsLast : EndsLast ms
  heardAll : HeardAll (Netlink.Message.update cfg io) (Netlink.Message.heard cfg io) x.table ms
  fits : (Netlink.Message.encodeAll ms).length ≤ x.monitor.bufferSize ∨
    ∀ u ∈ updates cfg io ms, u.Confirms x.table

/-- The kernel keeps to it in an event. -/
def Honest (x : Tracking) : TrackingEvent → Prop
  | .datagram k ms _ => HonestDatagram cfg io x k ms
  | _ => True

/-- The updates that the manager was told. -/
def told (x : Tracking) : List (Update IpAddress NetworkInterface) :=
  x.monitor.calls.map Netlink.Call.update

/-- What holds in every state while the kernel keeps to it. -/
structure Inv (pageSize : ℕ) (table : AddressTable) (x : Tracking) : Prop where
  sound : x.monitor.Sound pageSize
  inside : x.monitor.outside = false
  tracks : x.monitor.attached = true → x.monitor.raised = false →
    x.monitor.handler.Tracks (applyAll (fun _ => none) x.told) ∧ x.table = applyAll table x.told

variable {cfg : MonitorConfig} {io : Interfaces} {pageSize : ℕ} {table : AddressTable}
  {x y : Tracking} {ms : List Netlink.Message} {k : ℕ → Answers} {sent : Bool}

theorem inv_start (sent : Bool) : (start pageSize table sent).Inv pageSize table where
  sound := sound_start _
  inside := by cases sent <;> rfl
  tracks := by
    intro _ _
    have htold : (start pageSize table sent).told = [] := by cases sent <;> rfl
    have hhandler : (start pageSize table sent).monitor.handler = {} := by cases sent <;> rfl
    rw [htold, hhandler]
    exact ⟨⟨ServerManager.Inv.init, rfl, fun a => rfl⟩, rfl⟩

/-- What is not handled of a datagram, or leads to no call, says nothing new. -/
theorem heard_whole (hok : HonestDatagram cfg io x k ms) :
    AllowedAll x.table (heard cfg io (Netlink.Message.whole x.monitor.bufferSize ms)) ∧
      applyAll x.table (updates cfg io ms) =
        applyAll x.table (heard cfg io (Netlink.Message.whole x.monitor.bufferSize ms)) := by
  rcases hok.fits with hfits | hconfirms
  · obtain ⟨htable, hallowed⟩ := hok.heardAll.applyAll_eq update_of_heard
    rw [← heard_eq_filterMap hok.endsLast] at htable hallowed
    rw [Netlink.Message.whole_of_le hfits]
    exact ⟨hallowed, htable.symm⟩
  · obtain ⟨later, hlater⟩ := Netlink.Message.whole_prefix x.monitor.bufferSize ms
    have hwhole : ∀ u ∈ heard cfg io (Netlink.Message.whole x.monitor.bufferSize ms),
        u.Confirms x.table := by
      intro u hu
      obtain ⟨c, hc, rfl⟩ := List.mem_map.1 hu
      obtain ⟨m, hm, hcall⟩ := List.mem_filterMap.1 hc
      have hmem : m ∈ ms := hlater ▸ List.mem_append_left later ((List.takeWhile_prefix _).subset hm)
      exact hconfirms _ (List.mem_filterMap.2
        ⟨m, hmem, update_of_heard m _ (Option.mem_map_of_mem _ hcall)⟩)
    exact ⟨allowedAll_of_confirms hwhole,
      (applyAll_of_confirms hconfirms).trans (applyAll_of_confirms hwhole).symm⟩

theorem updatesOf_calls : ServerManager.updatesOf (Netlink.Message.calls cfg io 0 ms) =
    heard cfg io ms := by
  rw [heard, rule, ← Netlink.Message.calls_map_snd cfg io 0, List.map_map]
  rfl

/-- What the manager was told is a part of what the kernel has. -/
theorem part_told (h : x.table = applyAll table x.told) :
    Part (applyAll (fun _ => none) x.told) x.table := by
  rw [h]
  exact Part.applyAll (fun _ => .inl rfl) x.told

/-- What a datagram makes of the monitor while it has a handler. -/
theorem Inv.heard_completed (hpage : pageSize % 2 = 0) (h : x.Inv pageSize table)
    {receives : List ℕ} {st : InterfaceMonitor ServerManager}
    (hok : x.Honest cfg io (.datagram k ms sent)) (hattached : x.monitor.attached = true)
    (hraised : x.monitor.raised = false)
    (hst : Completed managerHandler cfg k
      ((Netlink.Message.encodeAll ms).take x.monitor.bufferSize)
      { x.monitor with receives } st) :
    st.outside = false ∧ (st.raised = false →
      st.handler.Tracks (applyAll (fun _ => none) (x.told ++
        heard cfg io (Netlink.Message.whole x.monitor.bufferSize ms))) ∧
      st.calls = x.monitor.calls ++ rule cfg io
        (Netlink.Message.whole x.monitor.bufferSize ms)) := by
  obtain ⟨tail, parser, -, hparse, hcalls, hhandler⟩ := parseBufferFor_cut (managerHandler k) cfg
    (Watched.bufferSize_mod hpage h.sound) hok.answering x.monitor.handler
  obtain ⟨htracks, hknown⟩ := h.tracks hattached hraised
  rcases hst.parsed with hnone | ⟨status, found, hsome, hstatus, hst⟩
  · rw [hparse] at hnone
    cases hnone
  · rw [hparse] at hsome
    obtain ⟨hquiet, rfl⟩ := Prod.mk.inj (Option.some.inj hsome)
    refine ⟨hst.1.trans h.inside, fun hr => ?_⟩
    have hnot : (managerHandler k).raises (Netlink.Message.calls cfg io 0
        (Netlink.Message.whole x.monitor.bufferSize ms)) x.monitor.handler = false := by
      by_contra htrue
      rw [if_pos (Bool.eq_true_of_not_eq_false htrue)] at hquiet
      exact hstatus hr hquiet.symm
    have hwhole := (heard_whole hok).1
    rw [← updatesOf_calls] at hwhole
    constructor
    · rw [applyAll_append, hst.2.1, hhandler, ← updatesOf_calls]
      exact htracks.performAll (part_told hknown) hwhole hnot
    · rw [hst.2.2, hcalls, Handler.performAll_of_not_raises _ hnot,
        Netlink.Message.calls_map_snd]
      rfl

/-- A datagram while the monitor has a handler. -/
theorem Inv.completed (hpage : pageSize % 2 = 0) (h : x.Inv pageSize table)
    {receives : List ℕ} {st : InterfaceMonitor ServerManager}
    (hok : x.Honest cfg io (.datagram k ms sent)) (hattached : x.monitor.attached = true)
    (hraised : x.monitor.raised = false) (hsound : st.Sound pageSize)
    (hst : Completed managerHandler cfg k
      ((Netlink.Message.encodeAll ms).take x.monitor.bufferSize)
      { x.monitor with receives } st) :
    (⟨st, applyAll x.table (updates cfg io ms)⟩ : Tracking).Inv pageSize table := by
  obtain ⟨hinside, hheard⟩ := h.heard_completed hpage hok hattached hraised hst
  refine ⟨hsound, hinside, fun _ hr => ?_⟩
  obtain ⟨htracks, hcalls⟩ := hheard hr
  have htold : (⟨st, applyAll x.table (updates cfg io ms)⟩ : Tracking).told =
      x.told ++ heard cfg io (Netlink.Message.whole x.monitor.bufferSize ms) := by
    show st.calls.map _ = _
    rw [hcalls, List.map_append]
    rfl
  rw [htold]
  refine ⟨htracks, ?_⟩
  rw [applyAll_append, ← (h.tracks hattached hraised).2]
  exact (heard_whole hok).2

/-- The manager does something by itself. -/
theorem serverStep_cases {e : ServerManager.Event} (h : x.serverStep e = some y) :
    ∃ handler, ServerManager.step x.monitor.handler e = some handler ∧
      y = { x with monitor := { x.monitor with handler } } := by
  unfold serverStep at h
  split_ifs at h
  obtain ⟨handler, hstep, rfl⟩ := Option.map_eq_some_iff.1 h
  exact ⟨handler, hstep, rfl⟩

/-- A server stops by itself. -/
theorem Inv.stopServer (h : x.Inv pageSize table) (id : ℕ) :
    ({ x with monitor := { x.monitor with handler := x.monitor.handler.stopServer id false } } :
      Tracking).Inv pageSize table where
  sound := ⟨h.sound.one, h.sound.reading, h.sound.isOpen, h.sound.doubled⟩
  inside := h.inside
  tracks := fun hattached hraised =>
    ⟨(h.tracks hattached hraised).1.stopServer id false, (h.tracks hattached hraised).2⟩

/-- **The event step.** -/
theorem Inv.step (hpage : pageSize % 2 = 0) (h : x.Inv pageSize table) {e : TrackingEvent}
    (hok : x.Honest cfg io e) (hst : step cfg io x e = some y) : y.Inv pageSize table := by
  cases e with
  | datagram k ms sent =>
    obtain ⟨st, hmonitor, rfl⟩ := Option.map_eq_some_iff.1 hst
    have hsound := h.sound.step hmonitor
    obtain ⟨hraised, -, hstep⟩ := step_cases hmonitor
    cases hstep with
    | completed _ _ hattached hcompleted =>
      exact h.completed hpage hok hattached hraised hsound hcompleted
    | detached _ hdetached =>
      exact ⟨hsound, h.inside, fun hattached => absurd hattached (by simp [hdetached])⟩
  | failed aborted =>
    obtain ⟨st, hmonitor, rfl⟩ := Option.map_eq_some_iff.1 hst
    have hsound := h.sound.step hmonitor
    obtain ⟨hraised, -, hstep⟩ := step_cases hmonitor
    cases hstep with
    | detached _ hdetached =>
      exact ⟨hsound, h.inside, fun hattached => absurd hattached (by simp [hdetached])⟩
    | failed =>
      cases aborted with
      | true => exact ⟨hsound, h.inside, fun hattached _ => h.tracks hattached hraised⟩
      | false => exact ⟨hsound, h.inside, fun _ hr => nomatch hr⟩
  | fatal id =>
    obtain ⟨handler, hstep, rfl⟩ := serverStep_cases hst
    obtain rfl := ServerManager.step_own hstep (.inl rfl)
    exact h.stopServer id
  | byeDone id =>
    obtain ⟨handler, hstep, rfl⟩ := serverStep_cases hst
    obtain rfl := ServerManager.step_own hstep (.inr rfl)
    exact h.stopServer id
  | stop graceful =>
    obtain ⟨z, hz, hy⟩ := Option.bind_eq_some_iff.1 hst
    obtain ⟨handler, -, rfl⟩ := serverStep_cases hz
    obtain rfl := Option.some.inj hy
    exact ⟨⟨h.sound.one, fun hattached => (nomatch hattached), rfl, h.sound.doubled⟩, h.inside,
      fun hattached => (nomatch hattached)⟩

/-- **The manager has the addresses that the kernel has.**  In every run in which the kernel keeps to
it (`HonestDatagram`), as long as the monitor is at work: the entry of every address that was
mentioned is as the table of the kernel says, no other address has an entry, and every running server
is the one of its entry, for an address that the kernel has, on its interface.  When all addresses
that were in the table at the start were mentioned, the entries are those of the table. -/
theorem tracks (cfg : MonitorConfig) (io : Interfaces) (pageSize : ℕ) (hpage : pageSize % 2 = 0)
    (table : AddressTable) (sent : Bool) (es : List TrackingEvent) (x : Tracking)
    (hok : (machine cfg io pageSize table).Along (Honest cfg io) (start pageSize table sent) es)
    (hrun : (machine cfg io pageSize table).run (start pageSize table sent) es = some x) :
    x.monitor.outside = false ∧
      (x.monitor.attached = true → x.monitor.raised = false →
        (∀ a, (∃ u ∈ x.told, u.key = a) → x.monitor.handler.Follows a (x.table a)) ∧
        (∀ a, (∀ u ∈ x.told, u.key ≠ a) → x.monitor.handler.Follows a none) ∧
        (∀ (id : ℕ) (srv : Server), x.monitor.handler.servers[id]? = some srv →
          srv.state = .running → x.table srv.addr = some srv.interface ∧
            x.monitor.handler.serversByAddress.lookup srv.addr = some (some id)) ∧
        ((∀ a, table a ≠ none → ∃ u ∈ x.told, u.key = a) →
          ∀ a, x.monitor.handler.Follows a (x.table a))) := by
  have h : x.Inv pageSize table :=
    (Machine.always_of_along (I := fun x => x.Inv pageSize table)
      (fun _ _ _ hx hhonest hst => hx.step hpage hhonest hst) (inv_start sent) hok).last hrun
  refine ⟨h.inside, fun hattached hraised => ?_⟩
  obtain ⟨htracks, htable⟩ := h.tracks hattached hraised
  have hmentioned : ∀ a, (∃ u ∈ x.told, u.key = a) →
      x.monitor.handler.Follows a (x.table a) := by
    intro a ha
    have hsame : x.table a = applyAll (fun _ => none) x.told a := by
      rw [htable]
      exact applyAll_of_mem ha
    rw [hsame]
    exact htracks.follows a
  have hother : ∀ a, (∀ u ∈ x.told, u.key ≠ a) → x.monitor.handler.Follows a none := by
    intro a ha
    have := htracks.follows a
    rwa [applyAll_of_not_mem ha] at this
  refine ⟨hmentioned, hother, fun id srv hsrv hrunning => ?_, fun hall a => ?_⟩
  · -- a running server is held by its entry, and only mentioned addresses have one
    have hlookup : x.monitor.handler.serversByAddress.lookup srv.addr = some (some id) := by
      rcases htracks.inv.held id srv hsrv hrunning with hlookup | ⟨hstopped, -⟩
      · exact hlookup
      · exact absurd hstopped (by simp [htracks.working])
    refine ⟨?_, hlookup⟩
    have hkey : ∃ u ∈ x.told, u.key = srv.addr := by
      by_contra hnot
      have hnone := hother srv.addr fun u hu hkey => hnot ⟨u, hu, hkey⟩
      rw [ServerManager.Follows, hlookup] at hnone
      cases hnone
    have hfollows := hmentioned srv.addr hkey
    cases hfound : x.table srv.addr with
    | none =>
      rw [hfound, ServerManager.Follows, hlookup] at hfollows
      cases hfollows
    | some iface => rw [hfollows.interface (.inr hfound) hlookup hsrv]
  · by_cases ha : ∃ u ∈ x.told, u.key = a
    · exact hmentioned a ha
    · have hnot : ∀ u ∈ x.told, u.key ≠ a := fun u hu hkey => ha ⟨u, hu, hkey⟩
      have hnone : x.table a = none := by
        rw [htable, applyAll_of_not_mem hnot]
        by_contra hsome
        exact ha (hall a hsome)
      rw [hnone]
      exact hother a hnot

/-- The kernel has one address when the monitor is started. -/
def oneAddress : AddressTable :=
  Function.update (fun _ => none) (.v4 0x0A000001#32) (some ⟨SysString.ofLiteral "eth0", 2⟩)

/-- It is told, and the server for it fails. -/
def announced : List TrackingEvent :=
  [.datagram (fun _ => ⟨some (SysString.ofLiteral "eth1"), some 0x1043, .started⟩)
    [.address labelledFrame, .other doneMessage] true, .fatal 0]

theorem tracks_announced : ∃ x,
    (machine {} multicasting 4096 oneAddress).run (start 4096 oneAddress true) announced = some x ∧
      x.monitor.handler.servers.length = 1 ∧ ∀ a, x.monitor.handler.Follows a (x.table a) := by
  have hrule : rule {} multicasting [.address labelledFrame, .other doneMessage] =
      [.addAddress ⟨SysString.ofLiteral "eth0", 2⟩ (.v4 0x0A000001#32)] := by decide +kernel
  have hcall : labelledFrame.message.call {} multicasting =
      some (.addAddress ⟨SysString.ofLiteral "eth0", 2⟩ (.v4 0x0A000001#32)) := by decide +kernel
  have hupdate : Netlink.Message.update {} multicasting (.address labelledFrame) =
      some (.set (.v4 0x0A000001#32) ⟨SysString.ofLiteral "eth0", 2⟩) := by
    have hnew : labelledFrame.message.isNew = true := rfl
    rw [Netlink.Message.update, if_pos hnew, hcall]
    rfl
  have hheard : Netlink.Message.heard {} multicasting (.address labelledFrame) =
      some (.set (.v4 0x0A000001#32) ⟨SysString.ofLiteral "eth0", 2⟩) := by
    rw [Netlink.Message.heard, Netlink.Message.call, hcall]
    rfl
  have hone : oneAddress (.v4 0x0A000001#32) = some ⟨SysString.ofLiteral "eth0", 2⟩ :=
    Function.update_self _ _ _
  have hok : (machine {} multicasting 4096 oneAddress).Along (Honest {} multicasting)
      (start 4096 oneAddress true) announced := by
    refine ⟨⟨fun _ _ _ => ⟨rfl, rfl⟩, fun m hm => ?_, ⟨fun u hu => ?_, by simp [HeardAll,
      Netlink.Message.update]⟩, .inl (by decide +kernel)⟩, fun _ _ => ⟨trivial, fun _ _ => trivial⟩⟩
    · rw [List.mem_singleton.1 hm]
      rfl
    · obtain rfl := Option.some.inj (hupdate.symm.trans hu)
      exact ⟨.inr hone, .inl hheard⟩
  have hrun : ((machine {} multicasting 4096 oneAddress).run (start 4096 oneAddress true)
      announced).map (fun x => (x.monitor.calls, x.monitor.handler.servers.length,
        x.monitor.attached, x.monitor.raised)) =
      some ([.addAddress ⟨SysString.ofLiteral "eth0", 2⟩ (.v4 0x0A000001#32)], 1, true, false) := by
    decide +kernel
  obtain ⟨x, hx, hsame⟩ := Option.map_eq_some_iff.1 hrun
  simp only [Prod.mk.injEq] at hsame
  obtain ⟨hcalls, hserver, hattached, hraised⟩ := hsame
  obtain ⟨-, -, -, -, hall⟩ := (tracks {} multicasting 4096 (by decide) oneAddress true announced x
    hok hx).imp id fun h => h hattached hraised
  refine ⟨x, hx, hserver, hall fun a ha => ?_⟩
  have htold : x.told = [.set (.v4 0x0A000001#32) ⟨SysString.ofLiteral "eth0", 2⟩] :=
    congrArg (List.map Netlink.Call.update) hcalls
  refine ⟨_, htold ▸ List.mem_cons_self, ?_⟩
  by_contra hne
  exact ha (Function.update_of_ne (Ne.symm hne) _ _)

end Tracking

end Wsddn

import Wsddn.Manager.Retained
import Wsddn.Netlink.Message

/-!
# When a deleted address is still served

An address that the kernel has deleted must not be served until it is reported again.  Additions
and deletions go through the same filters, so a deletion is dropped when its flags say that the
address is not usable, and when the name of its interface cannot be found out any more or is not
the name that the server was made with.

* `machine` : the monitor, message by message, with what happens to the servers in between.
* `run_buffer` : what `parseBuffer` does with a buffer is a run of this machine.
* `NotStale` : no deleted address is served on the interface that it was deleted from.
* `notStale_iff` : **no deleted address is served along a run exactly if every deletion of an
  address that is served has usable flags and the name of the interface of its server.**
* `served_after_deletion` : what happens otherwise.
-/

namespace Wsddn

namespace ServerManager

variable {m m' : ServerManager} {interface : NetworkInterface} {a b : IpAddress} {srv : Server}

/-! ### The servers that run -/

/-- The running server that is stored for the address. -/
def served (m : ServerManager) (a : IpAddress) : Option Server :=
  match m.serversByAddress.lookup a with
  | some (some id) => (m.servers[id]?).filter fun srv => srv.state = .running
  | _ => none

theorem served_eq_some_iff :
    m.served a = some srv ↔ ∃ id, m.serversByAddress.lookup a = some (some id) ∧
      m.servers[id]? = some srv ∧ srv.state = .running := by
  unfold served
  split
  · rename_i id hl
    simp [Option.filter_eq_some_iff, hl]
  · rename_i hl
    simp only [reduceCtorEq, false_iff]
    rintro ⟨id, h, -⟩
    exact hl id h

/-- Nobody starts to run when the entries are the same and no server starts to run. -/
theorem served_of_served (h : m'.served a = some srv)
    (hl : ∀ id, m'.serversByAddress.lookup a = some (some id) →
      m.serversByAddress.lookup a = some (some id))
    (hs : ∀ id, m.serversByAddress.lookup a = some (some id) → m'.servers[id]? = some srv →
      srv.state = .running → m.servers[id]? = some srv) : m.served a = some srv := by
  obtain ⟨id, hid, hsrv, hrun⟩ := served_eq_some_iff.1 h
  exact served_eq_some_iff.2 ⟨id, hl id hid, hs id (hl id hid) hsrv hrun, hrun⟩

theorem served_stopServer {id : ℕ} (h : (m.stopServer id false).served a = some srv) :
    m.served a = some srv := by
  refine served_of_served h (fun _ hl => hl) fun j _ hsrv hrun => ?_
  obtain ⟨srv₀, h₀, rfl⟩ := stopServer_getElem?_eq_some.1 hsrv
  split_ifs at hrun ⊢ with hid
  · exact absurd hrun srv₀.stop_false_state
  · exact h₀

theorem served_stop (graceful : Bool) : (m.stop graceful).served a = none := by
  simp [served, ServerManager.stop]

/-- `addAddress` has nothing to do with the servers of other addresses. -/
theorem served_addAddress {created : Created} (hm : m.Keyed) (hne : b ≠ a)
    (h : (m.addAddress interface a created).served b = some srv) : m.served b = some srv := by
  unfold ServerManager.addAddress at h
  dsimp only at h
  split_ifs at h
  · refine served_of_served h (fun id hl => reference_lookup.1 hl) fun id _ hsrv _ => ?_
    rwa [reference_servers] at hsrv
  · refine served_of_served h (fun id hl => ?_) fun id hl hsrv _ => ?_
    · cases created with
      | raised => exact reference_lookup.1 hl
      | failed => exact reference_lookup.1 ((AList.lookup_insert_ne hne).symm.trans hl)
      | started => exact reference_lookup.1 ((AList.lookup_insert_ne hne).symm.trans hl)
    · cases created with
      | raised => rwa [← reference_servers]
      | failed => rwa [← reference_servers]
      | started =>
        -- the new server has a new number
        obtain hold | ⟨hid, -⟩ := getElem?_concat_eq_some hsrv
        · rwa [reference_servers] at hold
        · obtain ⟨srv₀, h₀, -⟩ := hm b id hl
          have hlt := (List.getElem?_eq_some_iff.1 h₀).1
          rw [reference_servers] at hid
          omega

theorem served_erase_self {a : IpAddress}
    (hl : m'.serversByAddress = m.serversByAddress.erase a) : m'.served a = none := by
  simp [served, hl]

theorem served_removeAddress (h : (m.removeAddress interface a).served b = some srv) :
    m.served b = some srv := by
  have herase : ∀ {m' : ServerManager}, { m' with
      serversByAddress := m'.serversByAddress.erase a }.served b = some srv →
      m'.served b = some srv := by
    intro m' h
    refine served_of_served h (fun id hl => ?_) fun _ _ hsrv _ => hsrv
    have hne : b ≠ a := by
      rintro rfl
      simp at hl
    exact (AList.lookup_erase_ne hne).symm.trans hl
  unfold ServerManager.removeAddress at h
  split at h
  · exact h
  · exact herase h
  · split_ifs at h
    · exact h
    · exact served_stopServer (herase h)

theorem addAddress_stopped {created : Created} :
    (m.addAddress interface a created).stopped = m.stopped := by
  unfold ServerManager.addAddress
  dsimp only
  split_ifs
  · exact reference_stopped
  · cases created <;> exact reference_stopped

theorem removeAddress_stopped : (m.removeAddress interface a).stopped = m.stopped := by
  unfold ServerManager.removeAddress
  split
  · rfl
  · rfl
  · split_ifs <;> rfl

/-- What `removeAddress` does when the address is served. -/
theorem removeAddress_of_served (h : m.served a = some srv) (interface : NetworkInterface) :
    if srv.interface = interface then (m.removeAddress interface a).served a = none
    else m.removeAddress interface a = m := by
  obtain ⟨id, hid, hsrv, hrun⟩ := served_eq_some_iff.1 h
  split_ifs with hi
  · have hany : ¬ ((m.servers[id]?).any fun srv => srv.interface ≠ interface) = true := by
      simp [hsrv, hi]
    unfold ServerManager.removeAddress
    rw [hid]
    dsimp only
    rw [if_neg hany]
    exact served_erase_self (m := m.stopServer id false) rfl
  · have hany : ((m.servers[id]?).any fun srv => srv.interface ≠ interface) = true := by
      simp [hsrv, hi]
    unfold ServerManager.removeAddress
    rw [hid]
    dsimp only
    rw [if_pos hany]

/-! ### The interfaces of the servers -/

/-- Every server was made for an interface with this property. -/
def AllInterfaces (P : NetworkInterface → Prop) (m : ServerManager) : Prop :=
  ∀ srv ∈ m.servers, P srv.interface

variable {P : NetworkInterface → Prop}

theorem AllInterfaces.addAddress {created : Created} (hm : m.AllInterfaces P) (hi : P interface) :
    (m.addAddress interface a created).AllInterfaces P := by
  unfold ServerManager.addAddress
  dsimp only
  split_ifs
  · intro srv hsrv
    rw [reference_servers] at hsrv
    exact hm srv hsrv
  · intro srv hsrv
    cases created with
    | raised => exact hm srv (reference_servers ▸ hsrv)
    | failed => exact hm srv (reference_servers ▸ hsrv)
    | started =>
      obtain hold | hnew := List.mem_append.1 hsrv
      · exact hm srv (reference_servers ▸ hold)
      · rw [List.mem_singleton.1 hnew]
        exact hi

theorem AllInterfaces.stopServer {id : ℕ} {graceful : Bool} (hm : m.AllInterfaces P) :
    (m.stopServer id graceful).AllInterfaces P := by
  intro srv hsrv
  obtain ⟨j, hj⟩ := List.getElem?_of_mem hsrv
  obtain ⟨srv₀, h₀, rfl⟩ := stopServer_getElem?_eq_some.1 hj
  have hP := hm srv₀ (List.mem_of_getElem? h₀)
  split_ifs
  · rwa [Server.stop_interface]
  · exact hP

theorem AllInterfaces.removeAddress (hm : m.AllInterfaces P) :
    (m.removeAddress interface a).AllInterfaces P := by
  unfold ServerManager.removeAddress
  split
  · exact hm
  · exact hm
  · split_ifs
    · exact hm
    · exact hm.stopServer

theorem AllInterfaces.stop {graceful : Bool} (hm : m.AllInterfaces P) :
    (m.stop graceful).AllInterfaces P := by
  have hfold : ∀ (ids : List ℕ) {m : ServerManager}, m.AllInterfaces P →
      (ids.foldl (fun m id => m.stopServer id graceful) m).AllInterfaces P := by
    intro ids
    induction ids with
    | nil => exact fun h => h
    | cons id ids ih => exact fun h => ih h.stopServer
  exact hfold m.stored hm

end ServerManager

namespace Netlink

open ServerManager

variable {cfg : MonitorConfig} {k : Answers} {m : AddressMessage} {st st' : Monitored ServerManager}
  {a : IpAddress} {srv : Server}

/-! ### The monitor, message by message -/

/-- What happens to the monitor and to the servers. -/
inductive Event where
  /-- A receive buffer is parsed. -/
  | buffer
  /-- The next message of the buffer, the messages behind it, and the answers of the system. -/
  | message (m : AddressMessage) (rest : List AddressMessage) (k : Answers)
  /-- What happens to the servers between two calls of the monitor. -/
  | fatal (id : ℕ)
  | byeDone (id : ℕ)
  | stop (graceful : Bool)

/-- An event of the manager that the monitor has no part in. -/
def managerStep (st : Monitored ServerManager) (e : ServerManager.Event) :
    Option (Monitored ServerManager) :=
  (st.handler.step e).map fun handler => { st with handler }

/-- The bytes of some messages, with their attributes filled up with zeros. -/
def encodeAll (ms : List AddressMessage) : List UInt8 :=
  Message.encodeAll (ms.map fun m => .address (.ofMessage m))

/-- What happens in an event; nothing happens after an exception or after the stop. -/
def step (cfg : MonitorConfig) (st : Monitored ServerManager) :
    Event → Option (Monitored ServerManager)
  | .buffer =>
    if st.handler.raised || st.handler.stopped then none else some { handler := st.handler }
  | .message m rest k =>
    if st.handler.raised || st.handler.stopped then none
    else
      match parseMessageFor (managerHandler fun _ => k) cfg 0 k (encodeAll (m :: rest)) st with
      | some (.inr (_, st, _)) => some st
      | _ => none
  | .fatal id => managerStep st (.fatal id)
  | .byeDone id => managerStep st (.byeDone id)
  | .stop graceful => managerStep st (.stop graceful)

/-- The interfaces and addresses that were deleted and not reported again. -/
abbrev Deleted := List (Int × IpAddress)

/-- A deletion is noted whatever comes of it, and a report takes its address out. -/
def deletedAfter (cfg : MonitorConfig) (deleted : Deleted) : Event → Deleted
  | .message m _ _ =>
    match m.addr cfg with
    | none => deleted
    | some a =>
      if m.isNew then deleted.filter fun p => p.2 ≠ a else (m.ifIndex, a) :: deleted
  | _ => deleted

/-- The monitor with the server manager as its handler. -/
def monitor (cfg : MonitorConfig) : Machine (Monitored ServerManager) Event where
  init st := st = { handler := {} }
  step := step cfg

/-- The monitor with the deleted addresses as a history variable. -/
def machine (cfg : MonitorConfig) : Machine (Monitored ServerManager × Deleted) Event :=
  (monitor cfg).withHistory [] fun deleted _ e => deletedAfter cfg deleted e

/-- What a message leads to. -/
def AddressMessage.handle (cfg : MonitorConfig) (k : Answers) (m : AddressMessage)
    (st : Monitored ServerManager) : Monitored ServerManager :=
  (handleFor (managerHandler fun _ => k) cfg 0 k m st).1

/-- A round of the loop for an address message. -/
theorem parseMessageFor_address {σ : Type*} (H : Handler σ) (cfg : MonitorConfig) (n : ℕ)
    (k : Answers) (m : AddressMessage) (rest : List AddressMessage) (st : Monitored σ) :
    parseMessageFor H cfg n k (encodeAll (m :: rest)) st =
      some (.inr ((Message.address (.ofMessage m)).frame.length, handleFor H cfg n k m st)) :=
  parseMessageFor_encode (.address (.ofMessage m)) _

theorem step_message (cfg : MonitorConfig) (k : Answers) (m : AddressMessage)
    (rest : List AddressMessage) (st : Monitored ServerManager) :
    step cfg st (.message m rest k) =
      if st.handler.raised || st.handler.stopped then none else some (m.handle cfg k st) := by
  rw [step, parseMessageFor_address]
  rfl

/-- An interface can be ignored, or the manager gets the address. -/
theorem handleDetectedFor_added (k : Answers) (interface : NetworkInterface) (a : IpAddress)
    (st : Monitored ServerManager) :
    (handleDetectedFor (managerHandler fun _ => k) 0 k true interface a st).1.handler =
        st.handler ∨
      (handleDetectedFor (managerHandler fun _ => k) 0 k true interface a st).1.handler =
        st.handler.addAddress interface a k.created := by
  unfold handleDetectedFor
  rw [if_pos rfl]
  split
  · rename_i ignore _
    cases ignore
    · exact .inr rfl
    · exact .inl rfl
  · split
    · exact .inl rfl
    · dsimp only
      split
      · exact .inl rfl
      · exact .inr rfl

/-- What a message leads to, seen from the manager. -/
theorem handle_cases (cfg : MonitorConfig) (k : Answers) (m : AddressMessage)
    (st : Monitored ServerManager) :
    (m.handle cfg k st).handler = st.handler ∧
        (m.isNew = false → m.detected cfg k = none) ∨
      ∃ interface a, m.detected cfg k = some (interface, a) ∧
        (m.handle cfg k st).handler =
          if m.isNew then st.handler.addAddress interface a k.created
          else st.handler.removeAddress interface a := by
  unfold AddressMessage.handle handleFor
  cases hd : m.detected cfg k with
  | none => exact .inl ⟨rfl, fun _ => rfl⟩
  | some p =>
    obtain ⟨interface, a⟩ := p
    dsimp only
    cases hnew : m.isNew with
    | false => exact .inr ⟨interface, a, rfl, rfl⟩
    | true =>
      obtain h | h := handleDetectedFor_added k interface a st
      · exact .inl ⟨h, nofun⟩
      · exact .inr ⟨interface, a, rfl, h⟩

theorem handle_stopped (cfg : MonitorConfig) (k : Answers) (m : AddressMessage)
    (st : Monitored ServerManager) :
    (m.handle cfg k st).handler.stopped = st.handler.stopped := by
  obtain ⟨h, -⟩ | ⟨interface, a, -, h⟩ := handle_cases cfg k m st
  · rw [h]
  · rw [h]
    split_ifs
    · exact addAddress_stopped
    · exact removeAddress_stopped

/-- A call that returns leaves the manager without an exception. -/
theorem handle_raised {k : ℕ → Answers} {n : ℕ} (hr : st.handler.raised = false)
    (h : (handleFor (managerHandler k) cfg n (k n) m st).2 = false) :
    (handleFor (managerHandler k) cfg n (k n) m st).1.handler.raised = false := by
  unfold handleFor at h ⊢
  cases hd : m.detected cfg (k n) with
  | none => exact hr
  | some p =>
    obtain ⟨interface, a⟩ := p
    rw [hd] at h
    unfold handleDetectedFor at h ⊢
    dsimp only at h ⊢
    split_ifs at h ⊢ with hnew
    · split at h
      · split_ifs at h ⊢ <;> assumption
      · split at h
        · exact hr
        · split_ifs at h ⊢ <;> assumption
    · exact h

/-- The events of a buffer. -/
def bufferEvents (k : ℕ → Answers) : ℕ → List AddressMessage → List Event
  | _, [] => []
  | n, m :: ms => .message m ms (k n) :: bufferEvents k (n + 1) ms

theorem run_bufferEvents {k : ℕ → Answers} {fuel n : ℕ} {ms : List AddressMessage}
    {status : ParseStatus} (hr : st.handler.raised = false) (hs : st.handler.stopped = false)
    (h : parseLoopFor (managerHandler k) cfg k fuel n (encodeAll ms) st = some (some status, st')) :
    (monitor cfg).run st (bufferEvents k n ms) = some st' := by
  induction ms generalizing fuel n st with
  | nil =>
    cases fuel with
    | zero => cases h
    | succ fuel => exact congrArg some (Prod.mk.inj (Option.some.inj h)).2
  | cons m ms ih =>
    cases fuel with
    | zero => cases h
    | succ fuel =>
      have hbytes : encodeAll (m :: ms) =
          (Message.address (.ofMessage m)).frame.encode ++ encodeAll ms := List.flatMap_cons
      have hne : encodeAll (m :: ms) ≠ [] := by
        rw [hbytes]
        exact List.append_ne_nil_of_left_ne_nil (List.cons_ne_nil _ _) _
      rw [parseLoopFor, if_neg hne, parseMessageFor_address] at h
      dsimp only at h
      rw [hbytes, ((Message.address (.ofMessage m)).frame.read_encode _).2.2.2.2] at h
      split_ifs at h with hraised
      · cases (Prod.mk.inj (Option.some.inj h)).1
      · have hraised := handle_raised hr (Bool.eq_false_iff.2 hraised)
        refine Machine.run_cons_eq_some.2 ⟨m.handle cfg (k n) st, ?_, ?_⟩
        · have hst := step_message cfg (k n) m ms st
          rwa [hr, hs] at hst
        · exact ih hraised ((handle_stopped cfg (k n) m st).trans hs) h

/-- What `parseBuffer` does with a buffer of messages is a run of the monitor, unless an exception
leaves it. -/
theorem run_buffer {k : ℕ → Answers} {ms : List AddressMessage} {status : ParseStatus}
    (hr : st.handler.raised = false) (hs : st.handler.stopped = false)
    (h : parseBufferFor (managerHandler k) cfg k (encodeAll ms) st.handler =
      some (some status, st')) :
    (monitor cfg).run st (.buffer :: bufferEvents k 0 ms) = some st' := by
  refine Machine.run_cons_eq_some.2 ⟨{ handler := st.handler }, ?_, run_bufferEvents hr hs h⟩
  simp [monitor, step, hr, hs]

/-! ### Deleted addresses -/

/-- No deleted address is served on the interface that it was deleted from. -/
def NotStale (x : Monitored ServerManager × Deleted) : Prop :=
  ∀ p ∈ x.2, ∀ srv ∈ x.1.handler.served p.2, srv.interface.index ≠ p.1

/-- The deletion of an address that is served gets through to its server: the flags do not say
that the address is unusable, and the label of the message, or else the answer of the system, is
the name of the interface of the server. -/
def Ok (cfg : MonitorConfig) (x : Monitored ServerManager × Deleted) : Event → Prop
  | .message m _ k => m.isNew = false → ∀ a ∈ m.addr cfg, ∀ srv ∈ x.1.handler.served a,
      srv.interface.index = m.ifIndex →
      m.flags &&& unusableFlags = 0 ∧ m.label.or k.name = some srv.interface.name
  | _ => True

instance (x : Monitored ServerManager × Deleted) : Decidable (NotStale x) :=
  inferInstanceAs (Decidable (∀ p ∈ x.2, ∀ srv ∈ x.1.handler.served p.2,
    srv.interface.index ≠ p.1))

instance (x : Monitored ServerManager × Deleted) : ∀ e, Decidable (Ok cfg x e)
  | .message m _ k => inferInstanceAs (Decidable (m.isNew = false → ∀ a ∈ m.addr cfg,
      ∀ srv ∈ x.1.handler.served a, srv.interface.index = m.ifIndex →
      m.flags &&& unusableFlags = 0 ∧ m.label.or k.name = some srv.interface.name))
  | .buffer | .fatal _ | .byeDone _ | .stop _ => isTrue trivial

/-- The invariant of the runs whose deletions all get through. -/
structure Inv (cfg : MonitorConfig) (x : Monitored ServerManager × Deleted) : Prop where
  keyed : x.1.handler.Keyed
  allowed : x.1.handler.AllInterfaces fun interface => cfg.isAllowedInterface interface.name = true
  notStale : NotStale x

/-- A deletion that gets through is a deletion on the interface of the server. -/
theorem detected_of_ok {deleted : Deleted} {rest : List AddressMessage}
    (hallowed : st.handler.AllInterfaces fun interface =>
      cfg.isAllowedInterface interface.name = true)
    (hok : Ok cfg (st, deleted) (.message m rest k)) (hnew : m.isNew = false)
    (ha : m.addr cfg = some a) (hsrv : st.handler.served a = some srv)
    (hi : srv.interface.index = m.ifIndex) : m.detected cfg k = some (srv.interface, a) := by
  obtain ⟨hflags, hname⟩ := hok hnew a ha srv hsrv hi
  obtain ⟨id, -, hget, -⟩ := served_eq_some_iff.1 hsrv
  exact AddressMessage.detected_eq_some_iff.2
    ⟨ha, hflags, hname, hi, hallowed srv (List.mem_of_getElem? hget)⟩

theorem mem_deletedAfter {deleted : Deleted} {rest : List AddressMessage} {p : Int × IpAddress}
    (hp : p ∈ deletedAfter cfg deleted (.message m rest k)) :
    (p ∈ deleted ∧ (m.isNew = true → m.addr cfg ≠ some p.2)) ∨
      m.isNew = false ∧ m.addr cfg = some p.2 ∧ p.1 = m.ifIndex := by
  unfold deletedAfter at hp
  dsimp only at hp
  cases ha : m.addr cfg with
  | none =>
    rw [ha] at hp
    exact .inl ⟨hp, fun _ => nofun⟩
  | some a =>
    rw [ha] at hp
    dsimp only at hp
    split_ifs at hp with hnew
    · rw [List.mem_filter, decide_eq_true_eq] at hp
      exact .inl ⟨hp.1, fun _ he => hp.2 (Option.some.inj he).symm⟩
    · obtain rfl | hp := List.mem_cons.1 hp
      · exact .inr ⟨by simpa using hnew, rfl, rfl⟩
      · exact .inl ⟨hp, fun h => absurd h hnew⟩

theorem handle_keyed (h : st.handler.Keyed) : (m.handle cfg k st).handler.Keyed := by
  obtain ⟨he, -⟩ | ⟨interface, a, -, he⟩ := handle_cases cfg k m st
  · rwa [he]
  · rw [he]
    split_ifs
    · exact h.addAddress k.created
    · exact h.removeAddress

theorem handle_allowed
    (h : st.handler.AllInterfaces fun interface => cfg.isAllowedInterface interface.name = true) :
    (m.handle cfg k st).handler.AllInterfaces
      fun interface => cfg.isAllowedInterface interface.name = true := by
  obtain ⟨he, -⟩ | ⟨interface, a, hd, he⟩ := handle_cases cfg k m st
  · rwa [he]
  · rw [he]
    split_ifs
    · exact h.addAddress (AddressMessage.detected_eq_some_iff.1 hd).2.2.2.2
    · exact h.removeAddress

/-- A message does not make an address served that it does not report. -/
theorem served_handle (hm : st.handler.Keyed) (hne : m.isNew = true → m.addr cfg ≠ some a)
    (h : (m.handle cfg k st).handler.served a = some srv) : st.handler.served a = some srv := by
  obtain ⟨he, -⟩ | ⟨interface, b, hd, he⟩ := handle_cases cfg k m st
  · rwa [he] at h
  · rw [he] at h
    split_ifs at h with hnew
    · refine served_addAddress hm ?_ h
      rintro rfl
      exact hne hnew (AddressMessage.detected_eq_some_iff.1 hd).1
    · exact served_removeAddress h

theorem Inv.message {deleted : Deleted} {rest : List AddressMessage}
    (hx : Inv cfg (st, deleted)) (hok : Ok cfg (st, deleted) (.message m rest k)) :
    Inv cfg (m.handle cfg k st, deletedAfter cfg deleted (.message m rest k)) := by
  refine ⟨handle_keyed hx.keyed, handle_allowed hx.allowed, ?_⟩
  rintro ⟨i, a⟩ hp srv hsrv
  have hp : (i, a) ∈ deletedAfter cfg deleted (.message m rest k) := hp
  have hsrv : (m.handle cfg k st).handler.served a = some srv := hsrv
  obtain ⟨hold, hne⟩ | ⟨hnew, ha, rfl⟩ := mem_deletedAfter hp
  · exact hx.notStale (i, a) hold srv (served_handle hx.keyed hne hsrv)
  · -- the message deletes the address: its server is gone, if there was one
    intro hi
    have hnot : m.isNew = true → m.addr cfg ≠ some a := by
      rw [hnew]
      nofun
    have hbefore := served_handle hx.keyed hnot hsrv
    have hd := detected_of_ok hx.allowed hok hnew ha hbefore hi
    obtain ⟨-, hnone⟩ | ⟨interface, b, hd', he⟩ := handle_cases cfg k m st
    · rw [hnone hnew] at hd
      cases hd
    · obtain ⟨rfl, rfl⟩ := Prod.mk.inj (Option.some.inj (hd.symm.trans hd'))
      have hgone := removeAddress_of_served hbefore srv.interface
      rw [if_pos rfl] at hgone
      rw [he, hnew, if_neg Bool.false_ne_true, hgone] at hsrv
      cases hsrv

/-- Where the manager only stops servers, nothing becomes stale. -/
theorem Inv.of_handler {deleted : Deleted} (hx : Inv cfg (st, deleted))
    (hkeyed : st'.handler.Keyed) (hallowed : st'.handler.AllInterfaces fun interface =>
      cfg.isAllowedInterface interface.name = true)
    (hserved : ∀ a srv, st'.handler.served a = some srv → st.handler.served a = some srv) :
    Inv cfg (st', deleted) :=
  ⟨hkeyed, hallowed, fun p hp srv hsrv => hx.notStale p hp srv (hserved p.2 srv hsrv)⟩

/-- Whatever happens to the servers by itself only stops them. -/
theorem Inv.managerStep {deleted : Deleted} {e : ServerManager.Event} (hx : Inv cfg (st, deleted))
    (hst : managerStep st e = some st') (hadd : ∀ i a c, e ≠ .addAddress i a c)
    (hremove : ∀ i a, e ≠ .removeAddress i a) : Inv cfg (st', deleted) := by
  obtain ⟨manager, hstep, rfl⟩ := Option.map_eq_some_iff.1 hst
  obtain ⟨i, a, c, he, -⟩ | ⟨i, a, he, -⟩ | ⟨graceful, -, rfl⟩ | ⟨id, -, rfl⟩ := step_cases hstep
  · exact absurd he (hadd i a c)
  · exact absurd he (hremove i a)
  · refine hx.of_handler (Keyed.stop graceful) hx.allowed.stop fun a srv h => ?_
    rw [served_stop] at h
    cases h
  · exact hx.of_handler (hx.keyed.stopServer id false) hx.allowed.stopServer
      fun _ _ => served_stopServer

theorem Inv.step {deleted : Deleted} {e : Event} (hx : Inv cfg (st, deleted))
    (hok : Ok cfg (st, deleted) e) (hst : step cfg st e = some st') :
    Inv cfg (st', deletedAfter cfg deleted e) := by
  cases e with
  | buffer =>
    unfold Netlink.step at hst
    split_ifs at hst
    obtain rfl := Option.some.inj hst
    exact hx.of_handler hx.keyed hx.allowed fun _ _ h => h
  | message m rest k =>
    rw [step_message] at hst
    split_ifs at hst
    obtain rfl := Option.some.inj hst
    exact hx.message hok
  | fatal id => exact hx.managerStep hst nofun nofun
  | byeDone id => exact hx.managerStep hst nofun nofun
  | stop graceful => exact hx.managerStep hst nofun nofun

theorem Inv.init : Inv cfg ({ handler := {} }, []) := by
  refine ⟨fun a id hl => ?_, fun srv hsrv => ?_, fun p hp => ?_⟩
  · simp at hl
  · cases hsrv
  · cases hp

/-- A deletion that does not get through leaves the server of the address. -/
theorem served_of_not_ok {deleted : Deleted} {e : Event} (hst : step cfg st e = some st')
    (hok : ¬ Ok cfg (st, deleted) e) : ¬ NotStale (st', deletedAfter cfg deleted e) := by
  cases e with
  | message m rest k =>
    rw [step_message] at hst
    split_ifs at hst
    obtain rfl := Option.some.inj hst
    simp only [Ok, not_forall] at hok
    obtain ⟨hnew, a, ha, srv, hsrv, hi, hfilter⟩ := hok
    rw [Option.mem_def] at ha hsrv
    have hstays : (m.handle cfg k st).handler = st.handler := by
      obtain ⟨he, -⟩ | ⟨interface, b, hd, he⟩ := handle_cases cfg k m st
      · exact he
      · -- the message was understood, so the interface has another name
        obtain ⟨hb, hflags, hname, -, -⟩ := AddressMessage.detected_eq_some_iff.1 hd
        obtain rfl : a = b := Option.some.inj (ha.symm.trans hb)
        have hne : srv.interface ≠ interface := by
          rintro rfl
          exact hfilter ⟨hflags, hname⟩
        have hkept := removeAddress_of_served hsrv interface
        rw [if_neg hne] at hkept
        rw [he, hnew, if_neg Bool.false_ne_true, hkept]
    intro hstale
    have hmem : (m.ifIndex, a) ∈ deletedAfter cfg deleted (.message m rest k) := by
      simp [deletedAfter, ha, hnew]
    refine hstale (m.ifIndex, a) hmem srv ?_ hi
    rw [Option.mem_def, hstays]
    exact hsrv
  | buffer => exact absurd trivial hok
  | fatal => exact absurd trivial hok
  | byeDone => exact absurd trivial hok
  | stop => exact absurd trivial hok

/-- **A deleted address is never served exactly if the deletion of an address that is served
always gets through.** -/
theorem notStale_iff {es : List Event} {x : Monitored ServerManager × Deleted}
    (hr : (machine cfg).run ({ handler := {} }, []) es = some x) :
    (machine cfg).Always NotStale ({ handler := {} }, []) es ↔ (machine cfg).Along (Ok cfg) ({ handler := {} }, []) es := by
  refine Machine.always_iff_along (I := Inv cfg) (fun _ hx => hx.notStale) ?_ ?_ Inv.init hr
  · rintro ⟨st, deleted⟩ e ⟨st', deleted'⟩ hx hok hst
    obtain ⟨hst, rfl⟩ := Machine.withHistory_step_eq_some.1 hst
    exact hx.step hok hst
  · rintro ⟨st, deleted⟩ e ⟨st', deleted'⟩ - hst hok
    obtain ⟨hst, rfl⟩ := Machine.withHistory_step_eq_some.1 hst
    exact served_of_not_ok hst hok

/-- The address 192.168.0.2 of `eth0`, with its label. -/
def v4Message (isNew : Bool) (flags : UInt8) : AddressMessage where
  isNew
  family := afInet
  prefixLen := 24
  flags
  index := 2
  attributes := [⟨2, [192, 168, 0, 2]⟩, ⟨3, SysString.ofLiteral "eth0" ++ [0]⟩]
  fits := by decide

/-- The address fe80::2 of the interface with the index 2, without a label. -/
def v6Message (isNew : Bool) : AddressMessage where
  isNew
  family := afInet6
  prefixLen := 64
  flags := 0x80
  index := 2
  attributes := [⟨1, [0xfe, 0x80, 0, 0, 0, 0, 0, 0, 0, 0, 0, 0, 0, 0, 0, 2]⟩]
  fits := by decide

/-- The interface is up and takes multicasts. -/
def eth0Up : Answers := ⟨some (SysString.ofLiteral "eth0"), some 0x1043, .started⟩

/-- The interface has vanished. -/
def eth0Gone : Answers := ⟨none, none, .failed⟩

/-- An address is reported, and deleted when it was deprecated for a while. -/
def deprecatedDeleted : List Event :=
  [.buffer, .message (v4Message true 0x80) [] eth0Up,
   .buffer, .message (v4Message false 0xa0) [] eth0Up]

/-- An address is reported, and deleted together with its interface. -/
def interfaceVanished : List Event :=
  [.buffer, .message (v6Message true) [] eth0Up, .buffer, .message (v6Message false) [] eth0Gone]

/-- In both cases the server goes on. -/
theorem served_after_deletion :
    ((machine {}).run ({ handler := {} }, []) deprecatedDeleted).isSome = true ∧
    ¬ (machine {}).Always NotStale ({ handler := {} }, []) deprecatedDeleted ∧
    ((machine {}).run ({ handler := {} }, []) interfaceVanished).isSome = true ∧
    ¬ (machine {}).Always NotStale ({ handler := {} }, []) interfaceVanished := by
  have hlast : ∀ es (h : ((machine {}).run ({ handler := {} }, []) es).isSome = true),
      ¬ NotStale (((machine {}).run ({ handler := {} }, []) es).get h) →
      ¬ (machine {}).Always NotStale ({ handler := {} }, []) es :=
    fun es h hstale hall => hstale (hall.last (Option.some_get h).symm)
  refine ⟨by decide +kernel, hlast _ (by decide +kernel) (by decide +kernel), by decide +kernel,
    hlast _ (by decide +kernel) (by decide +kernel)⟩

/-- An address is reported and deleted, twice, and its server has a fatal error in between. -/
def addressRenewed : List Event :=
  [.buffer, .message (v4Message true 0x80) [v6Message true] eth0Up,
   .message (v6Message true) [] eth0Up, .buffer, .message (v4Message false 0x80) [] eth0Gone,
   .fatal 1, .buffer, .message (v4Message true 0x80) [v4Message false 0x80] eth0Up,
   .message (v4Message false 0x80) [] eth0Up, .stop true]

theorem notStale_addressRenewed : (machine {}).Always NotStale ({ handler := {} }, []) addressRenewed := by
  have hsome : ((machine {}).run ({ handler := {} }, []) addressRenewed).isSome = true := by decide +kernel
  exact (notStale_iff (Option.some_get hsome).symm).2 (by decide +kernel)

end Netlink

end Wsddn

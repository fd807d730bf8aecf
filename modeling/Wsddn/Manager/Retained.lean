import Wsddn.Manager.Basic

/-!
# When the server manager loses a running server

A running server has to be stopped before the manager lets it go: its sockets keep a raw pointer
to it.  `removeAddress` and `stop` do that.  `addAddress` overwrites the entry of the address, and
it does so also when the entry holds a running server of another interface.

* `Retained` : every running server is in the table, or its Bye holds it, and there is one at most
  for each address.
* `Ok` : no address is added on a new interface while it is served on another one.
* `noServerLost_iff` : **no running server is lost along a run exactly if every step of the run is
  `Ok`.**
* `lost_by_addAddress` : what happens otherwise.
-/

namespace Wsddn

namespace ServerManager

variable {m m' : ServerManager} {e : Event} {interface : NetworkInterface} {addr : IpAddress}
  {id : ℕ} {srv : Server}

/-- Every running server is stored under its own address, or it is held by its Bye after `stop`;
and no address has two running servers. -/
structure Retained (m : ServerManager) : Prop where
  held : ∀ (id : ℕ) (srv : Server), m.servers[id]? = some srv → srv.state = .running →
    m.serversByAddress.lookup srv.addr = some (some id) ∨ m.stopped = true ∧ srv.bye = true
  unique : ∀ (id id' : ℕ) (srv srv' : Server), m.servers[id]? = some srv →
    m.servers[id']? = some srv' → srv.state = .running → srv'.state = .running →
    srv.addr = srv'.addr → id = id'

/-- No entry is overwritten or dropped while the server it holds is running, except for a server
that is held by its Bye. -/
def EntriesKept (m : ServerManager) (e : Event) : Prop :=
  ∀ m' addr id srv, step m e = some m' → m.serversByAddress.lookup addr = some (some id) →
    m'.servers[id]? = some srv → srv.state = .running →
    m'.serversByAddress.lookup addr = some (some id) ∨ m'.stopped = true ∧ srv.bye = true

/-- No running server is ever lost. -/
def NoServerLost (es : List Event) : Prop :=
  machine.Always Retained {} es ∧ machine.Along EntriesKept {} es

/-- The address is not served on another interface when a server for it is created. -/
def Ok (m : ServerManager) : Event → Prop
  | .addAddress interface addr created => created ≠ .raised →
      ∀ server ∈ m.serversByAddress.lookup addr, ∀ id ∈ server, ∀ srv ∈ m.servers[id]?,
        srv.state = .running → srv.interface = interface
  | _ => True

instance (m : ServerManager) : ∀ e, Decidable (Ok m e)
  | .addAddress interface addr created => inferInstanceAs (Decidable (created ≠ .raised →
      ∀ server ∈ m.serversByAddress.lookup addr, ∀ id ∈ server, ∀ srv ∈ m.servers[id]?,
        srv.state = .running → srv.interface = interface))
  | .removeAddress .. | .stop _ | .fatal _ | .byeDone _ => isTrue trivial

/-- An entry of the table is about its own address. -/
def Keyed (m : ServerManager) : Prop :=
  ∀ addr id, m.serversByAddress.lookup addr = some (some id) →
    ∃ srv, m.servers[id]? = some srv ∧ srv.addr = addr

/-- What one event does. -/
theorem step_cases (hst : step m e = some m') :
    (∃ interface addr created, e = .addAddress interface addr created ∧ m.stopped = false ∧
      m' = m.addAddress interface addr created) ∨
    (∃ interface addr, e = .removeAddress interface addr ∧ m.stopped = false ∧
      m' = m.removeAddress interface addr) ∨
    (∃ graceful, e = .stop graceful ∧ m' = m.stop graceful) ∨
    ∃ id, (e = .fatal id ∨ e = .byeDone id) ∧ m' = m.stopServer id false := by
  unfold step at hst
  split at hst
  · cases hst
  · cases e with
    | addAddress interface addr created =>
      dsimp only at hst
      split_ifs at hst with hstop
      exact .inl ⟨interface, addr, created, rfl, by simpa using hstop, (Option.some.inj hst).symm⟩
    | removeAddress interface addr =>
      dsimp only at hst
      split_ifs at hst with hstop
      exact .inr (.inl ⟨interface, addr, rfl, by simpa using hstop, (Option.some.inj hst).symm⟩)
    | stop graceful => exact .inr (.inr (.inl ⟨graceful, rfl, (Option.some.inj hst).symm⟩))
    | fatal id =>
      dsimp only at hst
      split_ifs at hst
      exact .inr (.inr (.inr ⟨id, .inl rfl, (Option.some.inj hst).symm⟩))
    | byeDone id =>
      dsimp only at hst
      split_ifs at hst
      exact .inr (.inr (.inr ⟨id, .inr rfl, (Option.some.inj hst).symm⟩))

/-! ### Stopping servers -/

theorem stopServer_getElem?_eq_some {graceful : Bool} {j : ℕ} :
    (m.stopServer id graceful).servers[j]? = some srv ↔
      ∃ srv₀, m.servers[j]? = some srv₀ ∧ (if id = j then srv₀.stop graceful else srv₀) = srv := by
  simp only [stopServer, List.getElem?_modify, Option.map_eq_map, Option.map_eq_some_iff]

/-- What stopping servers does to one of them. -/
theorem foldl_stopServer_getElem? (graceful : Bool) (ids : List ℕ) {j : ℕ}
    (h : (ids.foldl (fun m id => m.stopServer id graceful) m).servers[j]? = some srv)
    (hrun : srv.state = .running) :
    ∃ srv₀, m.servers[j]? = some srv₀ ∧ srv₀.state = .running ∧ srv₀.addr = srv.addr ∧
      (srv₀.bye = true → srv.bye = true) ∧ (j ∈ ids → graceful = true ∧ srv.bye = true) := by
  induction ids generalizing m with
  | nil => exact ⟨srv, h, hrun, rfl, fun hb => hb, by simp⟩
  | cons id ids ih =>
    obtain ⟨srv₁, h₁, hrun₁, haddr, hbye, hmem⟩ := ih h
    obtain ⟨srv₀, h₀, rfl⟩ := stopServer_getElem?_eq_some.1 h₁
    by_cases hid : id = j
    · rw [if_pos hid] at hrun₁ haddr hbye
      obtain ⟨hrun₀, hkeep, hset⟩ := Server.of_stop_running hrun₁
      have hg : graceful = true := by
        by_contra hg
        rw [Bool.not_eq_true] at hg
        rw [hg] at hrun₁
        exact Server.stop_false_state srv₀ hrun₁
      exact ⟨srv₀, h₀, hrun₀, by rw [← haddr, Server.stop_addr], fun hb => hbye (hkeep hb),
        fun _ => ⟨hg, hbye (hset hg)⟩⟩
    · rw [if_neg hid] at hrun₁ haddr hbye
      refine ⟨srv₀, h₀, hrun₁, haddr, hbye, fun hj => hmem ?_⟩
      exact (List.mem_cons.1 hj).resolve_left (Ne.symm hid)

/-- A server stays where it is. -/
theorem foldl_stopServer_some (graceful : Bool) (ids : List ℕ) {j : ℕ}
    (h : m.servers[j]? = some srv) :
    ∃ srv', (ids.foldl (fun m id => m.stopServer id graceful) m).servers[j]? = some srv' ∧
      srv'.addr = srv.addr := by
  induction ids generalizing m srv with
  | nil => exact ⟨srv, h, rfl⟩
  | cons id ids ih =>
    obtain ⟨srv', h', ha'⟩ := ih (m := m.stopServer id graceful)
      (stopServer_getElem?_eq_some.2 ⟨srv, h, rfl⟩)
    refine ⟨srv', h', ha'.trans ?_⟩
    split_ifs
    · exact srv.stop_addr graceful
    · rfl

theorem mem_stored : id ∈ m.stored ↔ ∃ addr, m.serversByAddress.lookup addr = some (some id) := by
  simp only [stored, List.mem_filterMap]
  constructor
  · rintro ⟨⟨addr, server⟩, he, hid⟩
    exact ⟨addr, AList.mem_lookup_iff.2 (by simpa [← hid] using he)⟩
  · rintro ⟨addr, h⟩
    exact ⟨⟨addr, some id⟩, AList.mem_lookup_iff.1 h, rfl⟩

/-! ### The entries of the table -/

/-- `operator[]` only adds entries with the null pointer. -/
theorem reference_lookup {a : IpAddress} :
    (m.reference addr).2.serversByAddress.lookup a = some (some id) ↔
      m.serversByAddress.lookup a = some (some id) := by
  unfold reference
  split
  · rfl
  · rename_i hnone
    by_cases ha : a = addr
    · subst ha
      simp [hnone]
    · rw [AList.lookup_insert_ne ha]

theorem reference_fst : (m.reference addr).1 = some id ↔
    m.serversByAddress.lookup addr = some (some id) := by
  unfold reference
  split
  · rename_i server h
    simp [h]
  · rename_i h
    simp [h]

theorem reference_servers : (m.reference addr).2.servers = m.servers := by
  unfold reference
  split <;> rfl

theorem reference_stopped : (m.reference addr).2.stopped = m.stopped := by
  unfold reference
  split <;> rfl

/-- The servers after a new one was made. -/
theorem getElem?_concat_eq_some {servers : List Server} {new : Server}
    (h : (servers ++ [new])[id]? = some srv) :
    servers[id]? = some srv ∨ id = servers.length ∧ srv = new := by
  simp only [List.getElem?_append, List.getElem?_singleton] at h
  split_ifs at h with hlt hid
  · exact .inl h
  · exact .inr ⟨by omega, (Option.some.inj h).symm⟩

theorem Keyed.of_erase {addr : IpAddress} (hm : m.Keyed)
    (hl : ∀ a, m'.serversByAddress.lookup a = (m.serversByAddress.erase addr).lookup a)
    (hs : m'.servers = m.servers) : m'.Keyed := by
  intro a id h
  rw [hl] at h
  by_cases ha : a = addr
  · subst ha
    simp at h
  · rw [AList.lookup_erase_ne ha] at h
    rw [hs]
    exact hm a id h

theorem Keyed.reference (hm : m.Keyed) (addr : IpAddress) : (m.reference addr).2.Keyed := by
  intro a id
  rw [reference_lookup, reference_servers]
  exact hm a id

theorem Keyed.assignServer (hm : m.Keyed) (created : Created) :
    (m.assignServer interface addr created).Keyed := by
  cases created with
  | raised => exact hm
  | failed =>
    intro a id hl
    by_cases ha : a = addr
    · subst ha
      simp [ServerManager.assignServer] at hl
    · simp only [ServerManager.assignServer] at hl
      rw [AList.lookup_insert_ne ha] at hl
      exact hm a id hl
  | started =>
    intro a id hl
    simp only [ServerManager.assignServer] at hl ⊢
    by_cases ha : a = addr
    · subst ha
      rw [AList.lookup_insert, Option.some.injEq, Option.some.injEq] at hl
      exact ⟨{ interface, addr := a }, by simp [← hl], rfl⟩
    · rw [AList.lookup_insert_ne ha] at hl
      obtain ⟨srv, h, hsrv⟩ := hm a id hl
      have hlt := (List.getElem?_eq_some_iff.1 h).1
      exact ⟨srv, by rw [List.getElem?_append_left hlt, h], hsrv⟩

theorem Keyed.addAddress (hm : m.Keyed) (created : Created) :
    (m.addAddress interface addr created).Keyed := by
  have href := hm.reference addr
  unfold ServerManager.addAddress
  dsimp only
  split_ifs
  · exact href
  · exact href.assignServer created

theorem Keyed.stopServer (hm : m.Keyed) (id : ℕ) (graceful : Bool) :
    (m.stopServer id graceful).Keyed := by
  intro a j hl
  obtain ⟨srv, h, ha⟩ := hm a j hl
  obtain ⟨srv', h', ha'⟩ := foldl_stopServer_some graceful [id] h
  exact ⟨srv', h', ha'.trans ha⟩

theorem Keyed.removeAddress (hm : m.Keyed) : (m.removeAddress interface addr).Keyed := by
  unfold ServerManager.removeAddress
  split
  · exact hm
  · exact hm.of_erase (fun _ => rfl) rfl
  · split_ifs
    · exact hm
    · exact (hm.stopServer _ false).of_erase (fun _ => rfl) rfl

theorem Keyed.stop (graceful : Bool) : (m.stop graceful).Keyed := by
  intro a id hl
  simp [ServerManager.stop] at hl

/-! ### The invariant -/

/-- The invariant of the runs that lose no server. -/
structure Inv (m : ServerManager) : Prop extends Retained m where
  keyed : m.Keyed

/-- No server starts to run, and those that run are still held. -/
theorem Retained.of_running (hm : m.Retained)
    (hrun : ∀ (id : ℕ) (srv : Server), m'.servers[id]? = some srv → srv.state = .running →
      (∃ srv₀, m.servers[id]? = some srv₀ ∧ srv₀.state = .running ∧ srv₀.addr = srv.addr) ∧
      (m'.serversByAddress.lookup srv.addr = some (some id) ∨ m'.stopped = true ∧ srv.bye = true)) :
    m'.Retained := by
  refine ⟨fun id srv h hr => (hrun id srv h hr).2, fun id id' srv srv' h h' hr hr' ha => ?_⟩
  obtain ⟨⟨srv₀, h₀, hr₀, ha₀⟩, -⟩ := hrun id srv h hr
  obtain ⟨⟨srv₁, h₁, hr₁, ha₁⟩, -⟩ := hrun id' srv' h' hr'
  exact hm.unique id id' srv₀ srv₁ h₀ h₁ hr₀ hr₁ (by rw [ha₀, ha₁, ha])

theorem Inv.reference (hm : m.Inv) (addr : IpAddress) : (m.reference addr).2.Inv := by
  refine ⟨⟨?_, ?_⟩, hm.keyed.reference addr⟩
  · intro id srv
    rw [reference_servers, reference_lookup, reference_stopped]
    exact hm.held id srv
  · rw [reference_servers]
    exact hm.unique

/-- The entry of an address that has no running server is overwritten. -/
theorem Inv.assignServer (hm : m.Inv) (hstop : m.stopped = false)
    (hfree : ∀ (id : ℕ) (srv : Server), m.servers[id]? = some srv → srv.state = .running →
      srv.addr ≠ addr) (created : Created) : (m.assignServer interface addr created).Inv := by
  -- a server that runs already is stored under another address
  have hheld : ∀ (id : ℕ) (srv : Server) (x : Option ℕ), m.servers[id]? = some srv →
      srv.state = .running →
      (m.serversByAddress.insert addr x).lookup srv.addr = some (some id) := by
    intro id srv x h hr
    rw [AList.lookup_insert_ne (hfree id srv h hr)]
    obtain hl | ⟨hs, -⟩ := hm.held id srv h hr
    · exact hl
    · rw [hstop] at hs
      cases hs
  refine ⟨?_, hm.keyed.assignServer created⟩
  cases created with
  | raised => exact ⟨hm.held, hm.unique⟩
  | failed =>
    refine hm.toRetained.of_running fun id srv h hr => ?_
    exact ⟨⟨srv, h, hr, rfl⟩, .inl (hheld id srv none h hr)⟩
  | started =>
    simp only [ServerManager.assignServer]
    refine ⟨fun id srv h hr => ?_, fun id id' srv srv' h h' hr hr' ha => ?_⟩
    · obtain h | ⟨rfl, rfl⟩ := getElem?_concat_eq_some h
      · exact .inl (hheld id srv _ h hr)
      · exact .inl (AList.lookup_insert _)
    · obtain h | ⟨rfl, rfl⟩ := getElem?_concat_eq_some h <;>
        obtain h' | ⟨rfl, rfl⟩ := getElem?_concat_eq_some h'
      · exact hm.unique id id' srv srv' h h' hr hr' ha
      · exact absurd ha (hfree id srv h hr)
      · exact absurd ha.symm (hfree id' srv' h' hr')
      · rfl

theorem isServing_of (h : m.servers[id]? = some srv) (hi : srv.interface = interface)
    (hr : srv.state = .running) : m.isServing interface (some id) = true := by
  simp [isServing, h, hi, hr]

theorem Inv.addAddress (hm : m.Inv) (hstop : m.stopped = false) {created : Created}
    (hok : Ok m (.addAddress interface addr created)) :
    (m.addAddress interface addr created).Inv := by
  have href := hm.reference addr
  unfold ServerManager.addAddress
  dsimp only
  split_ifs with hserving
  · exact href
  · by_cases hraised : created = .raised
    · subst hraised
      exact ⟨⟨href.held, href.unique⟩, href.keyed⟩
    · refine href.assignServer (reference_stopped.trans hstop) (fun id srv h hr ha => ?_) created
      -- the server that runs for the address is in the entry, and it is of this interface
      rw [reference_servers] at h
      subst ha
      obtain hl | ⟨hs, -⟩ := hm.held id srv h hr
      · have hi := hok hraised (some id) hl id rfl srv h hr
        rw [reference_fst.2 hl] at hserving
        exact hserving (isServing_of (by rw [reference_servers, h]) hi hr)
      · rw [hstop] at hs
        cases hs

theorem Inv.stopServer (hm : m.Inv) (id : ℕ) (graceful : Bool) :
    (m.stopServer id graceful).Inv := by
  refine ⟨hm.toRetained.of_running fun j srv h hr => ?_, hm.keyed.stopServer id graceful⟩
  obtain ⟨srv₀, h₀, hr₀, ha₀, hbye, -⟩ := foldl_stopServer_getElem? graceful [id] h hr
  refine ⟨⟨srv₀, h₀, hr₀, ha₀⟩, ?_⟩
  rw [← ha₀]
  exact (hm.held j srv₀ h₀ hr₀).imp (fun hl => hl) fun hs => ⟨hs.1, hbye hs.2⟩

theorem Inv.removeAddress (hm : m.Inv) (hstop : m.stopped = false) :
    (m.removeAddress interface addr).Inv := by
  refine ⟨?_, hm.keyed.removeAddress⟩
  unfold ServerManager.removeAddress
  split
  · exact hm.toRetained
  · rename_i hnone
    refine hm.toRetained.of_running fun id srv h hr => ⟨⟨srv, h, hr, rfl⟩, ?_⟩
    obtain hl | ⟨hs, -⟩ := hm.held id srv h hr
    · have hne : srv.addr ≠ addr := by
        rintro rfl
        simp [hnone] at hl
      exact .inl (by rw [AList.lookup_erase_ne hne, hl])
    · rw [hstop] at hs
      cases hs
  · rename_i id hid
    split_ifs
    · exact hm.toRetained
    · have hst := hm.stopServer id false
      refine hst.toRetained.of_running fun j srv h hr => ⟨⟨srv, h, hr, rfl⟩, ?_⟩
      obtain hl | ⟨hs, -⟩ := hst.held j srv h hr
      · -- the server of the entry that is dropped does not run any more
        have hne : srv.addr ≠ addr := by
          rintro rfl
          obtain rfl : id = j := by simpa [ServerManager.stopServer, hid] using hl
          obtain ⟨srv₀, -, rfl⟩ := stopServer_getElem?_eq_some.1 h
          rw [if_pos rfl] at hr
          exact Server.stop_false_state srv₀ hr
        exact .inl (by rw [AList.lookup_erase_ne hne]; exact hl)
      · have hs : m.stopped = true := hs
        rw [hstop] at hs
        cases hs

theorem Inv.stop (hm : m.Inv) (graceful : Bool) : (m.stop graceful).Inv := by
  refine ⟨hm.toRetained.of_running fun id srv h hr => ?_, Keyed.stop graceful⟩
  obtain ⟨srv₀, h₀, hr₀, ha₀, hbye, hstored⟩ := foldl_stopServer_getElem? graceful m.stored h hr
  refine ⟨⟨srv₀, h₀, hr₀, ha₀⟩, .inr ⟨rfl, ?_⟩⟩
  obtain hl | ⟨-, hb⟩ := hm.held id srv₀ h₀ hr₀
  · exact (hstored (mem_stored.2 ⟨_, hl⟩)).2
  · exact hbye hb

theorem Inv.step (hm : m.Inv) (hok : Ok m e) (hst : step m e = some m') : m'.Inv := by
  obtain ⟨interface, addr, created, rfl, hs, rfl⟩ | ⟨interface, addr, rfl, hs, rfl⟩ |
    ⟨graceful, rfl, rfl⟩ | ⟨id, -, rfl⟩ := step_cases hst
  · exact hm.addAddress hs hok
  · exact hm.removeAddress hs
  · exact hm.stop graceful
  · exact hm.stopServer id false

/-- The servers stay where they are, with their addresses. -/
theorem step_addr (hst : ServerManager.step m e = some m') (h : m.servers[id]? = some srv) :
    ∃ srv', m'.servers[id]? = some srv' ∧ srv'.addr = srv.addr := by
  obtain ⟨interface, addr, created, rfl, -, rfl⟩ | ⟨interface, addr, rfl, -, rfl⟩ |
    ⟨graceful, rfl, rfl⟩ | ⟨id', -, rfl⟩ := step_cases hst
  · have hlt := (List.getElem?_eq_some_iff.1 h).1
    unfold ServerManager.addAddress
    dsimp only
    split_ifs
    · exact ⟨srv, by rw [reference_servers, h], rfl⟩
    · cases created with
      | started =>
        refine ⟨srv, ?_, rfl⟩
        simp only [ServerManager.assignServer, reference_servers]
        rw [List.getElem?_append_left hlt, h]
      | failed => exact ⟨srv, by simp [ServerManager.assignServer, reference_servers, h], rfl⟩
      | raised => exact ⟨srv, by simp [ServerManager.assignServer, reference_servers, h], rfl⟩
  · unfold ServerManager.removeAddress
    split
    · exact ⟨srv, h, rfl⟩
    · exact ⟨srv, h, rfl⟩
    · rename_i id' _
      split_ifs
      · exact ⟨srv, h, rfl⟩
      · exact foldl_stopServer_some false [id'] h
  · exact foldl_stopServer_some graceful m.stored h
  · exact foldl_stopServer_some false [id'] h

/-- A server that is overwritten is lost. -/
theorem not_retained_of_not_ok (hm : m.Inv) (hst : ServerManager.step m e = some m')
    (hok : ¬ Ok m e) : ¬ m'.Retained := by
  cases e with
  | addAddress interface addr created =>
    simp only [Ok, not_forall] at hok
    obtain ⟨hraised, _, hl, id, rfl, srv, h, hr, hi⟩ := hok
    rw [Option.mem_def] at h
    obtain ⟨srv', h', ha⟩ := hm.keyed addr id hl
    obtain rfl : srv = srv' := Option.some.inj (h.symm.trans h')
    subst ha
    obtain ⟨_, _, _, he, hstop, rfl⟩ | ⟨_, _, he, -⟩ | ⟨_, he, -⟩ | ⟨_, he | he, -⟩ :=
      step_cases hst <;> cases he
    have hserving :
        ¬ (m.reference srv.addr).2.isServing interface (m.reference srv.addr).1 = true := by
      rw [reference_fst.2 hl]
      simp [isServing, reference_servers, h, hi]
    have hlt := (List.getElem?_eq_some_iff.1 h).1
    intro hret
    unfold ServerManager.addAddress at hret
    dsimp only at hret
    rw [if_neg hserving] at hret
    cases created with
    | raised => exact hraised rfl
    | failed =>
      obtain hl' | ⟨hs, -⟩ := hret.held id srv (by simpa [ServerManager.assignServer,
        reference_servers] using h) hr
      · simp [ServerManager.assignServer] at hl'
      · simp [ServerManager.assignServer, reference_stopped, hstop] at hs
    | started =>
      obtain hl' | ⟨hs, -⟩ := hret.held id srv (by simp [ServerManager.assignServer,
        reference_servers, List.getElem?_append_left hlt, h]) hr
      · simp only [ServerManager.assignServer, reference_servers, AList.lookup_insert,
          Option.some.injEq] at hl'
        omega
      · simp [ServerManager.assignServer, reference_stopped, hstop] at hs
  | removeAddress => exact absurd trivial hok
  | stop => exact absurd trivial hok
  | fatal => exact absurd trivial hok
  | byeDone => exact absurd trivial hok

theorem Inv.init : Inv {} := by
  refine ⟨⟨fun id srv h => ?_, fun id id' srv srv' h => ?_⟩, fun a id hl => ?_⟩
  · simp at h
  · simp at h
  · simp at hl

/-- Where no server is lost, no entry of a running server is overwritten. -/
theorem entriesKept_of_inv (hm : m.Inv) (hnext : ∀ m', ServerManager.step m e = some m' → m'.Inv) :
    EntriesKept m e := by
  intro m' addr id srv hst hl h hr
  obtain ⟨srv₀, h₀, rfl⟩ := hm.keyed addr id hl
  have haddr : srv.addr = srv₀.addr := by
    obtain ⟨srv', h', ha'⟩ := step_addr hst h₀
    rw [← ha', ← Option.some.inj (h.symm.trans h')]
  exact haddr ▸ (hnext m' hst).held id srv h hr

/-- **No running server is lost exactly if no address is added on another interface while a server
runs for it.** -/
theorem noServerLost_iff {es : List Event} (hr : machine.run {} es = some m) :
    NoServerLost es ↔ machine.Along Ok {} es := by
  have hiff : machine.Always Retained {} es ↔ machine.Along Ok {} es :=
    Machine.always_iff_along (I := Inv) (fun _ hm => hm.toRetained)
      (fun _ _ _ hm hok hst => hm.step hok hst)
      (fun _ _ _ hm hst hok => not_retained_of_not_ok hm hst hok) Inv.init hr
  constructor
  · exact fun h => hiff.1 h.1
  · intro h
    have hinv : machine.Always Inv {} es :=
      Machine.always_of_along (fun _ _ _ hm hok hst => hm.step hok hst) Inv.init h
    exact ⟨hiff.2 h, Machine.Always.along (P := Inv) (fun _ _ => entriesKept_of_inv) hinv⟩

/-- Two interfaces with the same address. -/
def eth0 : NetworkInterface := ⟨SysString.ofLiteral "eth0", 2⟩

/-- The second interface. -/
def eth1 : NetworkInterface := ⟨SysString.ofLiteral "eth1", 3⟩

/-- The address that they share, 192.168.0.2. -/
def sharedAddr : IpAddress := .v4 0xc0a80002

/-- The address is reported on a second interface; its port may be in use by then. -/
def movedAddress (created : Created) : List Event :=
  [.addAddress eth0 sharedAddr .started, .addAddress eth1 sharedAddr created]

/-- The server of the first interface runs on, and the table does not know it any more. -/
theorem lost_by_addAddress :
    (machine.run {} (movedAddress .started)).isSome = true ∧ ¬ NoServerLost (movedAddress .started) ∧
    (machine.run {} (movedAddress .failed)).isSome = true ∧ ¬ NoServerLost (movedAddress .failed) := by
  have hlost : ∀ created m, machine.run {} (movedAddress created) = some m →
      m.servers[0]? = some { interface := eth0, addr := sharedAddr } →
      m.serversByAddress.lookup sharedAddr ≠ some (some 0) → m.stopped = false →
      ¬ NoServerLost (movedAddress created) := by
    rintro created m hr h hl hs ⟨hall, -⟩
    obtain hl' | ⟨hs', -⟩ := (hall.last hr).held 0 _ h rfl
    · exact hl hl'
    · rw [hs] at hs'
      cases hs'
  refine ⟨by decide +kernel, hlost .started _ (Option.some_get (by decide +kernel)).symm
    (by decide +kernel) (by decide +kernel) (by decide +kernel), by decide +kernel,
    hlost .failed _ (Option.some_get (by decide +kernel)).symm
    (by decide +kernel) (by decide +kernel) (by decide +kernel)⟩

/-- The address leaves the first interface before it is reported on the second. -/
def renewedAddress : List Event :=
  [.addAddress eth0 sharedAddr .started, .removeAddress eth0 sharedAddr,
   .addAddress eth1 sharedAddr .started, .stop true, .byeDone 1]

theorem kept_renewedAddress : NoServerLost renewedAddress := by
  have hsome : (machine.run {} renewedAddress).isSome = true := by decide +kernel
  exact (noServerLost_iff (Option.some_get hsome).symm).2 (by decide +kernel)

end ServerManager

end Wsddn

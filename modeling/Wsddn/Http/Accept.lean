import Wsddn.Http.Table

/-!
# The accept loop (`HttpServerImpl::accept` of `http_server.cpp`)

A peer can be gone before its socket is handled; then `remote_endpoint()` raises, in
`handleConnection` or in the constructor of the connection.  Nothing catches the exception before
`io_context::run`, so it ends the daemon.

* `HttpServer.Harmless` : an event after which the server goes on as it should.
* `HttpServer.harmless_iff` : a run is harmless exactly if the peers of its sockets are known when
  the sockets are handled.
-/

namespace Wsddn

namespace HttpServer

variable {Ctx Doc Reply σ : Type*} {E : HttpEnv Ctx Doc Reply σ} {x x₀ y : Serving Ctx Reply σ}
  {l : Event σ} {ls : List (Event σ)}

/-- What asio promises: an accept is aborted only if the acceptor was closed. -/
def ByAsio (x : Serving Ctx Reply σ) : Event σ → Prop
  | .accepted ec _ _ => ec = .operationAborted → x.server.acceptorOpen = false
  | _ => True

/-- The connection is in the table as before. -/
def Unaffected (s s' : HttpServer Ctx Reply) (id : ℕ) : Prop :=
  id ∈ s'.connections ∧ s'.objects[id]? = s.objects[id]?

/-- The connection has to leave for a new one from `addr`: it is one of the oldest from there, of
which there are too many. -/
def MakesRoom (s s' : HttpServer Ctx Reply) (addr : Option IpAddress) (id : ℕ) : Prop :=
  s.objects.length ∈ s'.connections ∧ ∃ ip, addr = some ip ∧ id ∈ s.fromSameAddress ip ∧
    httpMaxConnectionsFromSameAddress ≤ (s.fromSameAddress ip).length ∧
    ∀ j ∈ s.fromSameAddress ip, s.startTime id ≤ s.startTime j

/-- The connections that an event is not about are unaffected. -/
def OthersUnaffected (s : HttpServer Ctx Reply) (l : Event σ) (s' : HttpServer Ctx Reply) : Prop :=
  ∀ id ∈ s.connections, id < s.objects.length →
    match l with
    | .accepted .success a _ => Unaffected s s' id ∨ MakesRoom s s' a.remoteAddr id
    | .read con _ _ | .write con _ => id ≠ con → Unaffected s s' id
    | _ => True

/-- No exception leaves the event loop, the other connections are unaffected, and a server with a
handler waits for the next connection. -/
def Harmless (E : HttpEnv Ctx Doc Reply σ) (x : Serving Ctx Reply σ) (l : Event σ) : Prop :=
  ∀ y, (machine E).step x l = some y → y.raised = false ∧
    OthersUnaffected x.server l y.server ∧ (y.server.handler = true → y.server.accepting = true)

/-- The peer of the socket is still known when the socket is handled, and the acceptor can
listen. -/
def PeerAvailable (x : Serving Ctx Reply σ) : Event σ → Prop
  | .accepted .success a listenOk => x.server.handler = true →
      a.remoteAddr.isSome = true ∧ a.remoteAddr'.isSome = true ∧ listenOk = true
  | _ => True

/-! ### Events that are no accepts -/

/-- The acceptor is as before. -/
structure Quiet (s s' : HttpServer Ctx Reply) : Prop where
  handler : s'.handler = s.handler
  accepting : s'.accepting = s.accepting
  acceptorOpen : s'.acceptorOpen = s.acceptorOpen

/-- The acceptor is as before, and only the connection `con` is affected. -/
structure About (con : ℕ) (s s' : HttpServer Ctx Reply) : Prop extends Quiet s s' where
  others : ∀ id ∈ s.connections, id ≠ con → Unaffected s s' id

section About

variable {s s' s'' : HttpServer Ctx Reply} {h h' : σ} {id con : ℕ} {ec : ErrorCode} {o : Outcome}

theorem Quiet.trans (h : Quiet s s') (h' : Quiet s' s'') : Quiet s s'' :=
  ⟨h'.handler.trans h.handler, h'.accepting.trans h.accepting,
    h'.acceptorOpen.trans h.acceptorOpen⟩

theorem About.trans (h : About con s s') (h' : About con s' s'') : About con s s'' := by
  refine ⟨h.toQuiet.trans h'.toQuiet, fun id hid hne => ?_⟩
  obtain ⟨hid, ho⟩ := h.others id hid hne
  obtain ⟨hid', ho'⟩ := h'.others id hid hne
  exact ⟨hid', ho'.trans ho⟩

theorem quiet_cancelGC (s : HttpServer Ctx Reply) : Quiet s s.cancelGC := by
  unfold cancelGC
  split_ifs <;> exact ⟨rfl, rfl, rfl⟩

theorem quiet_scheduleGC (s : HttpServer Ctx Reply) : Quiet s s.scheduleGC :=
  (quiet_cancelGC s).trans ⟨rfl, rfl, rfl⟩

theorem quiet_dropStale (s : HttpServer Ctx Reply) (now : ℕ) : Quiet s (s.dropStale now) := by
  unfold dropStale
  rw [foldl_stopConnection_eq]
  exact ⟨rfl, rfl, rfl⟩

theorem quiet_insertConnection (s : HttpServer Ctx Reply) (addr : IpAddress)
    (now position id : ℕ) : Quiet s ((s.insertConnection addr now position).read id) :=
  ⟨rfl, rfl, rfl⟩

theorem quiet_handleConnection (s : HttpServer Ctx Reply) (a : Accepted) :
    Quiet s (s.handleConnection a).1 := by
  have hdrop : ∀ addr, Quiet s (s.dropOldest addr) := by
    intro addr
    obtain ⟨he, -⟩ | ⟨id, -, he, -⟩ := dropOldest_cases s addr <;> rw [he] <;>
      exact ⟨rfl, rfl, rfl⟩
  unfold handleConnection
  dsimp only
  cases a.remoteAddr with
  | none => exact ⟨rfl, rfl, rfl⟩
  | some addr =>
    cases a.remoteAddr' with
    | none => exact hdrop addr
    | some addr' =>
      have hins := (hdrop addr).trans (quiet_insertConnection _ addr' a.now a.position
        (s.dropOldest addr).objects.length)
      dsimp only
      split_ifs
      · exact hins.trans (quiet_scheduleGC _)
      · exact hins

theorem About.update (s : HttpServer Ctx Reply) (con : ℕ)
    (f : Connection Ctx Reply → Connection Ctx Reply) : About con s (s.update con f) := by
  refine ⟨⟨rfl, rfl, rfl⟩, fun id hid hne => ⟨hid, ?_⟩⟩
  simp only [HttpServer.update, List.getElem?_modify]
  cases s.objects[id]? <;> simp [Ne.symm hne]

theorem about_read (s : HttpServer Ctx Reply) (con : ℕ) : About con s (s.read con) :=
  (About.update s con _).trans ⟨⟨rfl, rfl, rfl⟩, fun _ hid _ => ⟨hid, rfl⟩⟩

theorem about_write (s : HttpServer Ctx Reply) (con : ℕ) (finalWrite : Bool) :
    About con s (s.write con finalWrite) :=
  (About.update s con _).trans ⟨⟨rfl, rfl, rfl⟩, fun _ hid _ => ⟨hid, rfl⟩⟩

theorem about_onConnectionFinished (s : HttpServer Ctx Reply) (con : ℕ) :
    About con s (s.onConnectionFinished con) := by
  have herase :
      About con s ({ s with connections := s.connections.erase con }.stopConnection con) := by
    refine ⟨⟨rfl, rfl, rfl⟩, fun id hid hne => ⟨(List.mem_erase_of_ne hne).2 hid, ?_⟩⟩
    exact ((About.update s con fun c => { c with isOpen := false, owner := false }).others
      id hid hne).2
  unfold onConnectionFinished
  dsimp only
  split_ifs with he
  · refine herase.trans ⟨quiet_cancelGC _, fun id hid _ => ?_⟩
    rw [he] at hid
    simp at hid
  · exact herase

theorem readHandler_about {E : HttpEnv Ctx Doc Reply σ} {bytes : List UInt8}
    (hr : s.readHandler E h con ec bytes = some (s', h')) : About con s s' := by
  have hpop := About.update s con fun c => { c with pending := none }
  obtain ⟨c, -, -, -, hcase⟩ := readHandled hr
  cases hcase with
  | ignored => exact hpop
  | failed => exact hpop.trans (about_onConnectionFinished _ con)
  | continues => exact (hpop.trans (.update _ con _)).trans (about_read _ con)
  | replies => exact (hpop.trans (.update _ con _)).trans (about_write _ con _)

theorem writeHandler_about (hr : s.writeHandler con ec = some s') : About con s s' := by
  have hpop := About.update s con fun c => { c with pending := none }
  obtain ⟨c, -, hcase⟩ := writeHandled hr
  cases hcase with
  | ignored => exact hpop
  | finished => exact hpop.trans (about_onConnectionFinished _ con)
  | reads => exact hpop.trans (about_read _ con)

theorem gcHandler_quiet {k now : ℕ} (hr : s.gcHandler k now = some (s', o)) :
    Quiet s s' ∧ (o = .returned ∨ o = .fatal) := by
  have hpop : Quiet s { s with gcQueued := s.gcQueued.eraseIdx k } := ⟨rfl, rfl, rfl⟩
  obtain ⟨ec, -, hcase⟩ := gcHandled hr
  cases hcase with
  | ignored => exact ⟨hpop, .inl rfl⟩
  | failed => exact ⟨hpop, .inr rfl⟩
  | expired =>
    have hdrop := hpop.trans (quiet_dropStale _ now)
    refine ⟨?_, .inl rfl⟩
    split_ifs
    · exact hdrop
    · exact hdrop.trans (quiet_scheduleGC _)

end About

/-! ### Runs -/

/-- Between two events: the event loop is running, and a server with a handler has an open acceptor
and waits for the next connection. -/
structure Accepts (x : Serving Ctx Reply σ) : Prop where
  raised : x.raised = false
  accepting : x.server.handler = true → x.server.accepting = true
  acceptorOpen : x.server.handler = true → x.server.acceptorOpen = true

theorem accepts_init (h : (machine E).init x) : Accepts x := by
  have hs : x.server = { handler := true, accepting := true } := (congrArg Prod.fst h.1).symm
  exact ⟨h.2, fun _ => by rw [hs], fun _ => by rw [hs]⟩

theorem Accepts.of_quiet (hx : Accepts x) {s : HttpServer Ctx Reply} (h : Quiet x.server s) :
    (s.handler = true → s.accepting = true) ∧ (s.handler = true → s.acceptorOpen = true) := by
  rw [h.handler, h.accepting, h.acceptorOpen]
  exact ⟨hx.accepting, hx.acceptorOpen⟩

theorem stop_handler (s : HttpServer Ctx Reply) : s.stop.handler = false := by
  show (List.foldl stopConnection _ _).handler = false
  rw [foldl_stopConnection_eq]
  exact (keeps_cancelGC _).handler

/-- An event that is no accept is harmless, and the server goes on accepting. -/
theorem Accepts.step_other (hx : Accepts x) (hl : ∀ ec a listenOk, l ≠ .accepted ec a listenOk)
    (hst : (machine E).step x l = some y) :
    Accepts y ∧ OthersUnaffected x.server l y.server := by
  replace hst : HttpServer.step E x l = some y := hst
  unfold HttpServer.step at hst
  split_ifs at hst
  cases l with
  | stop =>
    obtain rfl := Option.some.inj hst
    have := stop_handler x.server
    exact ⟨⟨hx.raised, by simp [this], by simp [this]⟩, fun _ _ _ => trivial⟩
  | accepted ec a listenOk => exact absurd rfl (hl ec a listenOk)
  | timer ec =>
    obtain ⟨s, hr, rfl⟩ := Option.map_eq_some_iff.1 hst
    unfold gcExpires at hr
    split_ifs at hr
    obtain rfl := Option.some.inj hr
    exact ⟨⟨hx.raised, hx.accepting, hx.acceptorOpen⟩, fun _ _ _ => trivial⟩
  | gc k now =>
    obtain ⟨⟨s, o⟩, hr, rfl⟩ := Option.map_eq_some_iff.1 hst
    obtain ⟨hq, rfl | rfl⟩ := gcHandler_quiet hr
    · obtain ⟨ha, hopen⟩ := hx.of_quiet hq
      exact ⟨⟨hx.raised, ha, hopen⟩, fun _ _ _ => trivial⟩
    · have := stop_handler s
      exact ⟨⟨hx.raised, by simp [Serving.finish, this], by simp [Serving.finish, this]⟩,
        fun _ _ _ => trivial⟩
  | read con ec bytes =>
    obtain ⟨⟨s, h⟩, hr, rfl⟩ := Option.map_eq_some_iff.1 hst
    have habout := readHandler_about hr
    obtain ⟨ha, hopen⟩ := hx.of_quiet habout.toQuiet
    exact ⟨⟨hx.raised, ha, hopen⟩, fun id hid _ hne => habout.others id hid hne⟩
  | write con ec =>
    obtain ⟨s, hr, rfl⟩ := Option.map_eq_some_iff.1 hst
    have habout := writeHandler_about hr
    obtain ⟨ha, hopen⟩ := hx.of_quiet habout.toQuiet
    exact ⟨⟨hx.raised, ha, hopen⟩, fun id hid _ hne => habout.others id hid hne⟩
  | handler h =>
    obtain rfl := Option.some.inj hst
    exact ⟨⟨hx.raised, hx.accepting, hx.acceptorOpen⟩, fun _ _ _ => trivial⟩

/-- A socket is handled. -/
theorem Accepts.step_success (hx : Accepts x) (hh : x.server.handler = true) {a : Accepted}
    {s : HttpServer Ctx Reply} {o : Outcome} (listenOk : Bool)
    (hs : handleConnection { x.server with accepting := false } a = (s, o)) :
    (machine E).step x (.accepted .success a listenOk) =
      some (if o = .returned then x.finish (s.accept listenOk).1 (s.accept listenOk).2
        else x.finish s o) := by
  have hacc := hx.accepting hh
  have hraised := hx.raised
  obtain ⟨⟨handler, acceptorOpen, accepting, gcPending, gcQueued, objects, connections, started⟩, h,
    raised⟩ := x
  dsimp only at hh hacc hraised hs
  subst hh hacc hraised
  show Option.map _ (acceptHandler _ .success a listenOk) = _
  unfold acceptHandler
  dsimp only
  simp only [Bool.not_true, Bool.false_eq_true, if_false, hs]
  cases o <;> rfl

/-- What becomes of the server if both queries succeed. -/
theorem step_available {a : Accepted} {addr addr' : IpAddress} (hx : Accepts x)
    (hh : x.server.handler = true) (ha : a.remoteAddr = some addr)
    (ha' : a.remoteAddr' = some addr')
    (listenOk : Bool) :
    (machine E).step x (.accepted .success a listenOk) =
      some { x with
        server := { (handleConnection { x.server with accepting := false } a).1 with
          accepting := listenOk }
        raised := !listenOk } := by
  have hout : (handleConnection { x.server with accepting := false } a).2 = .returned := by
    rw [handleConnection_eq ha ha']
  have hfalse : (handleConnection { x.server with accepting := false } a).1.accepting = false :=
    (quiet_handleConnection _ a).accepting
  rcases hs : handleConnection { x.server with accepting := false } a with ⟨s, o⟩
  rw [hs] at hout hfalse
  rw [hx.step_success hh listenOk hs, if_pos hout]
  cases listenOk with
  | true =>
    show some { x with server := { s with accepting := true } } = _
    rw [hx.raised]
    rfl
  | false =>
    have hs' : { s with accepting := false } = s := by
      obtain ⟨handler, acceptorOpen, accepting, rest⟩ := s
      obtain rfl : accepting = false := hfalse
      rfl
    show some { x with server := s, raised := true } =
      some { x with server := { s with accepting := false }, raised := true }
    rw [hs']

/-- If the peer is gone, the exception leaves the event loop. -/
theorem step_unavailable {a : Accepted} (hx : Accepts x) (hh : x.server.handler = true)
    (ha : a.remoteAddr = none ∨ a.remoteAddr' = none) (listenOk : Bool) :
    ∃ y, (machine E).step x (.accepted .success a listenOk) = some y ∧ y.raised = true := by
  have hout : (handleConnection { x.server with accepting := false } a).2 = .raised := by
    unfold handleConnection
    dsimp only
    cases hr : a.remoteAddr with
    | none => rfl
    | some addr => rw [ha.resolve_left (by simp [hr])]
  rcases hs : handleConnection { x.server with accepting := false } a with ⟨s, o⟩
  rw [hs] at hout
  dsimp only at hout
  subst hout
  exact ⟨_, hx.step_success hh listenOk hs, rfl⟩

theorem Accepts.step_unhandled (hx : Accepts x) {ec : ErrorCode} {a : Accepted} {listenOk : Bool}
    (hasio : ByAsio x (.accepted ec a listenOk)) (hno : x.server.handler = false ∨ ec ≠ .success)
    (hst : (machine E).step x (.accepted ec a listenOk) = some y) :
    Accepts y ∧ OthersUnaffected x.server (.accepted ec a listenOk : Event σ) y.server := by
  replace hst : HttpServer.step E x (.accepted ec a listenOk) = some y := hst
  unfold HttpServer.step at hst
  split_ifs at hst
  obtain ⟨⟨s, o⟩, hr, rfl⟩ := Option.map_eq_some_iff.1 hst
  cases acceptHandled hr with
  | ignored hec =>
    obtain hh | rfl := hec
    · replace hh : x.server.handler = false := hh
      refine ⟨⟨hx.raised, ?_, ?_⟩, fun id hid _ => ?_⟩
      · simp [Serving.finish, hh]
      · simp [Serving.finish, hh]
      · cases ec with
        | success => exact .inl ⟨hid, rfl⟩
        | operationAborted => trivial
        | other => trivial
    · by_cases hh : x.server.handler = true
      · exact absurd ((hx.acceptorOpen hh).symm.trans (hasio rfl)) (by simp)
      · exact ⟨⟨hx.raised, by simp [Serving.finish, hh], by simp [Serving.finish, hh]⟩,
          fun _ _ _ => trivial⟩
  | failed =>
    have hstop := stop_handler { x.server with accepting := false }
    exact ⟨⟨hx.raised, by simp [Serving.finish, hstop], by simp [Serving.finish, hstop]⟩,
      fun _ _ _ => trivial⟩
  | accepted hh | refused hh =>
    replace hh : x.server.handler = true := hh
    exact absurd (hno.resolve_left (by simp [hh])) (by simp)

/-- An event that meets the condition is harmless, and the server goes on accepting. -/
theorem Accepts.step (hx : Accepts x) (hasio : ByAsio x l) (hl : PeerAvailable x l)
    (hst : (machine E).step x l = some y) :
    Accepts y ∧ OthersUnaffected x.server l y.server := by
  cases l with
  | accepted ec a listenOk =>
    by_cases hno : x.server.handler = false ∨ ec ≠ .success
    · exact hx.step_unhandled hasio hno hst
    · obtain ⟨hh, rfl⟩ : x.server.handler = true ∧ ec = .success := by simpa using hno
      obtain ⟨hra, hra', rfl⟩ := hl hh
      obtain ⟨addr, ha⟩ := Option.isSome_iff_exists.1 hra
      obtain ⟨addr', ha'⟩ := Option.isSome_iff_exists.1 hra'
      rw [step_available hx hh ha ha'] at hst
      obtain rfl := Option.some.inj hst
      have hq := quiet_handleConnection { x.server with accepting := false } a
      refine ⟨⟨rfl, fun _ => rfl, fun _ => hq.acceptorOpen.trans (hx.acceptorOpen hh)⟩, ?_⟩
      obtain ⟨dropped, hadm⟩ := handleConnection_admits { x.server with accepting := false } ha ha'
      intro id hid hlt
      by_cases hd : dropped = some id
      · exact .inr ⟨hadm.new.1, addr, ha, hadm.oldest id hd⟩
      · exact .inl ⟨hadm.kept id hid hd, hadm.untouched id hlt hd⟩
  | stop => exact hx.step_other (by simp) hst
  | timer ec => exact hx.step_other (by simp) hst
  | gc k now => exact hx.step_other (by simp) hst
  | read con ec bytes => exact hx.step_other (by simp) hst
  | write con ec => exact hx.step_other (by simp) hst
  | handler h => exact hx.step_other (by simp) hst

/-- An event that does not meet the condition ends the event loop. -/
theorem not_harmless (hx : Accepts x) (hl : ¬ PeerAvailable x l) : ¬ Harmless E x l := by
  intro hharm
  cases l with
  | accepted ec a listenOk =>
    cases ec with
    | success =>
      obtain ⟨hh, hno⟩ := Classical.not_imp.1 hl
      rcases ha : a.remoteAddr with _ | addr
      · obtain ⟨y, hy, hraised⟩ := step_unavailable (E := E) hx hh (.inl ha) listenOk
        exact absurd (hharm y hy).1 (by simp [hraised])
      · rcases ha' : a.remoteAddr' with _ | addr'
        · obtain ⟨y, hy, hraised⟩ := step_unavailable (E := E) hx hh (.inr ha') listenOk
          exact absurd (hharm y hy).1 (by simp [hraised])
        · have hlisten : listenOk = false := by simpa [ha, ha'] using hno
          have := (hharm _ (step_available hx hh ha ha' listenOk)).1
          simp [hlisten] at this
    | operationAborted => exact hl trivial
    | other => exact hl trivial
  | stop => exact hl trivial
  | timer ec => exact hl trivial
  | gc k now => exact hl trivial
  | read con ec bytes => exact hl trivial
  | write con ec => exact hl trivial
  | handler h => exact hl trivial

/-- **Peers that vanish.**  In a run of a started server no exception leaves the event loop, the
other connections are unaffected and the server goes on accepting, exactly if every peer is still
known when its socket is handled. -/
theorem harmless_iff (h₀ : (machine E).init x₀) (hasio : (machine E).Along ByAsio x₀ ls) :
    (machine E).Along (Harmless E) x₀ ls ↔ (machine E).Along PeerAvailable x₀ ls := by
  have hiff : ∀ (x : Serving Ctx Reply σ) l, Accepts x → ByAsio x l →
      (Harmless E x l ↔ PeerAvailable x l) := by
    intro x l hx hl
    constructor
    · exact fun h => by_contra fun hno => not_harmless hx hno h
    · intro h y hst
      obtain ⟨hy, hothers⟩ := hx.step hl h hst
      exact ⟨hy.raised, hothers, hy.accepting⟩
  refine Machine.along_iff_along (I := Accepts) hiff ?_ (accepts_init h₀) hasio
  intro x l y hx hl hharm hst
  exact (hx.step hl ((hiff x l hx hl).1 hharm) hst).1

/-- Twenty connections from one address, and a socket whose peer is gone when its connection is
made. -/
def lateReset : List (Event Unit) :=
  (List.range 20).map (fun n => .accepted .success ⟨some (.v4 1), some (.v4 1), n, 0⟩ true) ++
    [.accepted .success ⟨some (.v4 1), none, 20, 0⟩ true]

/-- A peer that vanishes before its socket is looked at ends the event loop.  One that vanishes
before its connection is made does so too, after another connection was dropped for it. -/
theorem vanished_peer_raises :
    (¬ (machine muteEnv).Along (Harmless muteEnv) startedServer
      [.accepted .success ⟨none, none, 0, 0⟩ true]) ∧
    ∃ x, (machine muteEnv).run startedServer lateReset = some x ∧ x.raised = true ∧
      x.server.handler = true ∧ x.server.accepting = false ∧ 0 ∉ x.server.connections ∧
      x.server.connections.length = 19 := by
  constructor
  · rintro ⟨hharm, -⟩
    have := (hharm ⟨{ handler := true }, (), true⟩ rfl).1
    exact absurd this (by decide)
  · have hsome : ((machine muteEnv).run startedServer lateReset).any (fun x => x.raised &&
        x.server.handler && !x.server.accepting && decide (0 ∉ x.server.connections) &&
        x.server.connections.length == 19) = true := by decide +kernel
    obtain ⟨x, hx, h⟩ := (Option.any_eq_true _ _).1 hsome
    simp only [Bool.and_eq_true, Bool.not_eq_true', decide_eq_true_iff, beq_iff_eq] at h
    obtain ⟨⟨⟨⟨hraised, hhandler⟩, hacc⟩, hno⟩, hlen⟩ := h
    exact ⟨x, hx, hraised, hhandler, hacc, hno, hlen⟩

theorem harmless_crowd : (machine muteEnv).Along (Harmless muteEnv) startedServer crowd := by
  have hall : ∀ l ∈ crowd, ∀ x : Serving Unit Unit Unit, ByAsio x l ∧ PeerAvailable x l := by
    intro l hl x
    rcases List.mem_append.1 hl with hl | hl
    · obtain ⟨n, -, rfl⟩ := List.mem_map.1 hl
      exact ⟨by simp [ByAsio], fun _ => ⟨rfl, rfl, rfl⟩⟩
    · simp only [List.mem_cons, List.not_mem_nil, or_false] at hl
      rcases hl with rfl | rfl | rfl <;> exact ⟨trivial, trivial⟩
  exact (harmless_iff startedServer_init
    (Machine.along_of_forall (fun l hl x => (hall l hl x).1) _)).2
    (Machine.along_of_forall (fun l hl x => (hall l hl x).2) _)

end HttpServer

end Wsddn

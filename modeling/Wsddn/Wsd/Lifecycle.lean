import Wsddn.Wsd.Server

/-!
# The life cycle of a WSD server

`stop` is entered from the server manager, from the handlers of both servers and from the end of a
Bye, while reads, retransmissions, accepts and connections are pending.

* `Acts` : what a server does without being torn down; `step_running` says that a step of a
  running server is this, perhaps followed by `tearDown`.
* `step_stopped` : every handler that is still queued when the server is stopped is inert.
* `lifecycle` : **the life cycle**: `NotStarted`, `Running`, `Stopped`, with both servers stopped
  exactly once, no null pointer used, and nothing done afterwards.
-/

namespace Wsddn

namespace Responder

/-- Only requests were handled. -/
def Answers (w w' : Responder) : Prop :=
  ∃ more : List Call, w'.calls = w.calls ++ more ∧ ∀ c ∈ more, ∃ type, c = .handleRequest type

theorem Answers.of_eq {w w' : Responder} (h : w'.calls = w.calls) : Answers w w' :=
  ⟨[], by rw [h, List.append_nil], by simp⟩

theorem Answers.trans {w w' w'' : Responder} (h : Answers w w') (h' : Answers w' w'') :
    Answers w w'' := by
  obtain ⟨more, he, hm⟩ := h
  obtain ⟨more', he', hm'⟩ := h'
  refine ⟨more ++ more', by rw [he', he, List.append_assoc], fun c hc => ?_⟩
  obtain hc | hc := List.mem_append.1 hc
  · exact hm c hc
  · exact hm' c hc

theorem answers_handleRequest (w : Responder) (host : Host) (type : RequestType) (doc : Soap) :
    Answers w (handleRequest host type doc w).2 :=
  ⟨[.handleRequest type], handleRequest_calls, fun _ hc => ⟨type, List.mem_singleton.1 hc⟩⟩

theorem Answers.count_eq {w w' : Responder} (h : Answers w w') {c : Call}
    (hc : ∀ type, c ≠ .handleRequest type) : w'.calls.count c = w.calls.count c := by
  obtain ⟨more, he, hm⟩ := h
  have hnone : more.count c = 0 := by
    rw [List.count_eq_zero]
    intro hmem
    obtain ⟨type, htype⟩ := hm c hmem
    exact hc type htype
  rw [he, List.count_append, hnone, Nat.add_zero]

end Responder

namespace WsdServer

variable {Ctx : Type*} {E : WsdEnv Ctx} {s s' t : WsdServer Ctx} {l : Event}

/-! ### What the operations do -/

/-- What a server does without being torn down: both pointers and both handlers stay. -/
structure Acts (s t : WsdServer Ctx) : Prop where
  state : t.state = s.state
  udpServer : t.udpServer = s.udpServer
  httpServer : t.httpServer = s.httpServer
  udp : UdpServer.Keeps s.udp t.udp
  http : HttpServer.Keeps s.http t.http
  responder : Responder.Answers s.responder t.responder

theorem Acts.refl (s : WsdServer Ctx) : Acts s s := ⟨rfl, rfl, rfl, .refl _, .refl _, .of_eq rfl⟩

theorem broadcast_eq (hu : s.udpServer = true) {b : WSDResponseBuilder} {m : Message}
    (hb : b.build = some m) (k : Bool) : s.broadcast b k = { s with udp := s.udp.broadcast m k } := by
  simp only [broadcast, hb, withUdp, hu, if_true]

/-- The Hello of a server. -/
def helloMessage (E : WsdEnv Ctx) (s : WsdServer Ctx) : Message :=
  ⟨wsdUrn, wsdUri ++ SysString.ofLiteral "/Hello", none, some (s.responder.appSequence E.host),
    .hello E.host.endpointIdentifier E.host.httpAddress E.host.httpPath⟩

/-- The Bye of a server. -/
def byeMessage (E : WsdEnv Ctx) (s : WsdServer Ctx) : Message :=
  ⟨wsdUrn, wsdUri ++ SysString.ofLiteral "/Bye", none, some (s.responder.appSequence E.host),
    .bye E.host.endpointIdentifier⟩

theorem sendBye_eq (hu : s.udpServer = true) : sendBye E s =
    { s with responder := s.responder.nextMessage E.host,
             udp := s.udp.broadcast (byeMessage E s) true } := by
  unfold sendBye
  exact broadcast_eq (s := { s with responder := s.responder.nextMessage E.host }) hu rfl true

/-- The state after `tearDown` of a server whose pointers are set. -/
theorem tearDown_eq (hu : s.udpServer = true) (hh : s.httpServer = true) : s.tearDown =
    { s with state := .stopped, udpServer := false, httpServer := false,
             udp := s.udp.stop, http := s.http.stop,
             responder := (s.responder.call .udpStop).call .httpStop } := by
  simp only [tearDown, httpStop, udpStop, withUdp, withHttp, call, hu, hh, if_true]

theorem handleUdpRequest_answers (w : Responder) (bytes : List UInt8) :
    w.Answers (handleUdpRequest E w bytes).2 := by
  unfold handleUdpRequest
  split
  · exact .of_eq rfl
  · exact Responder.answers_handleRequest w _ _ _

theorem readHandler_answers {u u' : UdpServer Message} {w w' : Responder} {sock : UdpSocket}
    {ec : ErrorCode} {received : List Received} {o : Outcome}
    (hr : u.readHandler (handleUdpRequest E) w sock ec received = some (u', w', o)) :
    w.Answers w' := by
  obtain ⟨-, rfl, -⟩ | ⟨-, hloop⟩ := UdpServer.readHandler_cases hr
  · exact .of_eq rfl
  · -- every request in the loop is answered by the responder
    refine (UdpServer.readLoop_invariant (P := fun _ w'' => w.Answers w'') ?_ ?_ ?_ hloop
      (.of_eq rfl)).1
    · intro _ h bytes h' hP hh
      have := handleUdpRequest_answers (E := E) h bytes
      rw [hh] at this
      exact hP.trans this
    · intro _ h bytes m h' _ hP hh
      have := handleUdpRequest_answers (E := E) h bytes
      rw [hh] at this
      exact hP.trans this
    · exact fun _ _ hP => hP

/-- The last action of a completion handler, for a running server. -/
theorem finish_cases {s₁ : WsdServer Ctx} (h : Acts s s₁) (hs : s.state = .running) (o : Outcome) :
    Acts s (finish E s₁ o) ∨ finish E s₁ o = s₁.tearDown := by
  have hstop : stop E s₁ false = s₁.tearDown := by
    unfold stop
    rw [h.state, hs]
    rfl
  cases o with
  | returned => exact .inl h
  | fatal => exact .inr hstop
  | continuation => exact .inr hstop
  | raised => exact .inl ⟨h.state, h.udpServer, h.httpServer, h.udp, h.http, h.responder⟩

/-- **A step of a running server** leaves it running, or ends by tearing it down. -/
theorem step_running (hs : s.state = .running) (hu : s.udpServer = true)
    (hst : step E s l = some t) : Acts s t ∨ ∃ s₁, Acts s s₁ ∧ t = s₁.tearDown := by
  unfold step at hst
  split at hst
  · simp at hst
  · -- one case for each handler
    cases l with
    | stop graceful =>
      obtain rfl := Option.some.inj hst
      unfold stop
      rw [hs]
      cases graceful with
      | false => exact .inr ⟨s, .refl s, rfl⟩
      | true =>
        refine .inl ?_
        simp only [if_true, sendBye_eq hu]
        exact ⟨rfl, rfl, rfl, ⟨rfl, rfl⟩, .refl _, .of_eq rfl⟩
    | udpRead sock ec received =>
      obtain ⟨⟨u, w, o⟩, hr, rfl⟩ := Option.map_eq_some_iff.1 hst
      have hacts : Acts s { s with udp := u, responder := w } :=
        ⟨rfl, rfl, rfl, UdpServer.readHandler_keeps hr, .refl _, readHandler_answers hr⟩
      exact (finish_cases hacts hs o).imp (fun h => h) fun h => ⟨_, hacts, h⟩
    | udpSent i ec =>
      obtain ⟨⟨u, o⟩, hr, rfl⟩ := Option.map_eq_some_iff.1 hst
      have hacts : Acts s { s with udp := u } :=
        ⟨rfl, rfl, rfl, UdpServer.sendHandler_keeps hr, .refl _, .of_eq rfl⟩
      exact (finish_cases hacts hs o).imp (fun h => h) fun h => ⟨_, hacts, h⟩
    | udpTimer i ec =>
      obtain ⟨u, hr, rfl⟩ := Option.map_eq_some_iff.1 hst
      exact .inl ⟨rfl, rfl, rfl, UdpServer.timerHandler_keeps hr, .refl _, .of_eq rfl⟩
    | httpAccept ec a listenOk =>
      obtain ⟨⟨http, o⟩, hr, rfl⟩ := Option.map_eq_some_iff.1 hst
      have hacts : Acts s { s with http } :=
        ⟨rfl, rfl, rfl, .refl _, (HttpServer.acceptHandler_keeps hr).1, .of_eq rfl⟩
      exact (finish_cases hacts hs o).imp (fun h => h) fun h => ⟨_, hacts, h⟩
    | httpTimer ec =>
      obtain ⟨http, hr, rfl⟩ := Option.map_eq_some_iff.1 hst
      exact .inl ⟨rfl, rfl, rfl, .refl _, HttpServer.gcExpires_keeps hr, .of_eq rfl⟩
    | httpGC k now =>
      obtain ⟨⟨http, o⟩, hr, rfl⟩ := Option.map_eq_some_iff.1 hst
      have hacts : Acts s { s with http } :=
        ⟨rfl, rfl, rfl, .refl _, (HttpServer.gcHandler_keeps hr).1, .of_eq rfl⟩
      exact (finish_cases hacts hs o).imp (fun h => h) fun h => ⟨_, hacts, h⟩
    | httpRead id ec bytes =>
      obtain ⟨⟨http, w⟩, hr, rfl⟩ := Option.map_eq_some_iff.1 hst
      have hkeeps := HttpServer.readHandler_keeps (P := fun w => s.responder.Answers w)
        (fun w doc hw => hw.trans (Responder.answers_handleRequest w E.host .http doc))
        (.of_eq rfl) hr
      exact .inl ⟨rfl, rfl, rfl, .refl _, hkeeps.1, hkeeps.2⟩
    | httpWrite id ec =>
      obtain ⟨http, hr, rfl⟩ := Option.map_eq_some_iff.1 hst
      exact .inl ⟨rfl, rfl, rfl, .refl _, HttpServer.writeHandler_keeps hr, .of_eq rfl⟩

/-! ### The invariant -/

/-- What holds of the life cycle in every state after `start` has returned. -/
structure Lifecycle (s : WsdServer Ctx) : Prop where
  started : s.state = .running ∨ s.state = .stopped
  udpNull : s.udpServer = false ↔ s.state = .stopped
  httpNull : s.httpServer = false ↔ s.state = .stopped
  udpStops : s.responder.calls.count .udpStop = if s.state = .stopped then 1 else 0
  httpStops : s.responder.calls.count .httpStop = if s.state = .stopped then 1 else 0
  noTerminate : s.responder.calls.count .terminate = 0
  noNullDeref : s.responder.calls.count .nullDeref = 0

/-- Nothing was sent, read, written or handled, and no server was stopped. -/
structure Quiet (s t : WsdServer Ctx) : Prop where
  sent : t.udp.sent = s.udp.sent
  started : t.http.started = s.http.started
  calls : t.responder.calls = s.responder.calls

/-- The invariant: a stopped server is deaf on both sides. -/
structure Inv (s : WsdServer Ctx) : Prop extends Lifecycle s where
  owned : s.http.Owned
  live : s.state = .running → s.udp.handler = true ∧ ∀ sock, s.udp.isOpen sock = true
  deaf : s.state = .stopped → s.udp.Deaf ∧ s.http.Deaf

theorem Inv.pointers (hs : s.Inv) (hr : s.state = .running) :
    s.udpServer = true ∧ s.httpServer = true := by
  have hne : ¬ s.state = .stopped := by simp [hr]
  constructor
  · rw [← Bool.not_eq_false, hs.udpNull]
    exact hne
  · rw [← Bool.not_eq_false, hs.httpNull]
    exact hne

theorem Inv.acts (hs : s.Inv) (hr : s.state = .running) (h : Acts s t) : t.Inv := by
  have hne : ¬ t.state = .stopped := by simp [h.state, hr]
  have hcount : ∀ c, (∀ type, c ≠ .handleRequest type) →
      t.responder.calls.count c = s.responder.calls.count c := fun c => h.responder.count_eq
  refine ⟨⟨.inl (h.state.trans hr), ?_, ?_, ?_, ?_, ?_, ?_⟩, h.http.owned hs.owned, fun _ => ?_,
    fun h' => absurd h' hne⟩
  · rw [h.udpServer, h.state, hs.udpNull]
  · rw [h.httpServer, h.state, hs.httpNull]
  · rw [hcount _ (by simp), h.state, hs.udpStops]
  · rw [hcount _ (by simp), h.state, hs.httpStops]
  · rw [hcount _ (by simp), hs.noTerminate]
  · rw [hcount _ (by simp), hs.noNullDeref]
  · rw [h.udp.handler, h.udp.isOpen]
    exact hs.live hr

/-- The step into `Stopped` stops each server once. -/
theorem Inv.tearDown (hs : s.Inv) (hr : s.state = .running) : s.tearDown.Inv := by
  obtain ⟨hu, hh⟩ := hs.pointers hr
  have hudp := hs.udpStops
  have hhttp := hs.httpStops
  have hdeaf := HttpServer.stop_deaf hs.owned
  rw [tearDown_eq hu hh]
  simp only [hr, reduceCtorEq, if_false] at hudp hhttp
  refine ⟨⟨.inr rfl, by simp, by simp, ?_, ?_, ?_, ?_⟩, ?_, by simp,
    fun _ => ⟨UdpServer.stop_deaf, hdeaf⟩⟩
  · simp [hudp]
  · simp [hhttp]
  · simpa using hs.noTerminate
  · simpa using hs.noNullDeref
  · intro id c hc ho
    rw [hdeaf.unowned id c hc] at ho
    cases ho

/-- The invariant of a stopped server looks only at what its handlers leave alone. -/
theorem Inv.of_quiet (hs : s.Inv) (hst : s.state = .stopped) (h : Quiet s t)
    (hstate : t.state = s.state) (hu : t.udpServer = s.udpServer)
    (hh : t.httpServer = s.httpServer) (hdeaf : t.udp.Deaf ∧ t.http.Deaf) : t.Inv := by
  refine ⟨⟨.inr (hstate.trans hst), ?_, ?_, ?_, ?_, ?_, ?_⟩, ?_, ?_, fun _ => hdeaf⟩
  · rw [hu, hstate, hs.udpNull]
  · rw [hh, hstate, hs.httpNull]
  · rw [h.calls, hstate, hs.udpStops]
  · rw [h.calls, hstate, hs.httpStops]
  · rw [h.calls, hs.noTerminate]
  · rw [h.calls, hs.noNullDeref]
  · intro id c hc ho
    rw [hdeaf.2.unowned id c hc] at ho
    cases ho
  · rw [hstate, hst]
    simp

/-- **Every handler that is still queued when the server is stopped is inert.** -/
theorem step_stopped (hs : s.Inv) (hst : s.state = .stopped) (h : step E s l = some t) :
    Quiet s t ∧ t.state = .stopped ∧ t.Inv := by
  obtain ⟨hudp, hhttp⟩ := hs.deaf hst
  unfold step at h
  split at h
  · simp at h
  · cases l with
    | stop graceful =>
      obtain rfl : s = t := by simpa [stop, hst] using h
      exact ⟨⟨rfl, rfl, rfl⟩, hst, hs⟩
    | udpRead sock ec received =>
      obtain ⟨⟨u, w, o⟩, hr, rfl⟩ := Option.map_eq_some_iff.1 h
      obtain ⟨hdeaf, hsent, rfl, rfl⟩ := UdpServer.readHandler_deaf hudp hr
      have hq : Quiet s { s with udp := u } := ⟨hsent, rfl, rfl⟩
      exact ⟨hq, hst, hs.of_quiet hst hq rfl rfl rfl ⟨hdeaf, hhttp⟩⟩
    | udpSent i ec =>
      obtain ⟨⟨u, o⟩, hr, rfl⟩ := Option.map_eq_some_iff.1 h
      obtain ⟨hdeaf, hsent, rfl⟩ := UdpServer.sendHandler_deaf hudp hr
      have hq : Quiet s { s with udp := u } := ⟨hsent, rfl, rfl⟩
      exact ⟨hq, hst, hs.of_quiet hst hq rfl rfl rfl ⟨hdeaf, hhttp⟩⟩
    | udpTimer i ec =>
      obtain ⟨u, hr, rfl⟩ := Option.map_eq_some_iff.1 h
      obtain ⟨hdeaf, hsent⟩ := UdpServer.timerHandler_deaf hudp hr
      have hq : Quiet s { s with udp := u } := ⟨hsent, rfl, rfl⟩
      exact ⟨hq, hst, hs.of_quiet hst hq rfl rfl rfl ⟨hdeaf, hhttp⟩⟩
    | httpAccept ec a listenOk =>
      obtain ⟨⟨http, o⟩, hr, rfl⟩ := Option.map_eq_some_iff.1 h
      obtain ⟨hdeaf, hstarted, rfl⟩ := HttpServer.acceptHandler_deaf hhttp hr
      have hq : Quiet s { s with http } := ⟨rfl, hstarted, rfl⟩
      exact ⟨hq, hst, hs.of_quiet hst hq rfl rfl rfl ⟨hudp, hdeaf⟩⟩
    | httpTimer ec =>
      obtain ⟨http, hr, rfl⟩ := Option.map_eq_some_iff.1 h
      obtain ⟨hdeaf, hstarted⟩ := HttpServer.gcExpires_deaf hhttp hr
      have hq : Quiet s { s with http } := ⟨rfl, hstarted, rfl⟩
      exact ⟨hq, hst, hs.of_quiet hst hq rfl rfl rfl ⟨hudp, hdeaf⟩⟩
    | httpGC k now =>
      obtain ⟨⟨http, o⟩, hr, rfl⟩ := Option.map_eq_some_iff.1 h
      obtain ⟨hdeaf, hstarted, rfl⟩ := HttpServer.gcHandler_deaf hhttp hr
      have hq : Quiet s { s with http } := ⟨rfl, hstarted, rfl⟩
      exact ⟨hq, hst, hs.of_quiet hst hq rfl rfl rfl ⟨hudp, hdeaf⟩⟩
    | httpRead id ec bytes =>
      obtain ⟨⟨http, w⟩, hr, rfl⟩ := Option.map_eq_some_iff.1 h
      obtain ⟨hdeaf, hstarted, rfl⟩ := HttpServer.readHandler_deaf hhttp hr
      have hq : Quiet s { s with http } := ⟨rfl, hstarted, rfl⟩
      exact ⟨hq, hst, hs.of_quiet hst hq rfl rfl rfl ⟨hudp, hdeaf⟩⟩
    | httpWrite id ec =>
      obtain ⟨http, hr, rfl⟩ := Option.map_eq_some_iff.1 h
      obtain ⟨hdeaf, hstarted⟩ := HttpServer.writeHandler_deaf hhttp hr
      have hq : Quiet s { s with http } := ⟨rfl, hstarted, rfl⟩
      exact ⟨hq, hst, hs.of_quiet hst hq rfl rfl rfl ⟨hudp, hdeaf⟩⟩

theorem Inv.step (hs : s.Inv) (h : step E s l = some t) : t.Inv := by
  obtain hr | hst := hs.started
  · obtain hacts | ⟨s₁, hacts, rfl⟩ := step_running hr (hs.pointers hr).1 h
    · exact hs.acts hr hacts
    · exact (hs.acts hr hacts).tearDown (hacts.state.trans hr)
  · exact (step_stopped hs hst h).2.2

/-- The state that `start` leaves. -/
theorem start_create (isV4 : Bool) (multicastDest : Endpoint) :
    start E (create isV4 multicastDest) true =
      ({ state := .running
         udp := (UdpServer.start { isV4, multicastDest }).broadcast
           (helloMessage E (create isV4 multicastDest)) false
         http := { handler := true, accepting := true }
         responder := Responder.nextMessage E.host {} }, .returned) := rfl

theorem Inv.init (h : (machine E).init s) : s.Inv := by
  obtain ⟨isV4, dest, h⟩ := h
  rw [start_create] at h
  obtain ⟨rfl, -⟩ := Prod.mk.inj h
  refine ⟨⟨.inl rfl, by simp, by simp, rfl, rfl, rfl, rfl⟩, ?_, fun _ => ⟨rfl, fun _ => rfl⟩,
    by simp⟩
  intro id c hc
  simp at hc

theorem inv_of_reachable (h : (machine E).Reachable s) : s.Inv :=
  h.invariant (fun _ => Inv.init) fun _ _ _ hs hst => hs.step hst

/-- What a stopped server has done, it has done when it was stopped. -/
theorem run_stopped {ls : List Event} (hs : s.Inv) (hst : s.state = .stopped)
    (hr : (machine E).run s ls = some t) : Quiet s t ∧ t.state = .stopped := by
  -- along the run the server stays deaf, and quiet with respect to where the run began
  have h := Machine.run_invariant (M := machine E)
    (I := fun t => Quiet s t ∧ t.state = .stopped ∧ t.Inv) ?_ ⟨⟨rfl, rfl, rfl⟩, hst, hs⟩ hr
  · exact ⟨h.1, h.2.1⟩
  · intro t l t' ht hstep
    obtain ⟨hq, hst', hs'⟩ := step_stopped ht.2.2 ht.2.1 hstep
    exact ⟨⟨hq.sent.trans ht.1.sent, hq.started.trans ht.1.started, hq.calls.trans ht.1.calls⟩,
      hst', hs'⟩

/-- **The life cycle of a WSD server.**  A server that is created is not started; `start` makes it
run.  From then on, whatever happens in whatever order: it is running or stopped, and it does not
leave `Stopped`; each of its two servers has been stopped once if it is stopped and not at all
otherwise; its pointers are null exactly if it is stopped; no null pointer was used and
`std::terminate` was not called; and once it is stopped nothing more is sent, read, written or
handled. -/
theorem lifecycle :
    (∀ isV4 dest, (create isV4 dest : WsdServer Ctx).state = .notStarted ∧
      (start E (create isV4 dest) true).1.state = .running) ∧
    ∀ s, (machine E).Reachable s → s.Lifecycle ∧
      ∀ ls t, (machine E).run s ls = some t → s.state = .stopped →
        t.state = .stopped ∧ Quiet s t := by
  refine ⟨fun isV4 dest => ⟨rfl, by rw [start_create]⟩, fun s hs => ?_⟩
  have hinv := inv_of_reachable hs
  refine ⟨hinv.toLifecycle, fun ls t hr hst => ?_⟩
  obtain ⟨hq, hst'⟩ := run_stopped hinv hst hr
  exact ⟨hst', hq⟩

/-- A host that understands no documents. -/
def silentEnv : WsdEnv Unit where
  host := ⟨SysString.ofLiteral "urn:uuid:0", 1, SysString.ofLiteral "0", (.v4 0x7f000001, 5357),
    SysString.ofLiteral "host", SysString.ofLiteral "HOST/Workgroup:WG", 64⟩
  xml := { createPush := fun _ => (), parseChunk := fun _ _ _ => none, wellFormed := fun _ => false,
           extractDoc := fun _ => ⟨false, [], [], none, []⟩ }
  readMemory := fun _ => none

/-- A server of `silentEnv` that has just been started. -/
def silentServer : WsdServer Unit :=
  (start silentEnv (create true (.v4 0xeffffffa, 3702)) true).1

/-- A graceful stop: the Bye is sent four times while the Hello waits for its first handler. -/
def gracefulStop : List Event :=
  [.stop true, .udpSent 1 .success, .udpTimer 1 .success, .udpSent 1 .success,
   .udpTimer 1 .success, .udpSent 1 .success, .udpTimer 1 .success, .udpSent 1 .success]

/-- The server after that. -/
def afterGracefulStop : WsdServer Unit :=
  ((machine silentEnv).run silentServer gracefulStop).get (by decide +kernel)

theorem run_gracefulStop :
    (machine silentEnv).run silentServer gracefulStop = some afterGracefulStop :=
  (Option.some_get _).symm

theorem silentServer_init : (machine silentEnv).init silentServer :=
  ⟨true, (.v4 0xeffffffa, 3702), rfl⟩

theorem lifecycle_afterGracefulStop : afterGracefulStop.state = .stopped ∧
    afterGracefulStop.Lifecycle ∧
    ∀ ls t, (machine silentEnv).run afterGracefulStop ls = some t →
      t.state = .stopped ∧ Quiet afterGracefulStop t := by
  have hstopped : afterGracefulStop.state = .stopped := by decide +kernel
  have h := lifecycle.2 afterGracefulStop
    ⟨silentServer, gracefulStop, silentServer_init, run_gracefulStop⟩
  exact ⟨hstopped, h.1, fun ls t ht => h.2 ls t ht hstopped⟩

end WsdServer

end Wsddn

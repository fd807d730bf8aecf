import Wsddn.Udp.Chain
import Wsddn.Wsd.Announce

/-!
# A graceful stop

A graceful stop broadcasts a Bye, and the end of its chain tears the server down.  The chains of a
WSD server are those of its UDP server, so what `Udp.Chain` says about them is true of its Bye.

* `step_follows` : **a step of a WSD server** is a few calls of its UDP server.
* `farewell` : a graceful stop sends four Byes and then stops both servers once, unless a
  transmission fails or something else stops them earlier.
* `retransmission_chain` : every call of `write`, and what follows for a graceful stop.
-/

namespace Wsddn

open ChainEvent

namespace UdpServer

/-- The server goes on from `x` to `y`, and no handler of a chain is called. -/
structure Silently {Msg : Type*} (x y : Logged Msg) : Prop where
  run : ∃ calls, chainMachine.run x calls = some y
  codes : ∀ i, codes (y.log i) = codes (x.log i)
  mono : ∀ i, x.log i ⊆ y.log i
  continued : ∀ i, .continued ∈ y.log i → .continued ∈ x.log i

namespace Silently

variable {Msg : Type*} {x y z : Logged Msg}

theorem refl (x : Logged Msg) : Silently x x :=
  ⟨⟨[], rfl⟩, fun _ => rfl, fun _ => List.Subset.refl _, fun _ h => h⟩

theorem trans (h : Silently x y) (h' : Silently y z) : Silently x z := by
  obtain ⟨calls, hc⟩ := h.run
  obtain ⟨calls', hc'⟩ := h'.run
  refine ⟨⟨calls ++ calls', Machine.run_append_eq_some.2 ⟨y, hc, hc'⟩⟩, fun i => ?_, fun i => ?_,
    fun i hi => h.continued i (h'.continued i hi)⟩
  · rw [h'.codes, h.codes]
  · exact List.Subset.trans (h.mono i) (h'.mono i)

theorem of_step {l : ChainCall Msg} (hst : x.step l = some y)
    (hlog : ∀ i, ∃ more, y.log i = x.log i ++ more ∧ (more = [] ∨ more = [.handed] ∨
      more = [.stopped])) : Silently x y := by
  refine ⟨⟨[l], Machine.run_cons_eq_some.2 ⟨y, hst, rfl⟩⟩, fun i => ?_, fun i => ?_, fun i hi => ?_⟩
  · obtain ⟨more, he, rfl | rfl | rfl⟩ := hlog i <;> simp [he]
  · obtain ⟨more, he, -⟩ := hlog i
    exact he ▸ List.subset_append_left ..
  · obtain ⟨more, he, rfl | rfl | rfl⟩ := hlog i <;> simpa [he] using hi

theorem stop (x : Logged Msg) : ∃ y, y.server = x.server.stop ∧ Silently x y := by
  refine ⟨_, rfl, of_step (l := .stop) rfl fun i => ?_⟩
  dsimp only
  split_ifs
  · exact ⟨_, rfl, .inr (.inr rfl)⟩
  · exact ⟨[], (List.append_nil _).symm, .inl rfl⟩

theorem write (x : Logged Msg) (data : Msg) (sock : UdpSocket) (dest : Endpoint)
    (isUnicast continuation : Bool) :
    ∃ y, y.server = x.server.write data sock dest isUnicast continuation ∧ Silently x y := by
  refine ⟨_, rfl, of_step (l := .write data sock dest isUnicast continuation) rfl fun i => ?_⟩
  by_cases hi : i = x.server.chains.length
  · subst hi
    exact ⟨[.handed], Logged.note_self .., .inr (.inl rfl)⟩
  · exact ⟨[], (Logged.note_of_ne _ hi _).trans (List.append_nil _).symm, .inl rfl⟩

theorem waits (x : Logged Msg) (reads : List UdpSocket) :
    ∃ y, y.server = { x.server with reads } ∧ Silently x y :=
  ⟨_, rfl, of_step (l := .waits reads) rfl fun _ => ⟨[], (List.append_nil _).symm, .inl rfl⟩⟩

/-- The handler of a wait only starts chains. -/
theorem readHandler {σ : Type*} {handleUdpRequest : σ → List UInt8 → Option Msg × σ} {h h' : σ}
    {sock : UdpSocket} {ec : ErrorCode} {received : List Received} {u : UdpServer Msg} {o : Outcome}
    (hr : x.server.readHandler handleUdpRequest h sock ec received = some (u, h', o)) :
    ∃ y, y.server = u ∧ Silently x y := by
  have hfirst := waits x (x.server.reads.erase sock)
  obtain ⟨rfl, -⟩ | ⟨-, hloop⟩ := readHandler_cases hr
  · exact hfirst
  · refine (readLoop_invariant (P := fun u _ => ∃ y : Logged Msg, y.server = u ∧ Silently x y)
      (fun _ _ _ _ hP _ => hP) ?_ ?_ hloop hfirst).1
    · rintro _ _ _ m _ sender ⟨y, rfl, hy⟩ -
      obtain ⟨z, hz, hyz⟩ := write y m .unicastSend sender true false
      exact ⟨z, hz, hy.trans hyz⟩
    · rintro _ _ ⟨y, rfl, hy⟩
      obtain ⟨z, hz, hyz⟩ := waits y (sock :: y.server.reads)
      exact ⟨z, hz, hy.trans hyz⟩

end Silently

end UdpServer

namespace WsdServer

open UdpServer

variable {Ctx : Type*} {E : WsdEnv Ctx} {s t : WsdServer Ctx} {l : Event} {x y : Logged Message}
  {i : ℕ}

/-! ### A WSD server and its chains -/

/-- The error code, for the call of a handler of the chain `i`. -/
def ofChain (i : ℕ) : Event → Option ErrorCode
  | .udpSent j ec | .udpTimer j ec => if j = i then some ec else none
  | _ => none

/-- The error codes of the handlers of the chain `i`. -/
def chainCodes (i : ℕ) (ls : List Event) : List ErrorCode :=
  ls.filterMap (ofChain i)

/-- The logs of the chains of `s`. -/
structure Follows (s : WsdServer Ctx) (x : Logged Message) : Prop where
  server : x.server = s.udp
  /-- The continuation of a chain stops the server. -/
  continued : s.state = .running → ∀ i, .continued ∉ x.log i

/-- What is left to do when a handler ends is silent. -/
theorem finish_silently (hx : x.server = s.udp) (o : Outcome) :
    ∃ y, y.server = (finish E s o).udp ∧ Silently x y := by
  have hstop : ∃ y, y.server = (stop E s false).udp ∧ Silently x y := by
    unfold stop
    split
    · exact ⟨x, hx, .refl x⟩
    · have hudp : s.tearDown.udp = if s.udpServer then s.udp.stop else s.udp := by
        simp only [tearDown, httpStop, udpStop, withUdp, withHttp, call]
        split_ifs <;> rfl
      rw [if_neg Bool.false_ne_true, hudp]
      split_ifs
      · rw [← hx]
        exact Silently.stop x
      · exact ⟨x, hx, .refl x⟩
    · exact ⟨x, hx, .refl x⟩
  cases o with
  | returned => exact ⟨x, hx, .refl x⟩
  | fatal => exact hstop
  | continuation => exact hstop
  | raised => exact ⟨x, hx, .refl x⟩

/-- A step of a WSD server, as its UDP server sees it. -/
structure Mirrors (l : Event) (s t : WsdServer Ctx) (x y : Logged Message) : Prop where
  run : ∃ calls, chainMachine.run x calls = some y
  codes : ∀ i, codes (y.log i) = codes (x.log i) ++ (ofChain i l).toList
  mono : ∀ i, x.log i ⊆ y.log i
  follows : Follows t y
  /-- A chain stops the server by its continuation or by an error. -/
  stops : ∀ i, ofChain i l ≠ none → s.state = .running → t.state ≠ .running →
    .continued ∈ y.log i ∨ .fatal ∈ y.log i

/-- A step in which no handler of a chain is called. -/
theorem mirrors_of_silently (hx : Follows s x) (hl : ∀ i, ofChain i l = none)
    (hback : t.state = .running → s.state = .running)
    (h : ∃ y, y.server = t.udp ∧ Silently x y) : ∃ y, Mirrors l s t x y := by
  obtain ⟨y, hy, h⟩ := h
  refine ⟨y, h.run, fun i => ?_, h.mono, ⟨hy, fun ht i hi => ?_⟩, fun i hi => absurd (hl i) hi⟩
  · rw [hl, h.codes, Option.toList_none, List.append_nil]
  · exact hx.continued (hback ht) i (h.continued i hi)

theorem mem_note {log : ℕ → List ChainEvent} {more : List ChainEvent} {e : ChainEvent} {j : ℕ} :
    e ∈ note log i more j ↔ e ∈ log j ∨ i = j ∧ e ∈ more := by
  by_cases hij : j = i
  · subst hij
    simp [Logged.note_self]
  · simp [Logged.note_of_ne _ hij, Ne.symm hij]

theorem codes_note {log : ℕ → List ChainEvent} {more : List ChainEvent} {ec : ErrorCode}
    (hmore : codes more = [ec]) (j : ℕ) :
    codes (note log i more j) = codes (log j) ++ (if i = j then some ec else none).toList := by
  by_cases hij : j = i
  · subst hij
    rw [Logged.note_self, codes_append, hmore, if_pos rfl, Option.toList_some]
  · rw [Logged.note_of_ne _ hij, if_neg (Ne.symm hij), Option.toList_none, List.append_nil]

/-- A handler of a transmission, and what is left to do when it ends. -/
theorem mirrors_udpSent (hx : Follows s x) {ec : ErrorCode} {u : UdpServer Message} {o : Outcome}
    (hr : s.udp.sendHandler i ec = some (u, o))
    (hback : (finish E { s with udp := u } o).state = .running → s.state = .running) :
    ∃ y, Mirrors (.udpSent i ec) s (finish E { s with udp := u } o) x y := by
  have hst : chainMachine.step x (.sent i ec) =
      some { server := u, log := note x.log i (.completed ec :: ofOutcome o) } := by
    simp only [chainMachine, Logged.step, hx.server, hr, Option.map_some]
  obtain ⟨y, hy, h⟩ := finish_silently (E := E) (s := { s with udp := u })
    (x := { server := u, log := note x.log i (.completed ec :: ofOutcome o) }) rfl o
  obtain ⟨calls, hrun⟩ := h.run
  have hcodes : codes (.completed ec :: ofOutcome o) = [ec] := by
    cases o <;> rfl
  refine ⟨y, ⟨_, Machine.run_cons_eq_some.2 ⟨_, hst, hrun⟩⟩, fun j => ?_, fun j e he => ?_,
    ⟨hy, fun ht j hj => ?_⟩, fun j hj hs hne => ?_⟩
  · rw [h.codes]
    exact codes_note hcodes j
  · exact h.mono j (mem_note.2 (.inl he))
  · obtain hj | ⟨-, hj⟩ := mem_note.1 (h.continued j hj)
    · exact hx.continued (hback ht) j hj
    · cases o with
      | continuation =>
        -- the continuation has stopped the server
        simp only [finish, WsdServer.stop, hback ht] at ht
        cases ht
      | returned => simp [ofOutcome] at hj
      | fatal => simp [ofOutcome] at hj
      | raised => simp [ofOutcome] at hj
  · have hij : i = j := by
      by_contra hij
      simp [ofChain, hij] at hj
    have hmem : ∀ e ∈ ofOutcome o, e ∈ y.log j := fun e he =>
      h.mono j (mem_note.2 (.inr ⟨hij, List.mem_cons_of_mem _ he⟩))
    cases o with
    | continuation => exact .inl (hmem _ (List.mem_singleton_self _))
    | fatal => exact .inr (hmem _ (List.mem_singleton_self _))
    | returned => exact absurd hs hne
    | raised => exact absurd hs hne

theorem mirrors_udpTimer (hx : Follows s x) {ec : ErrorCode} {u : UdpServer Message}
    (hr : s.udp.timerHandler i ec = some u) :
    ∃ y, Mirrors (.udpTimer i ec) s { s with udp := u } x y := by
  obtain ⟨more, hmore, hst⟩ : ∃ more, (more = [] ∨ more = [ChainEvent.handed]) ∧
      chainMachine.step x (.timer i ec) =
        some { server := u, log := note x.log i (.expired ec :: more) } := by
    simp only [chainMachine, Logged.step, hx.server, hr, Option.map_some]
    exact ⟨_, by split_ifs <;> simp, rfl⟩
  have hmore : codes (.expired ec :: more) = [ec] ∧ .continued ∉ ChainEvent.expired ec :: more := by
    obtain rfl | rfl := hmore <;> exact ⟨rfl, by simp⟩
  refine ⟨{ server := u, log := note x.log i (.expired ec :: more) },
    ⟨[.timer i ec], Machine.run_cons_eq_some.2 ⟨_, hst, rfl⟩⟩, fun j => codes_note hmore.1 j,
    fun j e he => mem_note.2 (.inl he), ⟨rfl, fun ht j hj => ?_⟩, fun j _ hs hne => absurd hs hne⟩
  obtain hj | ⟨-, hj⟩ := mem_note.1 hj
  · exact hx.continued ht j hj
  · exact hmore.2 hj

/-- **A step of a WSD server** is a few calls of its UDP server. -/
theorem step_follows (hs : s.Inv) (hx : Follows s x) (hst : step E s l = some t) :
    ∃ y, Mirrors l s t x y := by
  have hback := running_of_step hs hst
  unfold step at hst
  split at hst
  · simp at hst
  · cases l with
    | stop graceful =>
      obtain rfl := Option.some.inj hst
      refine mirrors_of_silently hx (fun _ => rfl) hback ?_
      cases graceful with
      | false => exact finish_silently (E := E) hx.server .fatal
      | true =>
        obtain hr | hstop := hs.started
        · simp only [stop, hr, if_true, sendBye_eq (hs.pointers hr).1]
          rw [← hx.server]
          exact Silently.write x ..
        · simp only [stop, hstop]
          exact ⟨x, hx.server, .refl x⟩
    | udpRead sock ec received =>
      obtain ⟨⟨u, w, o⟩, hr, rfl⟩ := Option.map_eq_some_iff.1 hst
      refine mirrors_of_silently hx (fun _ => rfl) hback ?_
      rw [← hx.server] at hr
      obtain ⟨y, hy, h⟩ := Silently.readHandler hr
      obtain ⟨z, hz, h'⟩ := finish_silently (E := E) (s := { s with udp := u, responder := w }) hy o
      exact ⟨z, hz, h.trans h'⟩
    | udpSent i ec =>
      obtain ⟨⟨u, o⟩, hr, rfl⟩ := Option.map_eq_some_iff.1 hst
      exact mirrors_udpSent hx hr hback
    | udpTimer i ec =>
      obtain ⟨u, hr, rfl⟩ := Option.map_eq_some_iff.1 hst
      exact mirrors_udpTimer hx hr
    | httpAccept ec a listenOk =>
      obtain ⟨⟨http, o⟩, -, rfl⟩ := Option.map_eq_some_iff.1 hst
      exact mirrors_of_silently hx (fun _ => rfl) hback
        (finish_silently (s := { s with http }) hx.server o)
    | httpTimer ec =>
      obtain ⟨http, -, rfl⟩ := Option.map_eq_some_iff.1 hst
      exact mirrors_of_silently hx (fun _ => rfl) hback ⟨x, hx.server, .refl x⟩
    | httpGC k now =>
      obtain ⟨⟨http, o⟩, -, rfl⟩ := Option.map_eq_some_iff.1 hst
      exact mirrors_of_silently hx (fun _ => rfl) hback
        (finish_silently (s := { s with http }) hx.server o)
    | httpRead id ec bytes =>
      obtain ⟨⟨http, w⟩, -, rfl⟩ := Option.map_eq_some_iff.1 hst
      exact mirrors_of_silently hx (fun _ => rfl) hback ⟨x, hx.server, .refl x⟩
    | httpWrite id ec =>
      obtain ⟨http, -, rfl⟩ := Option.map_eq_some_iff.1 hst
      exact mirrors_of_silently hx (fun _ => rfl) hback ⟨x, hx.server, .refl x⟩

theorem follows_init (hs : (machine E).init s) :
    ∃ x, chainMachine.Reachable x ∧ Follows s x := by
  obtain ⟨isV4, dest, hs⟩ := hs
  rw [start_create] at hs
  obtain ⟨rfl, -⟩ := Prod.mk.inj hs
  let x₀ : Logged Message := { server := UdpServer.start { isV4, multicastDest := dest } }
  have hfresh : x₀.Fresh := ⟨rfl, fun _ => rfl, rfl, rfl, fun _ => rfl⟩
  obtain ⟨x, hx, h⟩ := Silently.write x₀ (helloMessage E (create isV4 dest)) .multicastSend dest
    false false
  obtain ⟨calls, hr⟩ := h.run
  refine ⟨x, ⟨x₀, calls, hfresh, hr⟩, hx, fun _ i hi => ?_⟩
  exact List.not_mem_nil (h.continued i hi)

theorem follows_of_reachable (hs : (machine E).Reachable s) :
    ∃ x, chainMachine.Reachable x ∧ Follows s x := by
  refine (hs.invariant (I := fun s => s.Inv ∧ ∃ x, chainMachine.Reachable x ∧ Follows s x)
    (fun s h => ⟨Inv.init h, follows_init h⟩) ?_).2
  rintro s l t ⟨hs, x, hx, h⟩ hst
  obtain ⟨y, hy⟩ := step_follows hs h hst
  obtain ⟨calls, hr⟩ := hy.run
  obtain ⟨x₀, calls₀, h₀, hr₀⟩ := hx
  exact ⟨hs.step hst, y, ⟨x₀, calls₀ ++ calls, h₀, Machine.run_append_eq_some.2 ⟨x, hr₀, hr⟩⟩,
    hy.follows⟩

/-! ### The Bye of a graceful stop -/

/-- Nothing but the chain `i` stops the server. -/
def Undisturbed (E : WsdEnv Ctx) (i : ℕ) (s : WsdServer Ctx) (l : Event) : Prop :=
  ofChain i l = none → s.state = .running → ∀ t, step E s l = some t → t.state = .running

/-- Where the Bye with the chain `i` is after the events `ls`. -/
structure Farewell (E : WsdEnv Ctx) (i : ℕ) (ls : List Event) (u : WsdServer Ctx) : Prop where
  started : u.state = .running ∨ u.state = .stopped
  /-- While the server runs, the chain goes on, and its seventh handler ends it. -/
  running : u.state = .running → (chainCodes i ls).length < 7 ∧ (u.raised = false →
    ∀ ec, (step E u (.udpSent i ec)).isSome ∨ (step E u (.udpTimer i ec)).isSome)
  stopped : u.state = .stopped → u.udp.sent.countP (fun d => d.chain = i) = 4 ∧
    u.responder.calls.count .udpStop = 1 ∧ u.responder.calls.count .httpStop = 1

variable {u : WsdServer Ctx} {ls : List Event}

/-- A run during which only the chain `i` can stop the server, which has a continuation. -/
theorem run_follows (ht : t.Inv) (hy : Follows t y) (hok : (machine E).Along (Undisturbed E i) t ls)
    (hr : (machine E).run t ls = some u)
    (hfatal : ∀ calls z, chainMachine.run y calls = some z → .fatal ∉ z.log i)
    (hstart : t.state = .running ∨ .continued ∈ y.log i) :
    ∃ z, (∃ calls, chainMachine.run y calls = some z) ∧ Follows u z ∧
      codes (z.log i) = codes (y.log i) ++ chainCodes i ls ∧
      (u.state = .running ∨ .continued ∈ z.log i) := by
  induction ls generalizing t y with
  | nil =>
    obtain rfl := Option.some.inj hr
    exact ⟨y, ⟨[], rfl⟩, hy, by simp [chainCodes], hstart⟩
  | cons l ls ih =>
    obtain ⟨t', hst, hr⟩ := Machine.run_cons_eq_some.1 hr
    obtain ⟨y', hy'⟩ := step_follows ht hy hst
    obtain ⟨calls, hcalls⟩ := hy'.run
    have hstart' : t'.state = .running ∨ .continued ∈ y'.log i := by
      obtain hrun | hcont := hstart
      · by_cases hrun' : t'.state = .running
        · exact .inl hrun'
        · -- the server was stopped by the chain, which does not call `onFatalUdpError`
          have hl : ofChain i l ≠ none := fun hl => hrun' (hok.1 hl hrun t' hst)
          exact .inr ((hy'.stops i hl hrun hrun').resolve_right (hfatal calls y' hcalls))
      · exact .inr (hy'.mono i hcont)
    obtain ⟨z, ⟨calls', hz⟩, hfollows, hcodes, hend⟩ := ih (ht.step hst) hy'.follows
      (hok.2 t' hst) hr (fun calls' z hz => hfatal (calls ++ calls') z
        (Machine.run_append_eq_some.2 ⟨y', hcalls, hz⟩)) hstart'
    refine ⟨z, ⟨calls ++ calls', Machine.run_append_eq_some.2 ⟨y', hcalls, hz⟩⟩, hfollows, ?_, hend⟩
    rw [hcodes, hy'.codes, List.append_assoc]
    cases hl : ofChain i l <;> simp [chainCodes, hl]

/-- A chain that has called its continuation without an error has been sent `copies` times. -/
theorem sent_of_continued {z : Logged Message} {copies : ℕ} {continuation : Bool}
    (h : Logged.Retransmits copies continuation z i) (hall : AllSuccess (z.log i))
    (hcont : .continued ∈ z.log i) : z.server.sent.countP (fun d => d.chain = i) = copies := by
  obtain ⟨pre, post, hlog⟩ := List.append_of_mem hcont
  have hlaw := h.lawful
  rw [hlog] at hlaw hall
  have hle := h.success_le
  have hhanded := h.handed_le
  rw [h.sent]
  obtain ⟨-, -, -, ⟨before, -, hcount⟩ | ⟨before, rfl, -⟩⟩ := hlaw.split
  · have hmore : pre.count (.completed .success) ≤ (z.log i).count (.completed .success) := by
      rw [hlog, List.count_append]
      omega
    omega
  · have := hall .other (by simp)
    cases this

/-- The logs after a graceful stop has started the chain of its Bye. -/
theorem follows_bye (hx : chainMachine.Reachable x) (hfollows : Follows s x)
    (hrun : s.state = .running) (hu : s.udpServer = true) :
    ∃ y, x.step (.write (byeMessage E s) .multicastSend s.udp.multicastDest false true) = some y ∧
      Follows (sendBye E s) y ∧ codes (y.log s.udp.chains.length) = [] := by
  have hnone : x.log x.server.chains.length = [] := (Logged.inv_of_reachable hx).none _ le_rfl
  refine ⟨_, rfl, ⟨?_, fun _ j hj => ?_⟩, ?_⟩
  · rw [sendBye_eq hu, hfollows.server]
    rfl
  · obtain hj | ⟨-, hj⟩ := mem_note.1 hj
    · exact hfollows.continued hrun j hj
    · simp at hj
  · dsimp only
    rw [← hfollows.server, Logged.note_self, hnone]
    rfl

theorem pending_of_retransmits {v : UdpServer Message} (hv : v = u.udp) (hraised : u.raised = false)
    {ec : ErrorCode} (h : (v.sendHandler i ec).isSome ∨ (v.timerHandler i ec).isSome) :
    (step E u (.udpSent i ec)).isSome ∨ (step E u (.udpTimer i ec)).isSome := by
  subst hv
  simpa [step, hraised] using h

/-- **A graceful stop** sends four Byes, and then it stops both servers, once. -/
theorem farewell (hs : (machine E).Reachable s) (hrun : s.state = .running)
    (hst : step E s (.stop true) = some t)
    (hok : (machine E).Along (Undisturbed E s.udp.chains.length) t ls)
    (hall : ∀ ec ∈ chainCodes s.udp.chains.length ls, ec = .success)
    (hr : (machine E).run t ls = some u) : Farewell E s.udp.chains.length ls u := by
  have hinv := inv_of_reachable hs
  have ht := hinv.step hst
  have hu := (Machine.run_invariant (M := machine E) (fun _ _ _ h hst => h.step hst) ht hr : u.Inv)
  obtain rfl : sendBye E s = t := by
    unfold step at hst
    split at hst
    · simp at hst
    · simpa only [stop, hrun, if_true, Option.some.injEq] using hst
  -- the Bye is a chain with four copies and a continuation
  obtain ⟨x, hx, hfollows⟩ := follows_of_reachable hs
  obtain ⟨y, hy, hfollows', hnil⟩ := follows_bye (E := E) hx hfollows hrun (hinv.pointers hrun).1
  have hretr : ∀ calls z, chainMachine.run y calls = some z →
      Logged.Retransmits 4 true z s.udp.chains.length := by
    intro calls z hz
    rw [← hfollows.server]
    exact Logged.retransmits_of_write hx hy hz
  have hfatal : ∀ calls z, chainMachine.run y calls = some z →
      .fatal ∉ z.log s.udp.chains.length := by
    intro calls z hz hmem
    obtain ⟨pre, post, hlog⟩ := List.append_of_mem hmem
    have hlaw := (hretr calls z hz).lawful
    rw [hlog] at hlaw
    exact absurd hlaw.split.1 (by decide)
  have hstart : (sendBye E s).state = .running := by
    rw [sendBye_eq (hinv.pointers hrun).1]
    exact hrun
  obtain ⟨z, ⟨calls, hz⟩, hfollowsz, hcodes, hend⟩ :=
    run_follows ht hfollows' hok hr hfatal (.inl hstart)
  rw [hnil, List.nil_append] at hcodes
  have hallz : AllSuccess (z.log s.udp.chains.length) := by
    rw [AllSuccess, hcodes]
    exact hall
  have hz := hretr calls z hz
  refine ⟨hu.started, fun hlive => ?_, fun hdown => ?_⟩
  · have hset : z.server.handler = true := by
      rw [hfollowsz.server]
      exact (hu.live hlive).1
    obtain ⟨hlen, -, hpend⟩ | ⟨-, -, hcont⟩ := hz.complete hset hallz
    · rw [hcodes] at hlen
      exact ⟨by omega, fun hraised ec =>
        pending_of_retransmits hfollowsz.server hraised (hpend ec)⟩
    · refine absurd ?_ (hfollowsz.continued hlive s.udp.chains.length)
      rw [← List.count_pos_iff, hcont]
      exact Nat.one_pos
  · have hcont : .continued ∈ z.log s.udp.chains.length := by
      refine hend.resolve_left fun hlive => ?_
      rw [hlive] at hdown
      cases hdown
    have hudp := hu.udpStops
    have hhttp := hu.httpStops
    rw [if_pos hdown] at hudp hhttp
    rw [← hfollowsz.server]
    exact ⟨sent_of_continued hz hallz hcont, hudp, hhttp⟩

/-- **The chains of retransmissions.**  Every call of `write` on a started server, whatever the
socket, and whatever happens afterwards: its datagram is handed to the socket at most as often as
the socket allows, its continuation is called at most once, after the last success or the first
error, `onFatalUdpError` is called at most once, for the first error and without a continuation,
and none of this after `stop`; if nothing fails and the server is not stopped, it comes to its end
with all transmissions and its continuation.  And so a graceful stop, if its Byes do not fail and
nothing else stops the server, sends four of them before it stops both servers once. -/
theorem retransmission_chain (E : WsdEnv Ctx) :
    (∀ (Msg : Type) (x y z : Logged Msg) (data : Msg) (sock : UdpSocket) (dest : Endpoint)
      (isUnicast continuation : Bool) (calls : List (ChainCall Msg)), chainMachine.Reachable x →
      x.step (.write data sock dest isUnicast continuation) = some y →
      chainMachine.run y calls = some z →
      Logged.Retransmits sock.repeatCount continuation z x.server.chains.length) ∧
    ∀ (s t u : WsdServer Ctx) (ls : List Event), (machine E).Reachable s → s.state = .running →
      step E s (.stop true) = some t →
      (machine E).Along (Undisturbed E s.udp.chains.length) t ls →
      (∀ ec ∈ chainCodes s.udp.chains.length ls, ec = .success) →
      (machine E).run t ls = some u → Farewell E s.udp.chains.length ls u :=
  ⟨fun _ _ _ _ _ _ _ _ _ _ hx hst hr => Logged.retransmits_of_write hx hst hr,
    fun _ _ _ _ hs hrun hst hok hall hr => farewell hs hrun hst hok hall hr⟩

/-- A UDP server that has been started. -/
def startedUdp : Logged ℕ where
  server := UdpServer.start { isV4 := true, multicastDest := (.v4 0xeffffffa, 3702) }

/-- It broadcasts something. -/
def broadcasting : Logged ℕ :=
  (startedUdp.step (.write 7 .multicastSend (.v4 0xeffffffa, 3702) false true)).get rfl

/-- All handlers of the chain. -/
def chainCalls : List (ChainCall ℕ) :=
  [.sent 0 .success, .timer 0 .success, .sent 0 .success, .timer 0 .success, .sent 0 .success,
   .timer 0 .success, .sent 0 .success]

/-- The server after them. -/
def afterChain : Logged ℕ :=
  (chainMachine.run broadcasting chainCalls).get (by decide +kernel)

theorem retransmission_chain_gracefulStop :
    Logged.Retransmits 4 true afterChain 0 ∧
      Farewell silentEnv 1 gracefulStop.tail afterGracefulStop := by
  have hfresh : startedUdp.Fresh := ⟨rfl, fun _ => rfl, rfl, rfl, fun _ => rfl⟩
  obtain ⟨t, hst, hr⟩ := Machine.run_cons_eq_some.1 run_gracefulStop
  refine ⟨(retransmission_chain silentEnv).1 ℕ startedUdp broadcasting afterChain 7 .multicastSend
    (.v4 0xeffffffa, 3702) false true chainCalls ⟨startedUdp, [], hfresh, rfl⟩ rfl
    (Option.some_get _).symm, ?_⟩
  refine (retransmission_chain silentEnv).2 silentServer t afterGracefulStop gracefulStop.tail
    ⟨silentServer, [], silentServer_init, rfl⟩ (by decide +kernel) hst ?_ (by decide +kernel) hr
  -- all events belong to the Bye
  refine Machine.along_of_forall (fun l hl _ hnone => ?_) t
  have : ∀ l ∈ gracefulStop.tail, ofChain 1 l ≠ none := by decide
  exact absurd hnone (this l hl)

end WsdServer

end Wsddn

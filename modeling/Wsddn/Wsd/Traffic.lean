import Mathlib.Algebra.BigOperators.Fin
import Mathlib.Algebra.Order.BigOperators.Group.Finset
import Wsddn.Machine.Law
import Wsddn.Wsd.Announce
import Wsddn.Wsd.Document
import Wsddn.Wsd.Duplicates

/-!
# The messages of a WSD server

Every message that a server makes is sent by a chain of its own, to one destination.

* `step_messages` : **the invariant rule for the messages of a server**: what its requests and its
  Byes preserve, its steps preserve.
* `message_numbers` : the number of a message is the number of its chain, so that it tells the
  messages of a server apart and puts them in the order in which they were first sent, until the
  `size_t` wraps around.
* `traffic` : what a server sends in answer to what it receives.
* `answered_once` : no request is answered twice as long as the server has met at most `50` ids.
-/

namespace Wsddn

/-! ### Requests -/

namespace Responder

variable {host : Host} {type : RequestType} {doc : Soap} {w w' : Responder}

/-- Whether a request is answered does not depend on what came before, unless it is a repetition. -/
theorem dispatch_fst (w w' : Responder) :
    (dispatch host type doc w).1 = (dispatch host type doc w').1 := by
  unfold dispatch handleProbe handleResolve handleGet
  dsimp only
  split <;> split_ifs <;> first
    | rfl
    | (split <;> (try split_ifs) <;> rfl)

/-- A request that is answered would be answered by a server that has not met any other. -/
theorem isSome_handleRequest (h : (w.handleRequest host type doc).1.isSome = true) :
    (Responder.handleRequest host type doc {}).1.isSome = true := by
  have hanswer : ∀ w' : Responder, (reply doc (dispatch host type doc w')).1.isSome =
      (dispatch host type doc w').1 := by
    intro w'
    have hp : Prepared host type w' (dispatch host type doc w') := dispatch_prepared
    obtain ⟨hr, he⟩ | ⟨m, hr, he, -⟩ := reply_eq doc hp
    · rw [he, hr]
      rfl
    · rw [he, hr]
      rfl
  rw [handleRequest_eq] at h ⊢
  split_ifs at h with hp
  · have hheader : doc.header = true := by
      simp only [processes, Bool.and_eq_true] at hp
      exact hp.1
    have hfresh : Responder.processes {} doc = true := by
      simp [processes, hheader, checkNewMessageId, maxKnownMessages]
    rw [if_pos hfresh, hanswer]
    rw [hanswer] at h
    rwa [dispatch_fst]
  · cases h
  · cases h

theorem reply_messageNumber (doc : Soap) (r : Bool × WSDResponseBuilder × Responder) :
    (reply doc r).2.messageNumber = r.2.2.messageNumber := by
  obtain ⟨handled, b, w⟩ := r
  cases handled with
  | false => rfl
  | true =>
    unfold reply
    dsimp only
    split <;> rfl

theorem handleRequest_http_messageNumber :
    (w.handleRequest host .http doc).2.messageNumber = w.messageNumber := by
  have hdispatch : ∀ w' : Responder, (dispatch host .http doc w').2.2 = w' := by
    intro w'
    simp only [dispatch, handleGet]
    split_ifs <;> rfl
  rw [handleRequest_eq]
  split_ifs
  · rw [reply_messageNumber, hdispatch, checkNewMessageId_messageNumber, call_messageNumber]
  · rw [checkNewMessageId_messageNumber, call_messageNumber]
  · rfl

end Responder

/-! ### The messages of the chains -/

/-- The elements of a list, by the class that they are in. -/
theorem length_eq_sum_countP {β : Type*} {l : List β} {f : β → ℕ} {n : ℕ} (h : ∀ b ∈ l, f b < n) :
    l.length = ∑ i : Fin n, l.countP fun b => f b = i := by
  induction l with
  | nil => simp
  | cons b l ih =>
    have hb : f b < n := h b List.mem_cons_self
    have hone : ∑ i : Fin n, (if f b = i then 1 else 0) = 1 := by
      rw [Finset.sum_eq_single (⟨f b, hb⟩ : Fin n)]
      · simp
      · intro i _ hi
        rw [if_neg]
        intro he
        exact hi (Fin.ext he.symm)
      · simp
    rw [List.length_cons, ih fun b' hb' => h b' (List.mem_cons_of_mem b hb')]
    simp only [List.countP_cons, decide_eq_true_eq, Finset.sum_add_distrib, hone]

namespace UdpServer

variable {Msg σ : Type*} {u u' : UdpServer Msg} {h h' : σ} {sock : UdpSocket} {ec : ErrorCode}
  {o : Outcome} {i : ℕ} {handleUdpRequest : σ → List UInt8 → Option Msg × σ}
  {received : List Received}

/-- What the chains send, and where to. -/
def messages (u : UdpServer Msg) : List (Msg × Endpoint) := u.chains.map fun c => (c.buffer, c.dest)

theorem messages_write (u : UdpServer Msg) (data : Msg) (sock : UdpSocket) (dest : Endpoint)
    (isUnicast continuation : Bool) :
    (u.write data sock dest isUnicast continuation).messages = u.messages ++ [(data, dest)] := by
  simp [messages, write]

theorem messages_setChain {c : Callback Msg} (c' : Callback Msg) (hc : u.chains[i]? = some c)
    (hbuf : c'.buffer = c.buffer) (hdest : c'.dest = c.dest) :
    (u.setChain i c').messages = u.messages := by
  obtain ⟨hlt, rfl⟩ := List.getElem?_eq_some_iff.1 hc
  refine List.ext_getElem? fun j => ?_
  simp only [messages, setChain, List.getElem?_map, List.getElem?_set]
  split_ifs with hij
  · subst hij
    simp [hlt, hbuf, hdest]
  · rfl

theorem messages_sendHandler (hr : u.sendHandler i ec = some (u', o)) :
    u'.messages = u.messages := by
  obtain ⟨c, hc, -, ⟨n, rfl, -⟩ | ⟨rfl, -⟩⟩ := sendHandler_cases hr
  · exact messages_setChain _ hc rfl rfl
  · exact messages_setChain _ hc rfl rfl

theorem messages_timerHandler (hr : u.timerHandler i ec = some u') : u'.messages = u.messages := by
  obtain ⟨c, hc, -, ⟨-, rfl⟩ | ⟨-, rfl⟩⟩ := timerHandler_cases hr
  · exact messages_setChain _ hc rfl rfl
  · exact messages_setChain { c with phase := .sending } hc rfl rfl

/-- **The invariant rule for the loop that reads a socket**, for what is known of the datagrams
that are received. -/
theorem readLoop_received {P : List (Msg × Endpoint) → σ → Prop}
    (hnone : ∀ ms h bytes sender onInterface h', .datagram bytes (some sender) onInterface ∈ received →
      P ms h → handleUdpRequest h bytes = (none, h') → P ms h')
    (hsome : ∀ ms h bytes sender onInterface m h',
      .datagram bytes (some sender) onInterface ∈ received → P ms h →
      handleUdpRequest h bytes = (some m, h') → P (ms ++ [(m, sender)]) h') :
    readLoop handleUdpRequest sock u h received = some (u', h', o) → P u.messages h →
      P u'.messages h' := by
  induction received generalizing u h with
  | nil => simp [readLoop]
  | cons r rs ih =>
    have hmem : ∀ {x}, x ∈ rs → x ∈ r :: rs := fun hx => List.mem_cons_of_mem r hx
    replace ih := fun {u h} => @ih u h
      (fun ms h bytes sender onInterface h' hx => hnone ms h bytes sender onInterface h' (hmem hx))
      (fun ms h bytes sender onInterface m h' hx =>
        hsome ms h bytes sender onInterface m h' (hmem hx))
    intro hr hP
    cases r with
    | interrupted => exact ih hr hP
    | wouldBlock =>
      simp only [readLoop, Option.some.injEq, Prod.mk.injEq] at hr
      obtain ⟨rfl, rfl, -⟩ := hr
      exact hP
    | failed =>
      simp only [readLoop, Option.some.injEq, Prod.mk.injEq] at hr
      obtain ⟨rfl, rfl, -⟩ := hr
      exact hP
    | datagram bytes sender onInterface =>
      cases sender with
      | none => exact ih hr hP
      | some sender =>
        rw [readLoop] at hr
        split_ifs at hr with hskip
        · exact ih hr hP
        · split at hr
          · rename_i h₁ hh
            exact ih hr (hnone _ _ _ _ _ _ List.mem_cons_self hP hh)
          · rename_i m h₁ hh
            refine ih hr ?_
            rw [messages_write]
            exact hsome _ _ _ _ _ _ _ List.mem_cons_self hP hh

/-- The datagrams are what the chains send, and a chain begins when those before it have begun. -/
structure Traced (u : UdpServer Msg) : Prop where
  origin : ∀ d ∈ u.sent, u.messages[d.chain]? = some (d.buffer, d.dest)
  order : Lawful (fun pre d => ∀ j < d.chain, ∃ d' ∈ pre, d'.chain = j) u.sent
  begun : ∀ j < u.messages.length, ∃ d ∈ u.sent, d.chain = j

namespace Traced

theorem congr (hu : u.Traced) (hm : u'.messages = u.messages) (hs : u'.sent = u.sent) :
    u'.Traced := by
  obtain ⟨horigin, horder, hbegun⟩ := hu
  refine ⟨?_, hs ▸ horder, ?_⟩
  · rw [hm, hs]
    exact horigin
  · rw [hm, hs]
    exact hbegun

theorem write (hu : u.Traced) (data : Msg) (sock : UdpSocket) (dest : Endpoint)
    (isUnicast continuation : Bool) : (u.write data sock dest isUnicast continuation).Traced := by
  have hlen : u.messages.length = u.chains.length := List.length_map _
  have hsent : (u.write data sock dest isUnicast continuation).sent =
      u.sent ++ [⟨u.chains.length, sock, data, dest⟩] := rfl
  refine ⟨fun d hd => ?_, ?_, fun j hj => ?_⟩
  · rw [messages_write]
    rw [hsent] at hd
    obtain hd | hd := List.mem_append.1 hd
    · rw [List.getElem?_append_left (List.getElem?_eq_some_iff.1 (hu.origin d hd)).1]
      exact hu.origin d hd
    · obtain rfl := List.mem_singleton.1 hd
      simp [← hlen]
  · rw [hsent]
    exact lawful_concat.2 ⟨hu.order, fun j hj => hu.begun j (hlen ▸ hj)⟩
  · rw [messages_write, List.length_append, List.length_singleton] at hj
    rw [hsent]
    by_cases hlt : j < u.messages.length
    · obtain ⟨d, hd, hdj⟩ := hu.begun j hlt
      exact ⟨d, List.mem_append_left _ hd, hdj⟩
    · refine ⟨_, List.mem_append_right _ (List.mem_singleton_self _), ?_⟩
      show u.chains.length = j
      omega

theorem sendHandler (hu : u.Traced) (hr : u.sendHandler i ec = some (u', o)) : u'.Traced := by
  refine hu.congr (messages_sendHandler hr) ?_
  obtain ⟨c, -, -, ⟨n, rfl, -⟩ | ⟨rfl, -⟩⟩ := sendHandler_cases hr
  · rfl
  · rfl

/-- A retransmission is a copy. -/
theorem timerHandler (hu : u.Traced) (hr : u.timerHandler i ec = some u') : u'.Traced := by
  have hm := messages_timerHandler hr
  obtain ⟨c, hc, -, ⟨-, rfl⟩ | ⟨-, rfl⟩⟩ := timerHandler_cases hr
  · exact hu.congr hm rfl
  · have hi : u.messages[i]? = some (c.buffer, c.dest) := by
      rw [messages, List.getElem?_map, hc, Option.map_some]
    refine ⟨fun d hd => ?_, ?_, fun j hj => ?_⟩
    · rw [hm]
      obtain hd | hd := List.mem_append.1 hd
      · exact hu.origin d hd
      · rw [List.mem_singleton.1 hd]
        exact hi
    · refine lawful_concat.2 ⟨hu.order, fun j hj => hu.begun j ?_⟩
      exact Nat.lt_trans hj (List.getElem?_eq_some_iff.1 hi).1
    · rw [hm] at hj
      obtain ⟨d, hd, hdj⟩ := hu.begun j hj
      exact ⟨d, List.mem_append_left _ hd, hdj⟩

theorem readHandler (hu : u.Traced)
    (hr : readHandler handleUdpRequest u h sock ec received = some (u', h', o)) : u'.Traced := by
  obtain ⟨rfl, -⟩ | ⟨-, hloop⟩ := readHandler_cases hr
  · exact hu.congr rfl rfl
  · refine (readLoop_invariant (P := fun u _ => u.Traced) (fun _ _ _ _ hP _ => hP) ?_
      (fun _ _ hP => hP.congr rfl rfl) hloop (hu.congr rfl rfl)).1
    intro u'' w bytes m w' sender hP _
    exact hP.write _ _ _ _ _

end Traced

/-- How many datagrams the chains may send. -/
def allowance (u : UdpServer Msg) : ℕ := (u.chains.map fun c => c.socket.repeatCount).sum

theorem WellSent.length_sent_le (hu : u.WellSent) : u.sent.length ≤ u.allowance := by
  have hlt : ∀ d ∈ u.sent, d.chain < (u.chains.map fun c => c.socket.repeatCount).length := by
    intro d hd
    obtain ⟨c, hc, -⟩ := hu.origin d hd
    rw [List.length_map]
    exact (List.getElem?_eq_some_iff.1 hc).1
  rw [length_eq_sum_countP hlt, allowance, ← Fin.sum_univ_getElem]
  refine Finset.sum_le_sum fun i _ => ?_
  have hi : (i : ℕ) < u.chains.length := by simpa using i.2
  have hbudget := hu.budget i _ (List.getElem?_eq_getElem hi)
  simp only [List.getElem_map]
  omega

@[simp] theorem allowance_write (u : UdpServer Msg) (data : Msg) (sock : UdpSocket) (dest : Endpoint)
    (isUnicast continuation : Bool) :
    (u.write data sock dest isUnicast continuation).allowance =
      u.allowance + sock.repeatCount := by
  simp [allowance, write]

theorem allowance_setChain {c : Callback Msg} (c' : Callback Msg) (hc : u.chains[i]? = some c)
    (hsock : c'.socket = c.socket) : (u.setChain i c').allowance = u.allowance := by
  obtain ⟨hlt, rfl⟩ := List.getElem?_eq_some_iff.1 hc
  simp only [allowance, setChain, List.map_set, hsock]
  rw [← List.getElem_map (f := fun c : Callback Msg => c.socket.repeatCount) (h := by simpa using hlt),
    List.set_getElem_self]

theorem allowance_sendHandler (hr : u.sendHandler i ec = some (u', o)) :
    u'.allowance = u.allowance := by
  obtain ⟨c, hc, -, ⟨n, rfl, -⟩ | ⟨rfl, -⟩⟩ := sendHandler_cases hr
  · exact allowance_setChain _ hc rfl
  · exact allowance_setChain _ hc rfl

theorem allowance_timerHandler (hr : u.timerHandler i ec = some u') :
    u'.allowance = u.allowance := by
  obtain ⟨c, hc, -, ⟨-, rfl⟩ | ⟨-, rfl⟩⟩ := timerHandler_cases hr
  · exact allowance_setChain _ hc rfl
  · exact allowance_setChain { c with phase := .sending } hc rfl

end UdpServer

namespace WsdServer

variable {Ctx : Type*} {E : WsdEnv Ctx} {s t s₀ : WsdServer Ctx} {l : Event} {ls : List Event}

/-- What a property of the messages and of the responder has to be preserved by: everything that
happens to the two, where only datagrams for which `Arrived` holds are received. -/
structure Upholds (E : WsdEnv Ctx) (Arrived : List UInt8 → Endpoint → Prop)
    (P : List (Message × Endpoint) → Responder → Prop) : Prop where
  call : ∀ {ms w} (c : Call), P ms w → P ms (w.call c)
  bye : ∀ {ms} {s : WsdServer Ctx} (dest : Endpoint), P ms s.responder →
    P (ms ++ [(byeMessage E s, dest)]) (s.responder.nextMessage E.host)
  refused : ∀ {ms w bytes sender w'}, Arrived bytes sender → P ms w →
    handleUdpRequest E w bytes = (none, w') → P ms w'
  answered : ∀ {ms w bytes sender m w'}, Arrived bytes sender → P ms w →
    handleUdpRequest E w bytes = (some m, w') → P (ms ++ [(m, sender)]) w'
  http : ∀ {ms w} (doc : Soap), P ms w → P ms (w.handleRequest E.host .http doc).2

/-- The datagrams that are received in an event. -/
def Event.received : Event → List Received
  | .udpRead _ _ received => received
  | _ => []

variable {Arrived : List UInt8 → Endpoint → Prop} {P : List (Message × Endpoint) → Responder → Prop}

theorem Upholds.tearDown (hP : Upholds E Arrived P) (h : P s.udp.messages s.responder) :
    P s.tearDown.udp.messages s.tearDown.responder := by
  have hchains : s.tearDown.udp.messages = s.udp.messages := by
    rw [UdpServer.messages, UdpServer.messages, (tearDown_udp s).1]
  rw [hchains]
  -- the calls of `tearDown` are recorded
  unfold WsdServer.tearDown httpStop udpStop withHttp withUdp
  split_ifs
  · exact hP.call _ (hP.call _ h)
  · exact hP.call _ (hP.call _ (hP.call _ h))
  · exact hP.call _ (hP.call _ (hP.call _ h))
  · exact hP.call _ (hP.call _ (hP.call _ (hP.call _ h)))

theorem Upholds.finish (hP : Upholds E Arrived P) (h : P s.udp.messages s.responder)
    (o : Outcome) : P (finish E s o).udp.messages (finish E s o).responder := by
  have hstop : P (stop E s false).udp.messages (stop E s false).responder := by
    unfold stop
    split
    · exact hP.call _ h
    · exact hP.tearDown h
    · exact h
  cases o with
  | returned => exact h
  | fatal => exact hstop
  | continuation => exact hstop
  | raised => exact h

/-- **The invariant rule for the messages of a server.** -/
theorem step_messages (hP : Upholds E Arrived P) (hs : s.Inv)
    (harr : ∀ bytes sender onInterface, .datagram bytes (some sender) onInterface ∈ l.received →
      Arrived bytes sender)
    (hst : step E s l = some t) (h : P s.udp.messages s.responder) :
    P t.udp.messages t.responder := by
  unfold step at hst
  split at hst
  · simp at hst
  · cases l with
    | stop graceful =>
      obtain rfl := Option.some.inj hst
      cases graceful with
      | false => exact hP.finish h .fatal
      | true =>
        unfold stop
        split
        · exact hP.call _ h
        · rename_i hrun
          rw [if_pos rfl, sendBye_eq (hs.pointers hrun).1]
          dsimp only
          rw [UdpServer.broadcast, UdpServer.messages_write]
          exact hP.bye _ h
        · exact h
    | udpRead sock ec received =>
      obtain ⟨⟨u, w, o⟩, hr, rfl⟩ := Option.map_eq_some_iff.1 hst
      refine hP.finish ?_ o
      obtain ⟨rfl, rfl, -⟩ | ⟨-, hloop⟩ := UdpServer.readHandler_cases hr
      · exact h
      · refine UdpServer.readLoop_received ?_ ?_ hloop h
        · intro ms w' bytes sender onInterface w'' hmem hPw hh
          exact hP.refused (harr _ _ _ hmem) hPw hh
        · intro ms w' bytes sender onInterface m w'' hmem hPw hh
          exact hP.answered (harr _ _ _ hmem) hPw hh
    | udpSent i ec =>
      obtain ⟨⟨u, o⟩, hr, rfl⟩ := Option.map_eq_some_iff.1 hst
      refine hP.finish ?_ o
      dsimp only
      rwa [UdpServer.messages_sendHandler hr]
    | udpTimer i ec =>
      obtain ⟨u, hr, rfl⟩ := Option.map_eq_some_iff.1 hst
      dsimp only
      rwa [UdpServer.messages_timerHandler hr]
    | httpAccept ec a listenOk =>
      obtain ⟨⟨http, o⟩, -, rfl⟩ := Option.map_eq_some_iff.1 hst
      exact hP.finish (s := { s with http := http }) h o
    | httpTimer ec =>
      obtain ⟨http, -, rfl⟩ := Option.map_eq_some_iff.1 hst
      exact h
    | httpGC k now =>
      obtain ⟨⟨http, o⟩, -, rfl⟩ := Option.map_eq_some_iff.1 hst
      exact hP.finish (s := { s with http := http }) h o
    | httpRead id ec bytes =>
      obtain ⟨⟨http, w⟩, hr, rfl⟩ := Option.map_eq_some_iff.1 hst
      exact (HttpServer.readHandler_keeps (P := fun w => P s.udp.messages w)
        (fun w doc hw => hP.http doc hw) h hr).2
    | httpWrite id ec =>
      obtain ⟨http, -, rfl⟩ := Option.map_eq_some_iff.1 hst
      exact h

/-- The first message of a server, and its responder. -/
theorem init_messages (h₀ : (machine E).init s₀) : ∃ dest,
    s₀.udp.messages = [(helloMessage E (create s₀.udp.isV4 s₀.udp.multicastDest), dest)] ∧
      s₀.responder = Responder.nextMessage E.host {} := by
  obtain ⟨isV4, dest, h⟩ := h₀
  rw [start_create] at h
  obtain ⟨rfl, -⟩ := Prod.mk.inj h
  exact ⟨dest, rfl, rfl⟩

/-! ### Message numbers -/

/-- Every message has the number of its chain, as far as a `size_t` can hold it, and the action of
its body. -/
structure Numbered (E : WsdEnv Ctx) (ms : List (Message × Endpoint)) (w : Responder) : Prop where
  number : ∀ (i : ℕ) (p : Message × Endpoint), ms[i]? = some p →
    p.1.appSequence = some ⟨E.host.instanceIdentifier, i % 2 ^ E.host.sizeBits⟩
  next : w.messageNumber = ms.length % 2 ^ E.host.sizeBits
  titled : ∀ p ∈ ms, p.1.Titled

namespace Numbered

variable {ms : List (Message × Endpoint)} {w w' : Responder}

theorem congr (h : Numbered E ms w) (hw : w'.messageNumber = w.messageNumber) :
    Numbered E ms w' := ⟨h.number, hw.trans h.next, h.titled⟩

theorem concat (h : Numbered E ms w) {m : Message} {dest : Endpoint}
    (hm : m.appSequence = some (w.appSequence E.host)) (ht : m.Titled)
    (hw : w'.messageNumber = (w.nextMessage E.host).messageNumber) :
    Numbered E (ms ++ [(m, dest)]) w' := by
  refine ⟨fun i p hp => ?_, ?_, fun p hp => ?_⟩
  · rw [List.getElem?_append] at hp
    split_ifs at hp with hlt
    · exact h.number i p hp
    · rw [List.getElem?_singleton] at hp
      split_ifs at hp with hi
      · obtain rfl := Option.some.inj hp
        obtain rfl : i = ms.length := by omega
        rw [hm, Responder.appSequence, h.next]
  · rw [hw, Responder.nextMessage, h.next, List.length_append, List.length_singleton, Nat.mod_add_mod]
  · obtain hp | hp := List.mem_append.1 hp
    · exact h.titled p hp
    · rw [List.mem_singleton.1 hp]
      exact ht

end Numbered

theorem titled_byeMessage : (byeMessage E s).Titled := by
  simp [Message.Titled, byeMessage, Body.uri, Body.method, SysString.ofLiteral]

theorem titled_helloMessage : (helloMessage E s).Titled := by
  simp [Message.Titled, helloMessage, Body.uri, Body.method, SysString.ofLiteral]

/-- What a request is answered with, and what it leaves of the responder. -/
theorem handleUdpRequest_cases (w : Responder) (bytes : List UInt8) :
    (handleUdpRequest E w bytes = (none, w) ∧ E.readMemory bytes = none) ∨
    ∃ doc, E.readMemory bytes = some doc ∧
      handleUdpRequest E w bytes = w.handleRequest E.host .udp doc := by
  unfold handleUdpRequest
  cases E.readMemory bytes with
  | none => exact .inl ⟨rfl, rfl⟩
  | some doc => exact .inr ⟨doc, rfl, rfl⟩

theorem upholds_numbered (Arrived : List UInt8 → Endpoint → Prop) :
    Upholds E Arrived (Numbered E) where
  call _ h := h.congr rfl
  bye _ h := h.concat rfl titled_byeMessage rfl
  refused := by
    intro ms w bytes sender w' _ h hh
    obtain ⟨he, -⟩ | ⟨doc, -, he⟩ := handleUdpRequest_cases (E := E) w bytes
    · rw [he] at hh
      exact (Prod.mk.inj hh).2 ▸ h
    · rw [he] at hh
      obtain ⟨-, hnum⟩ | ⟨m, hm, -⟩ := Responder.handleRequest_udp E.host doc w
      · rw [hh] at hnum
        exact h.congr hnum
      · rw [hh] at hm
        cases hm
  answered := by
    intro ms w bytes sender m w' _ h hh
    obtain ⟨he, -⟩ | ⟨doc, -, he⟩ := handleUdpRequest_cases (E := E) w bytes
    · rw [he] at hh
      cases (Prod.mk.inj hh).1
    · rw [he] at hh
      obtain ⟨hnone, -⟩ | ⟨m', hm', -, hseq, hnum⟩ := Responder.handleRequest_udp E.host doc w
      · rw [hh] at hnone
        cases hnone
      · have ht := (Responder.handleRequest_answers (w := w) (m := m) (by rw [hh])).2.2.2.2
        rw [hh] at hm' hnum
        obtain rfl := Option.some.inj hm'
        exact h.concat hseq ht hnum
  http _ h := h.congr Responder.handleRequest_http_messageNumber

theorem traced_step (hs : s.Inv) (h : s.udp.Traced) (hst : step E s l = some t) :
    t.udp.Traced := by
  have of_same : ∀ {u : UdpServer Message}, SameChains t u → u.Traced → t.udp.Traced := by
    intro u hsame hu
    refine hu.congr ?_ hsame.2
    rw [UdpServer.messages, UdpServer.messages, hsame.1]
  cases step_udp hs hst with
  | none hsame => exact of_same hsame h
  | bye _ hsame => exact of_same hsame (h.write _ _ _ _ _)
  | read hr hsame => exact of_same hsame (h.readHandler hr)
  | sent hr hsame => exact of_same hsame (h.sendHandler hr)
  | timer hr hsame => exact of_same hsame (h.timerHandler hr)

/-- What is known of the messages of a server that has been started. -/
structure Ordered (E : WsdEnv Ctx) (s : WsdServer Ctx) : Prop where
  inv : s.Inv
  numbered : Numbered E s.udp.messages s.responder
  traced : s.udp.Traced

theorem Ordered.init (h₀ : (machine E).init s₀) : Ordered E s₀ := by
  refine ⟨.init h₀, ?_, ?_⟩
  · obtain ⟨dest, hms, hw⟩ := init_messages h₀
    rw [hms, hw]
    have hnil : Numbered E [] ({} : Responder) := ⟨by simp, (Nat.zero_mod _).symm, by simp⟩
    exact hnil.concat rfl titled_helloMessage rfl
  · obtain ⟨isV4, dest, h⟩ := h₀
    rw [start_create] at h
    obtain ⟨rfl, -⟩ := Prod.mk.inj h
    have hempty : (UdpServer.start { isV4, multicastDest := dest } : UdpServer Message).Traced :=
      ⟨by simp [UdpServer.start], lawful_nil, by simp [UdpServer.messages, UdpServer.start,
        UdpServer.read]⟩
    exact hempty.write _ _ _ _ _

theorem Ordered.step (h : Ordered E s) (hst : WsdServer.step E s l = some t) : Ordered E t :=
  ⟨h.inv.step hst,
    step_messages (upholds_numbered fun _ _ => True) h.inv (fun _ _ _ _ => trivial) hst h.numbered,
    traced_step h.inv h.traced hst⟩

theorem ordered_of_reachable (h : (machine E).Reachable s) : Ordered E s :=
  h.invariant (fun _ => .init) fun _ _ _ hs hst => hs.step hst

/-- The number of a datagram is that of its chain. -/
theorem Ordered.appSequence (h : Ordered E s) {d : Sent Message} (hd : d ∈ s.udp.sent) :
    d.buffer.appSequence = some ⟨E.host.instanceIdentifier, d.chain % 2 ^ E.host.sizeBits⟩ :=
  h.numbered.number _ _ (h.traced.origin d hd)

theorem Ordered.chain_lt (h : Ordered E s) {d : Sent Message} (hd : d ∈ s.udp.sent) :
    d.chain < s.udp.messages.length :=
  (List.getElem?_eq_some_iff.1 (h.traced.origin d hd)).1

/-- **Message numbers.**  The `k`-th message that a server makes, and with it every datagram that
is a copy of it, has the number `k`, counted in a `size_t`.  As long as this has not wrapped around,
two datagrams with the same number are the same message to the same destination, and when a message
is sent for the first time its number is greater than that of every datagram before it. -/
theorem message_numbers (h : (machine E).Reachable s) :
    (∀ d ∈ s.udp.sent, s.udp.messages[d.chain]? = some (d.buffer, d.dest) ∧
      d.buffer.appSequence =
        some ⟨E.host.instanceIdentifier, d.chain % 2 ^ E.host.sizeBits⟩) ∧
    (s.udp.messages.length ≤ 2 ^ E.host.sizeBits →
      (∀ d ∈ s.udp.sent, ∀ d' ∈ s.udp.sent, d.buffer.appSequence = d'.buffer.appSequence →
        d.buffer = d'.buffer ∧ d.dest = d'.dest) ∧
      ∀ pre d post n, s.udp.sent = pre ++ d :: post →
        d.buffer.appSequence = some ⟨E.host.instanceIdentifier, n⟩ →
        (∀ d' ∈ pre, d'.buffer.appSequence ≠ d.buffer.appSequence) →
        ∀ d' ∈ pre, ∃ k < n, d'.buffer.appSequence = some ⟨E.host.instanceIdentifier, k⟩) := by
  have hord := ordered_of_reachable h
  refine ⟨fun d hd => ⟨hord.traced.origin d hd, hord.appSequence hd⟩, fun hfew => ?_⟩
  -- the numbers are the chains themselves
  have hseq : ∀ {d}, d ∈ s.udp.sent →
      d.buffer.appSequence = some ⟨E.host.instanceIdentifier, d.chain⟩ := by
    intro d hd
    rw [hord.appSequence hd, Nat.mod_eq_of_lt (Nat.lt_of_lt_of_le (hord.chain_lt hd) hfew)]
  refine ⟨fun d hd d' hd' heq => ?_, ?_⟩
  · rw [hseq hd, hseq hd', Option.some.injEq, AppSequence.mk.injEq] at heq
    have horigin := hord.traced.origin d hd
    rw [heq.2, hord.traced.origin d' hd', Option.some.injEq, Prod.mk.injEq] at horigin
    exact ⟨horigin.1.symm, horigin.2.symm⟩
  · intro pre d post n he hn hfirst d' hd'
    have hmem : ∀ {x}, x ∈ pre → x ∈ s.udp.sent := fun hx => he ▸ List.mem_append_left _ hx
    have hd := hseq (d := d) (he ▸ by simp)
    obtain rfl : d.chain = n := by
      rw [hn, Option.some.injEq, AppSequence.mk.injEq] at hd
      exact hd.2.symm
    refine ⟨d'.chain, ?_, hseq (hmem hd')⟩
    by_contra hge
    -- a chain before `d'`, or `d'` itself, would have sent the message already
    have hrep : ∃ d'' ∈ pre, d''.chain = d.chain := by
      obtain hlt | heq := Nat.lt_or_eq_of_le (Nat.not_lt.1 hge)
      · obtain ⟨a, b, rfl⟩ := List.append_of_mem hd'
        have hlaw := hord.traced.order a d' (b ++ d :: post) (by rw [he]; simp)
        obtain ⟨d'', hd'', hchain⟩ := hlaw d.chain hlt
        exact ⟨d'', List.mem_append_left _ hd'', hchain⟩
      · exact ⟨d', hd', heq.symm⟩
    obtain ⟨d'', hd'', hchain⟩ := hrep
    refine hfirst d'' hd'' ?_
    rw [hd, hseq (hmem hd''), hchain]

/-- The Hello and four times the Bye. -/
theorem message_numbers_afterGracefulStop : afterGracefulStop.udp.sent.length = 5 ∧
    ∀ d ∈ afterGracefulStop.udp.sent, ∀ d' ∈ afterGracefulStop.udp.sent,
      d.buffer.appSequence = d'.buffer.appSequence → d.buffer = d'.buffer ∧ d.dest = d'.dest :=
  ⟨by decide +kernel,
    ((message_numbers ⟨silentServer, gracefulStop, silentServer_init, run_gracefulStop⟩).2
      (by decide +kernel)).1⟩

/-! ### How much is sent -/

/-- A datagram that a server which has not met any other would answer. -/
def isRequest (E : WsdEnv Ctx) : Received → Bool
  | .datagram bytes (some _) _ => (handleUdpRequest E {} bytes).1.isSome
  | _ => false

theorem isRequest_of_answered {w w' : Responder} {bytes : List UInt8} {m : Message}
    {sender : Endpoint} {onInterface : Bool} (h : handleUdpRequest E w bytes = (some m, w')) :
    isRequest E (.datagram bytes (some sender) onInterface) = true := by
  show (handleUdpRequest E {} bytes).1.isSome = true
  obtain ⟨he, -⟩ | ⟨doc, hdoc, he⟩ := handleUdpRequest_cases (E := E) w bytes
  · rw [he] at h
    cases (Prod.mk.inj h).1
  · rw [he] at h
    rw [handleUdpRequest, hdoc]
    exact Responder.isSome_handleRequest (w := w) (by rw [h]; rfl)

theorem readLoop_allowance {u u' : UdpServer Message} {w w' : Responder} {sock : UdpSocket}
    {received : List Received} {o : Outcome}
    (hr : UdpServer.readLoop (handleUdpRequest E) sock u w received = some (u', w', o)) :
    u'.allowance ≤ u.allowance + 2 * received.countP (isRequest E) := by
  induction received generalizing u w with
  | nil => simp [UdpServer.readLoop] at hr
  | cons r rs ih =>
    rw [List.countP_cons]
    cases r with
    | interrupted =>
      have := ih hr
      omega
    | wouldBlock =>
      simp only [UdpServer.readLoop, Option.some.injEq, Prod.mk.injEq] at hr
      obtain ⟨rfl, -⟩ := hr
      exact Nat.le_add_right _ _
    | failed =>
      simp only [UdpServer.readLoop, Option.some.injEq, Prod.mk.injEq] at hr
      obtain ⟨rfl, -⟩ := hr
      exact Nat.le_add_right _ _
    | datagram bytes sender onInterface =>
      cases sender with
      | none =>
        have := ih hr
        omega
      | some sender =>
        rw [UdpServer.readLoop] at hr
        split_ifs at hr with hskip
        · have := ih hr
          omega
        · split at hr
          · have := ih hr
            omega
          · rename_i m w₁ hh
            have := ih hr
            have hcopies : UdpSocket.unicastSend.repeatCount = 2 := rfl
            rw [UdpServer.allowance_write, hcopies] at this
            rw [if_pos (isRequest_of_answered hh)]
            omega

/-- A graceful stop of a running server, which makes it say its Bye. -/
def Event.isGraceful : Event → Bool
  | .stop graceful => graceful
  | _ => false

theorem step_allowance (hs : s.Inv) (hst : step E s l = some t) :
    t.udp.allowance ≤ s.udp.allowance + (4 * [l].countP Event.isGraceful +
      2 * l.received.countP (isRequest E)) := by
  have of_same : ∀ {u : UdpServer Message}, SameChains t u → t.udp.allowance = u.allowance := by
    intro u hsame
    rw [UdpServer.allowance, UdpServer.allowance, hsame.1]
  cases step_udp hs hst with
  | none h =>
    rw [of_same h]
    exact Nat.le_add_right _ _
  | bye _ h =>
    rw [of_same h, UdpServer.broadcast, UdpServer.allowance_write]
    simp [UdpSocket.repeatCount, Event.isGraceful]
  | @read sock ec received u w o hr h =>
    rw [of_same h]
    obtain ⟨rfl, -⟩ | ⟨-, hloop⟩ := UdpServer.readHandler_cases hr
    · exact Nat.le_add_right _ _
    · have hle := readLoop_allowance hloop
      exact Nat.le_trans hle (Nat.add_le_add_left (Nat.le_add_left _ _) _)
  | sent hr h =>
    rw [of_same h, UdpServer.allowance_sendHandler hr]
    exact Nat.le_add_right _ _
  | timer hr h =>
    rw [of_same h, UdpServer.allowance_timerHandler hr]
    exact Nat.le_add_right _ _

theorem allowance_of_run (h₀ : (machine E).init s₀) (hr : (machine E).run s₀ ls = some t) :
    t.udp.allowance ≤ 4 * (1 + ls.countP Event.isGraceful) +
      2 * (ls.flatMap Event.received).countP (isRequest E) := by
  induction ls using List.reverseRecOn generalizing t with
  | nil =>
    rw [Machine.run_nil, Option.some.injEq] at hr
    subst hr
    obtain ⟨isV4, dest, h⟩ := h₀
    rw [start_create] at h
    obtain ⟨rfl, -⟩ := Prod.mk.inj h
    simp [UdpServer.allowance, UdpServer.broadcast, UdpServer.write, UdpServer.start,
      UdpServer.read, UdpSocket.repeatCount]
  | append_singleton ls l ih =>
    obtain ⟨s, hrs, hst⟩ := Machine.run_concat_eq_some.1 hr
    have hs := ih hrs
    have hstep := step_allowance ((Started.init h₀).run hrs).inv hst
    rw [List.countP_append, List.flatMap_append, List.countP_append, List.flatMap_singleton]
    omega

/-- **What a server sends**: its Hello and its Byes four times each at most, and twice at most for
each request that it receives.  Everything else that it is sent makes it send nothing. -/
theorem traffic (h₀ : (machine E).init s₀) (hr : (machine E).run s₀ ls = some t) :
    t.udp.sent.length ≤ 4 * (1 + ls.countP Event.isGraceful) +
      2 * (ls.flatMap Event.received).countP (isRequest E) :=
  Nat.le_trans ((Started.init h₀).run hr).announces.wellSent.length_sent_le
    (allowance_of_run h₀ hr)

/-- A server of `probedEnv` that has just been started. -/
def probedServer : WsdServer Unit :=
  (start probedEnv (create true (.v4 0xeffffffa, 3702)) true).1

/-- The same probe twice. -/
def repeatedProbe : List Event :=
  [.udpRead .recv .success [.datagram [] (some (.v4 0x7f000002, 3702)) true,
    .datagram [] (some (.v4 0x7f000002, 3702)) true, .wouldBlock]]

/-- The server after that. -/
def afterRepeatedProbe : WsdServer Unit :=
  ((machine probedEnv).run probedServer repeatedProbe).get (by decide +kernel)

theorem run_repeatedProbe :
    (machine probedEnv).run probedServer repeatedProbe = some afterRepeatedProbe :=
  (Option.some_get _).symm

theorem probedServer_init : (machine probedEnv).init probedServer :=
  ⟨true, (.v4 0xeffffffa, 3702), rfl⟩

/-! ### Repeated requests -/

/-- The calls of `handleRequest`. -/
def isHandleRequest : Call → Bool
  | .handleRequest _ => true
  | _ => false

/-- How many requests a server has handled. -/
def handledRequests (w : Responder) : ℕ := w.calls.countP isHandleRequest

/-- The requests that some messages answer. -/
def answeredIds (ms : List (Message × Endpoint)) : List (Option SysString) :=
  (ms.filter fun p => p.1.body.isMatch).map fun p => p.1.relatesTo

/-- The server has accepted the ids `ids`, the newest in front, after those of `before`; the
messages after the first `n` answer some of `ids`, in their order. -/
structure Accepted (before : List SysString) (n handled : ℕ) (ids : List SysString)
    (ms : List (Message × Endpoint)) (w : Responder) : Prop where
  window : w.Window (ids ++ before)
  inside : n ≤ ms.length
  answers : (answeredIds (ms.drop n)).reverse.Sublist (ids.map some)
  handled : handled + ids.length ≤ handledRequests w

section Accepted

variable {before ids : List SysString} {n handled : ℕ} {ms : List (Message × Endpoint)}
  {w w' : Responder}

theorem answeredIds_append (ms ms' : List (Message × Endpoint)) :
    answeredIds (ms ++ ms') = answeredIds ms ++ answeredIds ms' := by
  simp [answeredIds]

/-- A request that is no answer yet: its id may be accepted. -/
theorem Accepted.handleRequest (h : Accepted before n handled ids ms w) (type : RequestType)
    (doc : Soap) : Accepted before n handled (if w.processes doc then doc.messageId :: ids else ids)
      ms (w.handleRequest E.host type doc).2 := by
  have hwindow := h.window.handleRequest E.host type doc
  have hcalls : handledRequests (w.handleRequest E.host type doc).2 = handledRequests w + 1 := by
    rw [handledRequests, Responder.handleRequest_calls, List.countP_append]
    rfl
  split_ifs at hwindow ⊢ with hp
  · refine ⟨hwindow, h.inside, h.answers.cons _, ?_⟩
    rw [hcalls, List.length_cons]
    have := h.handled
    omega
  · exact ⟨hwindow, h.inside, h.answers, hcalls ▸ Nat.le_succ_of_le h.handled⟩

theorem upholds_accepted (before : List SysString) (n handled : ℕ)
    (Arrived : List UInt8 → Endpoint → Prop) :
    Upholds E Arrived fun ms w => ∃ ids, Accepted before n handled ids ms w where
  call := by
    rintro ms w c ⟨ids, h⟩
    refine ⟨ids, h.window.of_eq rfl rfl, h.inside, h.answers, Nat.le_trans h.handled ?_⟩
    rw [handledRequests, handledRequests, Responder.call_calls, List.countP_append]
    exact Nat.le_add_right _ _
  bye := by
    rintro ms s dest ⟨ids, h⟩
    refine ⟨ids, h.window.of_eq rfl rfl, ?_, ?_, h.handled⟩
    · rw [List.length_append]
      exact Nat.le_add_right_of_le h.inside
    · have hnone : answeredIds [(byeMessage E s, dest)] = [] := rfl
      rw [List.drop_append_of_le_length h.inside, answeredIds_append, hnone, List.append_nil]
      exact h.answers
  refused := by
    rintro ms w bytes sender w' - ⟨ids, h⟩ hh
    obtain ⟨he, -⟩ | ⟨doc, -, he⟩ := handleUdpRequest_cases (E := E) w bytes
    · rw [he] at hh
      exact ⟨ids, (Prod.mk.inj hh).2 ▸ h⟩
    · rw [he] at hh
      have := h.handleRequest (E := E) .udp doc
      rw [hh] at this
      exact ⟨_, this⟩
  answered := by
    rintro ms w bytes sender m w' - ⟨ids, h⟩ hh
    obtain ⟨he, -⟩ | ⟨doc, -, he⟩ := handleUdpRequest_cases (E := E) w bytes
    · rw [he] at hh
      cases (Prod.mk.inj hh).1
    · rw [he] at hh
      have hrel := (Responder.handleRequest_answers (w := w) (m := m) (by rw [hh])).2.2.1
      have hp : w.processes doc = true := by
        by_contra hp
        rw [Responder.handleRequest_eq, if_neg hp] at hh
        split_ifs at hh <;> cases (Prod.mk.inj hh).1
      have hacc := h.handleRequest (E := E) .udp doc
      rw [hh, if_pos hp] at hacc
      refine ⟨doc.messageId :: ids, hacc.window, ?_, ?_, hacc.handled⟩
      · rw [List.length_append]
        exact Nat.le_add_right_of_le h.inside
      · rw [List.drop_append_of_le_length h.inside, answeredIds_append, List.reverse_append]
        -- the answer names the id that has just been accepted
        have hsub : (answeredIds [(m, sender)]).reverse.Sublist [some doc.messageId] := by
          unfold answeredIds
          by_cases hmatch : m.body.isMatch = true
          · simp [hmatch, hrel]
          · simp [hmatch]
        exact hsub.append h.answers
  http := by
    rintro ms w doc ⟨ids, h⟩
    exact ⟨_, h.handleRequest .http doc⟩

end Accepted

theorem exists_window (h : (machine E).Reachable s) : ∃ ids, s.responder.Window ids := by
  have hall : s.Inv ∧ ∃ ids, Accepted [] 0 0 ids s.udp.messages s.responder := by
    refine h.invariant (I := fun s => s.Inv ∧
      ∃ ids, Accepted [] 0 0 ids s.udp.messages s.responder) ?_ ?_
    · intro s₀ h₀
      obtain ⟨dest, hms, hw⟩ := init_messages h₀
      refine ⟨.init h₀, [], ?_, Nat.zero_le _, ?_, Nat.zero_le _⟩
      · rw [hw]
        exact ⟨rfl, rfl, trivial⟩
      · rw [hms]
        exact List.Sublist.refl _
    · intro s l t hs hst
      exact ⟨hs.1.step hst, step_messages (upholds_accepted [] 0 0 fun _ _ => True) hs.1
        (fun _ _ _ _ => trivial) hst hs.2⟩
  obtain ⟨-, ids, hacc⟩ := hall
  exact ⟨ids ++ [], hacc.window⟩

/-- Where an element occurs in a list that has it only once. -/
theorem eq_of_countP_le_one {α : Type*} {p : α → Bool} {l : List α} (h : l.countP p ≤ 1) {i j : ℕ}
    {a b : α} (ha : l[i]? = some a) (hb : l[j]? = some b) (hpa : p a = true) (hpb : p b = true) :
    i = j := by
  induction l generalizing i j with
  | nil => simp at ha
  | cons c l ih =>
    have hpos : ∀ {k : ℕ} {d : α}, l[k]? = some d → p d = true → 0 < l.countP p :=
      fun hk hd => List.countP_pos_iff.2 ⟨_, List.mem_of_getElem? hk, hd⟩
    rw [List.countP_cons] at h
    cases i with
    | zero =>
      cases j with
      | zero => rfl
      | succ j =>
        obtain rfl : c = a := by simpa using ha
        rw [List.getElem?_cons_succ] at hb
        have := hpos hb hpb
        rw [if_pos hpa] at h
        omega
    | succ i =>
      rw [List.getElem?_cons_succ] at ha
      have hia := hpos ha hpa
      cases j with
      | zero =>
        obtain rfl : c = b := by simpa using hb
        rw [if_pos hpb] at h
        omega
      | succ j =>
        rw [List.getElem?_cons_succ] at hb
        exact congrArg _ (ih (by omega) ha hb)

/-- As many messages answer a request as its id has been accepted. -/
theorem countP_answers_le_one {ms : List (Message × Endpoint)} {ids : List SysString}
    (h : (answeredIds ms).reverse.Sublist (ids.map some)) (hnodup : ids.Nodup)
    (messageId : SysString) :
    ms.countP (fun p => p.1.body.isMatch && p.1.relatesTo = some messageId) ≤ 1 := by
  have hcount : (answeredIds ms).count (some messageId) =
      ms.countP fun p => p.1.body.isMatch && p.1.relatesTo = some messageId := by
    simp only [answeredIds, List.count, List.countP_map, List.countP_filter]
    refine List.countP_congr fun p _ => ?_
    simp [and_comm]
  have hids : (ids.map some).Nodup := hnodup.map (Option.some_injective _)
  rw [← hcount, ← List.count_reverse]
  exact Nat.le_trans (h.count_le _) (List.nodup_iff_count_le_one.1 hids _)

/-- **No request is answered twice**, however often the network delivers it, in any stretch of a
run in which the server handles no more than `51` requests: the answer is sent twice at most. -/
theorem answered_once (hs : (machine E).Reachable s) (hr : (machine E).run s ls = some t)
    (hfew : handledRequests t.responder ≤ handledRequests s.responder + (maxKnownMessages + 1))
    (messageId : SysString) :
    t.udp.sent.countP (fun d => s.udp.chains.length ≤ d.chain ∧ d.buffer.body.isMatch = true ∧
      d.buffer.relatesTo = some messageId) ≤ 2 := by
  obtain ⟨before, hwindow⟩ := exists_window hs
  have hlen : s.udp.messages.length = s.udp.chains.length := List.length_map _
  -- what the server accepts from here on
  have hall := Machine.run_invariant (M := machine E) (I := fun t => Ordered E t ∧
    ∃ ids, Accepted before s.udp.chains.length (handledRequests s.responder) ids t.udp.messages
      t.responder) (fun u l u' hu hst => ⟨hu.1.step hst, step_messages (upholds_accepted _ _ _
        fun _ _ => True) hu.1.inv (fun _ _ _ _ => trivial) hst hu.2⟩)
    ⟨ordered_of_reachable hs, [], hwindow, hlen.ge, by simp [answeredIds, ← hlen], Nat.le_refl _⟩ hr
  obtain ⟨hord, ids, hacc⟩ := hall
  have hshort : ids.length ≤ maxKnownMessages + 1 := by
    have := hacc.handled
    omega
  have hnodup : ids.Nodup := by
    have hpre : ids <+: (ids ++ before).take (maxKnownMessages + 1) :=
      List.prefix_take_iff.2 ⟨List.prefix_append _ _, hshort⟩
    exact hacc.window.spaced.nodup_take.sublist hpre.sublist
  have hone := countP_answers_le_one hacc.answers hnodup messageId
  by_cases hany : ∃ d ∈ t.udp.sent, s.udp.chains.length ≤ d.chain ∧ d.buffer.body.isMatch = true ∧
      d.buffer.relatesTo = some messageId
  · -- all such datagrams are of the one chain that answers the request
    obtain ⟨d₀, hd₀, hn₀, hm₀, hrel₀⟩ := hany
    obtain ⟨s₀, ls₀, h₀, hr₀⟩ := hs
    have hstarted := ((Started.init h₀).run hr₀).run hr
    refine Nat.le_trans (List.countP_mono_left fun d hd h => ?_)
      (hstarted.announces.countP_of_isMatch rfl hd₀ hm₀).1
    obtain ⟨hn, hm, hrel⟩ := of_decide_eq_true h
    have hget : ∀ {d : Sent Message}, d ∈ t.udp.sent → s.udp.chains.length ≤ d.chain →
        (t.udp.messages.drop s.udp.chains.length)[d.chain - s.udp.chains.length]? =
          some (d.buffer, d.dest) := by
      intro d hd hn
      rw [List.getElem?_drop, Nat.add_sub_cancel' hn]
      exact hord.traced.origin d hd
    have heq := eq_of_countP_le_one hone (hget hd hn) (hget hd₀ hn₀) (by simp [hm, hrel])
      (by simp [hm₀, hrel₀])
    refine decide_eq_true ?_
    omega
  · have hzero : t.udp.sent.countP (fun d => s.udp.chains.length ≤ d.chain ∧
        d.buffer.body.isMatch = true ∧ d.buffer.relatesTo = some messageId) = 0 := by
      rw [List.countP_eq_zero]
      intro d hd h
      exact hany ⟨d, hd, of_decide_eq_true h⟩
    omega

/-- The probe has been answered, and it has been answered once. -/
theorem answered_once_afterRepeatedProbe :
    (∃ d ∈ afterRepeatedProbe.udp.sent, d.buffer.body.isMatch = true) ∧
    afterRepeatedProbe.udp.sent.countP (fun d => probedServer.udp.chains.length ≤ d.chain ∧
      d.buffer.body.isMatch = true ∧
      d.buffer.relatesTo = some (SysString.ofLiteral "urn:uuid:1")) ≤ 2 :=
  ⟨by decide +kernel, answered_once ⟨probedServer, [], probedServer_init, rfl⟩ run_repeatedProbe
    (by decide +kernel) _⟩

end WsdServer

end Wsddn
